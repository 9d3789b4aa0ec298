import CardFilter.Draft.Piece
import CardFilter.Filter
import CardFilter.Vocabulary.Standard

/-!
# A term that is still being typed

A draft term records how far the typing of one term has come: whether a key and a comparison have
been typed, and whether the quotes around the value are closed. Reading one never fails, because
text that does not begin with a key and a comparison is a name. Once nothing is left open the draft
completes to a term (`CardFilter.Draft.Term.complete?`), and an open quote can be taken as closed
at the end of the text (`CardFilter.Draft.Term.completeClosing?`).
-/

namespace CardFilter.Draft

/-- The text of a name or of a value, with the state of its quotes. -/
inductive Text
  /-- Without quotes. -/
  | bare (text : String)
  /-- Between quotes, the closing one being the last character. -/
  | balanced (quote : Quote) (text : String)
  /-- After a quote that is not closed yet. -/
  | unterminated (quote : Quote) (text : String)
  deriving DecidableEq, Repr, Inhabited

namespace Text

/-- **The state of the quotes of a text.** A quote that is closed before the end makes no quoted
text: the whole is bare. -/
def ofChars (cs : List Char) : Text :=
  match cs with
  | [] => bare ""
  | c :: body =>
    match Quote.ofChar? c with
    | none => bare (String.ofList cs)
    | some q =>
      match cutAtMark? q.mark body with
      | none => unterminated q (String.ofList body)
      | some (before, []) => balanced q (String.ofList before)
      | some (_, _ :: _) => bare (String.ofList cs)

/-- The text between the quotes. -/
def content : Text → String
  | bare s | balanced _ s | unterminated _ s => s

/-- The text belongs to a regular expression. -/
def isRegex : Text → Bool
  | balanced .regex _ | unterminated .regex _ => true
  | _ => false

/-- A quoted text as a value. -/
def quotedValue : Quote → String → Value
  | .regex, s => .regex s
  | _, s => .text s

/-- The value that the text stands for, where `closing` takes an open quote as closed. Nothing
typed stands for no value, and neither does an open quote with nothing after it. -/
def value? (closing : Bool) : Text → Option Value
  | bare s => if s.toList.isEmpty then none else some (.text s)
  | balanced q s => some (quotedValue q s)
  | unterminated q s => if closing && !s.toList.isEmpty then some (quotedValue q s) else none

end Text

/-- The comparison of a draft term. -/
inductive Operator
  /-- A comparison. -/
  | complete (comparison : Comparison)
  /-- The mark `!`, which may become `!=`. -/
  | bang
  deriving DecidableEq, Repr

/-- The comparison, if it is complete. -/
def Operator.comparison? : Operator → Option Comparison
  | complete c => some c
  | bang => none

/-- What stands after the negation mark. -/
inductive Content
  /-- A name, with the mark `!` before it or not. -/
  | name (literal : Bool) (text : Text)
  /-- A key in lower case, a comparison and a value. -/
  | keyed (key : String) (operator : Operator) (value : Text)
  deriving DecidableEq, Repr

/-- **A term as it is being typed.** -/
structure Term where
  /-- A negation mark stands first. -/
  negated : Bool
  /-- What stands after it. -/
  content : Content
  /-- The whole text. -/
  raw : String
  deriving DecidableEq, Repr

namespace Term

/-- The operator at the start of a text, with what follows it. -/
def readOperator? (cs : List Char) : Option (Operator × List Char) :=
  match Comparison.read? cs with
  | some (c, rest) => some (.complete c, rest)
  | none =>
    match cs with
    | '!' :: rest => some (.bang, rest)
    | _ => none

/-- The key, operator and value that a text begins with, where the key is one of the standard
vocabulary in any case. -/
def readKeyed? (cs : List Char) : Option Content :=
  let key := String.ofList (cs.takeWhile isWordChar)
  if key.toList.isEmpty then none
  else match Vocabulary.standard.lookupIgnoringCase? key with
    | none => none
    | some _ => (readOperator? (cs.dropWhile isWordChar)).map fun (operator, value) =>
        .keyed (lowercase key) operator (Text.ofChars value)

/-- What a text is after its negation mark. -/
def readContent (cs : List Char) : Content :=
  match cs with
  | '!' :: name => .name true (Text.ofChars name)
  | _ => (readKeyed? cs).getD (.name false (Text.ofChars cs))

/-- **The draft term that a text writes.** -/
def ofText (text : String) : Term :=
  match text.toList with
  | '-' :: rest => ⟨true, readContent rest, text⟩
  | cs => ⟨false, readContent cs, text⟩

/-- **The draft term under a cursor**: that of the chunk which contains the byte position or ends
at it, and else the empty one. -/
def atCursor (text : String) (position : Nat) : Term :=
  match (pieces text).find? fun p =>
      p.kind == .chunk && p.start ≤ position && position ≤ p.stop with
  | some p => ofText p.text
  | none => ofText ""

/-- The part that is being completed: the name, or the value. -/
def fragment (t : Term) : String :=
  match t.content with
  | .name _ text => text.content
  | .keyed _ _ value => value.content

/-- Nothing has been typed. -/
def isEmpty (t : Term) : Bool :=
  t.raw.toList.isEmpty

/-- The term that the draft stands for, where `closing` takes an open quote as closed. -/
def promote? (closing : Bool) (t : Term) : Option CardFilter.Term :=
  match t.content with
  | .name literal text => (text.value? closing).map (.name t.negated literal ·)
  | .keyed key operator value =>
    match operator.comparison?, Vocabulary.standard.lookup? key with
    | some c, some k =>
      if k.operators.accepts c then (value.value? closing).map (.keyed t.negated key c ·)
      else none
    | _, _ => none

/-- **The complete term**, if nothing is left open. -/
def complete? (t : Term) : Option CardFilter.Term :=
  t.promote? false

/-- **The complete term, an open quote being closed** at the end of the text. -/
def completeClosing? (t : Term) : Option CardFilter.Term :=
  t.promote? true

end Term

end CardFilter.Draft
