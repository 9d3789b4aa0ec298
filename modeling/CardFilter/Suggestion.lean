import CardFilter.Filter
import CardFilter.Ranking
import CardFilter.Text.Search

/-!
# Suggestions

A suggestion offers a candidate for the term being typed: a whole filter, or a key with its
comparison. It says where the typed text stands in the candidate, and how that place lines up with
the start. Candidates that start with the typed text rank first.
-/

namespace CardFilter

/-- A key to go on typing after. -/
structure KeyCandidate where
  /-- The mark `-` stands first. -/
  negated : Bool
  /-- The spelling of the key. -/
  key : String
  /-- The comparison after it. -/
  comparison : Comparison
  deriving DecidableEq, Repr

/-- The text of the candidate. -/
def KeyCandidate.render (k : KeyCandidate) : String :=
  String.ofList (negationChars k.negated ++ k.key.toList ++ k.comparison.chars)

/-- What is offered, by where it comes from. -/
inductive Candidate
  /-- A pinned filter. -/
  | pinned (filter : Filter)
  /-- A filter used lately. -/
  | history (filter : Filter)
  /-- A key. -/
  | key (candidate : KeyCandidate)
  /-- A value of the key that was typed. -/
  | value (filter : Filter)
  /-- Another comparison between the key and the value that were typed. -/
  | operator (filter : Filter)
  /-- A card name. -/
  | name (filter : Filter)
  deriving DecidableEq, Repr

namespace Candidate

/-- Where the candidate comes from, in a word. -/
def label : Candidate → String
  | pinned _ => "pinned"
  | history _ => "history"
  | key _ => "key"
  | value _ => "value"
  | operator _ => "operator"
  | name _ => "name"

/-- The filter that is offered, unless it is a key. -/
def filter? : Candidate → Option Filter
  | pinned f | history f | value f | operator f | name f => some f
  | key _ => none

/-- **The text of the candidate.** -/
def render : Candidate → String
  | pinned f | history f | value f | operator f | name f => f.render
  | key k => k.render

end Candidate

/-- How the typed text lines up with the start of a candidate. -/
inductive Alignment
  /-- The candidate starts with it. -/
  | actual
  /-- The candidate starts with it, leading marks or the negation being set aside. -/
  | effective
  /-- It stands elsewhere in the candidate, or nowhere. -/
  | inner
  deriving DecidableEq, Repr

/-- Better alignments have smaller ranks. -/
def Alignment.rank : Alignment → Nat
  | actual => 0
  | effective => 1
  | inner => 2

/-- **A candidate with its match.** -/
structure Suggestion where
  /-- What is offered. -/
  candidate : Candidate
  /-- Where the typed text stands in the text of the candidate. -/
  matched : Option CharRange
  /-- How that lines up with the start. -/
  alignment : Alignment
  deriving DecidableEq, Repr

namespace Suggestion

/-- The text of the candidate. -/
def render (s : Suggestion) : String :=
  s.candidate.render

/-- The number of characters of the text. -/
def length (s : Suggestion) : Nat :=
  s.render.toList.length

/-- Better alignments come first, and then shorter texts. -/
def rank (s : Suggestion) : List Nat :=
  [s.alignment.rank, s.length]

end Suggestion

/-! ### Alignment of a match -/

/-- The number of marks before the content of a candidate's text: a `-`, a `!`, and an opening
quote or slash, each of which may be missing. -/
def leadingMarks (cs : List Char) : Nat :=
  let afterMinus := if cs.head? = some '-' then cs.drop 1 else cs
  let afterBang := if afterMinus.head? = some '!' then afterMinus.drop 1 else afterMinus
  let afterQuote := match afterBang with
    | c :: rest => if (Quote.ofChar? c).isSome then rest else afterBang
    | [] => []
  cs.length - afterQuote.length

/-- How a match in the text of a candidate lines up with its start. -/
def alignmentOf (text : String) (matched : CharRange) : Alignment :=
  if matched.start = 0 then .actual
  else if matched.start = leadingMarks text.toList then .effective
  else .inner

/-- How a match lines up with the start of what follows the candidate's negation mark. -/
def alignmentAfterNegation (negated : Bool) (matched : CharRange) : Alignment :=
  if matched.start = 0 then (if negated then .effective else .actual) else .inner

end CardFilter
