import CardFilter.Filter
import CardFilter.Token
import CardFilter.Vocabulary.Standard

/-!
# Reading a complete filter

A filter text is a term or a group, and nothing else:

* a term is a name, or a key, a comparison and a value; a `-` before it negates it, and a `!`
  before a name asks for exactly that name;
* a group is a list of terms between parentheses, with blanks or the word `or` between them, and a
  `-` before it negates it.

Marks, key, comparison and value touch. The text of a group is split into tokens of its own, at
the place where it stands. `CardFilter.Filter.parse` reads a text with the standard vocabulary and
reports the first fault.
-/

namespace CardFilter

namespace Token

/-- The next token starts where this one ends. -/
def touches (t : Token) : List Token → Bool
  | [] => false
  | next :: _ => next.start == t.stop

/-- The token is the word `or`. -/
def isOr (t : Token) : Bool :=
  match t.kind with
  | .word w => Value.isOrWord w
  | _ => false

/-- The token is a comparison. -/
def isComparison (t : Token) : Bool :=
  match t.kind with
  | .comparison _ => true
  | _ => false

/-- A comparison touches the token. -/
def hasComparison (t : Token) : List Token → Bool
  | [] => false
  | next :: _ => next.isComparison && next.start == t.stop

/-- The value that the token writes. -/
def value? (t : Token) : Option Value :=
  match t.kind with
  | .word s | .quoted s => some (.text s)
  | .regex s => some (.regex s)
  | _ => none

end Token

/-- A term that was read: the term, the byte position where it ends, and the tokens after it. -/
structure ReadTerm where
  /-- The term. -/
  term : Term
  /-- Where its last token ends. -/
  stop : Nat
  /-- What follows. -/
  rest : List Token
  deriving Repr

namespace Filter

/-- The value of a keyed term, where the tokens come after its comparison `c`. -/
def readKeyed (v : Vocabulary) (negated : Bool) (key : String) (keyAt : Nat) (c : Comparison)
    (operator : Token) (rest : List Token) : Except SyntaxError ReadTerm :=
  match v.lookupIgnoringCase? key with
  | none => .error ((GrammarFault.unknownKey key).at keyAt)
  | some k =>
    if k.operators.accepts c then
      match rest with
      | [] => .error ((GrammarFault.missingValue key c).at operator.stop)
      | t :: rest =>
        if t.start = operator.stop then
          match t.value? with
          | some value => .ok ⟨.keyed negated (lowercase key) c value, t.stop, rest⟩
          | none => .error ((GrammarFault.missingValue key c).at operator.stop)
        else .error ((GrammarFault.missingValue key c).at operator.stop)
    else .error ((GrammarFault.refusedComparison key c).at operator.start)

/-- The name after the literal mark `bang`. -/
def readMarked (negated : Bool) (bang : Token) : List Token → Except SyntaxError ReadTerm
  | [] => .error (GrammarFault.detachedBang.at bang.start)
  | t :: rest =>
    if t.start = bang.stop then
      match t.kind with
      | .word w =>
        if t.hasComparison rest then .error ((GrammarFault.markedKey w).at bang.start)
        else .ok ⟨.name negated true (.text w), t.stop, rest⟩
      | .quoted s => .ok ⟨.name negated true (.text s), t.stop, rest⟩
      | .regex s => .ok ⟨.name negated true (.regex s), t.stop, rest⟩
      | kind => .error ((GrammarFault.notAName kind.describe).at t.start)
    else .error (GrammarFault.detachedBang.at bang.start)

/-- The term that begins with the token `t`, its negation apart. -/
def readUnsigned (v : Vocabulary) (negated : Bool) (t : Token) (rest : List Token) :
    Except SyntaxError ReadTerm :=
  match t.kind with
  | .bang => readMarked negated t rest
  | .word w =>
    match rest with
    | ⟨.comparison c, start⟩ :: after =>
      if start = t.stop then readKeyed v negated w t.start c ⟨.comparison c, start⟩ after
      else if Value.isOrWord w then .error (GrammarFault.orOutsideGroup.at t.start)
      else .ok ⟨.name negated false (.text w), t.stop, rest⟩
    | _ =>
      if Value.isOrWord w then .error (GrammarFault.orOutsideGroup.at t.start)
      else .ok ⟨.name negated false (.text w), t.stop, rest⟩
  | .quoted s => .ok ⟨.name negated false (.text s), t.stop, rest⟩
  | .regex s => .ok ⟨.name negated false (.regex s), t.stop, rest⟩
  | kind => .error ((GrammarFault.notAFilter kind.describe).at t.start)

/-- **The term at the front of the tokens**, which are not empty. -/
def readTerm (v : Vocabulary) : List Token → Except SyntaxError ReadTerm
  | [] => .error GrammarFault.nothingNegated.everywhere
  | t :: rest =>
    if t.kind = .minus then
      match rest with
      | [] => .error (GrammarFault.detachedMinus.at t.start)
      | next :: rest =>
        if next.start = t.stop then readUnsigned v true next rest
        else .error (GrammarFault.detachedMinus.at t.start)
    else readUnsigned v false t rest

theorem length_lt_of_readKeyed {v : Vocabulary} {negated : Bool} {key : String} {keyAt : Nat}
    {c : Comparison} {operator : Token} {rest : List Token} {r : ReadTerm}
    (h : readKeyed v negated key keyAt c operator rest = .ok r) :
    r.rest.length < rest.length := by
  unfold readKeyed at h
  repeat' split at h
  all_goals cases h
  simp

theorem length_lt_of_readMarked {negated : Bool} {bang : Token} {rest : List Token} {r : ReadTerm}
    (h : readMarked negated bang rest = .ok r) : r.rest.length < rest.length := by
  unfold readMarked at h
  repeat' split at h
  all_goals cases h
  all_goals simp

theorem length_le_of_readUnsigned {v : Vocabulary} {negated : Bool} {t : Token}
    {rest : List Token} {r : ReadTerm} (h : readUnsigned v negated t rest = .ok r) :
    r.rest.length ≤ rest.length := by
  unfold readUnsigned at h
  repeat' split at h
  all_goals first
    | exact Nat.le_of_lt (length_lt_of_readMarked h)
    | exact Nat.le_succ_of_le (Nat.le_of_lt (length_lt_of_readKeyed h))
    | (cases h; done)
    | (cases h; exact Nat.le_refl _)

/-- Reading a term uses up at least one token. -/
theorem length_lt_of_readTerm {v : Vocabulary} {ts : List Token} {r : ReadTerm}
    (h : readTerm v ts = .ok r) : r.rest.length < ts.length := by
  unfold readTerm at h
  repeat' split at h
  · cases h
  · cases h
  · exact Nat.lt_succ_of_le (Nat.le_succ_of_le (length_le_of_readUnsigned h))
  · cases h
  · exact Nat.lt_succ_of_le (length_le_of_readUnsigned h)

/-- The members of a group, `isFirst` at its start. -/
def readMembers (v : Vocabulary) (isFirst : Bool) : List Token → Except SyntaxError (List Term)
  | [] => .ok []
  | t :: ts =>
    if t.isOr then
      .error ((if isFirst then GrammarFault.orFirst else GrammarFault.orTwice).at t.start)
    else match _hread : readTerm v (t :: ts) with
      | .error e => .error e
      | .ok r =>
        match _hrest : r.rest with
        | [] => .ok [r.term]
        | next :: after =>
          if next.isOr then
            if after.isEmpty then .error (GrammarFault.orLast.at next.start)
            else match readMembers v false after with
              | .error e => .error e
              | .ok following => .ok (r.term :: following)
          else if next.start = r.stop then .error (GrammarFault.unseparatedMembers.at t.start)
          else match readMembers v false (next :: after) with
            | .error e => .error e
            | .ok following => .ok (r.term :: following)
termination_by ts => ts.length
decreasing_by
  all_goals
    have := length_lt_of_readTerm _hread
    simp [_hrest] at this ⊢
    omega

/-- The group with the text `body` whose parenthesis opens at the byte position `start`. -/
def readGroup (v : Vocabulary) (negated : Bool) (start : Nat) (body : String) :
    Except SyntaxError Filter :=
  match Token.tokensFrom (start + 1) body.toList with
  | .error e => .error e.toSyntaxError
  | .ok [] => .error (GrammarFault.emptyGroup.at start)
  | .ok (t :: ts) =>
    match readMembers v true (t :: ts) with
    | .error e => .error e
    | .ok members => .ok (.anyOf negated members)

/-- The filter, unless a token follows it. -/
def complete (f : Filter) : List Token → Except SyntaxError Filter
  | [] => .ok f
  | t :: _ => .error ((GrammarFault.trailing t.kind.describe).at t.start)

/-- The filter that consists of one term. -/
def readSingle (v : Vocabulary) (ts : List Token) : Except SyntaxError Filter :=
  match readTerm v ts with
  | .error e => .error e
  | .ok r => complete (.term r.term) r.rest

/-- **The filter that the tokens form.** -/
def ofTokens (v : Vocabulary) : List Token → Except SyntaxError Filter
  | [] => .error GrammarFault.emptyFilter.everywhere
  | ⟨.group body, start⟩ :: rest =>
    match readGroup v false start body with
    | .error e => .error e
    | .ok f => complete f rest
  | ⟨.minus, start⟩ :: ⟨.group body, groupStart⟩ :: rest =>
    if groupStart = start + 1 then
      match readGroup v true groupStart body with
      | .error e => .error e
      | .ok f => complete f rest
    else .error (GrammarFault.detachedMinus.at start)
  | t :: ts => readSingle v (t :: ts)

/-- **The filter that a text writes**, with the keys of the vocabulary. -/
def parseWith (v : Vocabulary) (text : String) : Except QueryError Filter :=
  match Token.tokens text with
  | .error e => .error ⟨.lexing, e.toSyntaxError, text⟩
  | .ok ts =>
    match ofTokens v ts with
    | .error e => .error ⟨.parsing, e, text⟩
    | .ok f => .ok f

/-- **The filter that a text writes**, with the standard vocabulary. -/
def parse (text : String) : Except QueryError Filter :=
  parseWith .standard text

end Filter

end CardFilter
