import CardFilter.Draft.Term
import CardFilter.Suggestion

/-!
# Suggestions of values and comparisons

Once a key and a comparison that it accepts have been typed, the values of the key that contain the
typed fragment are offered. Once the value is complete, and one that the key lists, the other
comparisons of the key are offered with it.
-/

namespace CardFilter

/-- A draft term whose key and comparison are settled. -/
structure SettledKey where
  /-- The key. -/
  key : Key
  /-- The spelling of the key that was typed, in lower case. -/
  spelling : String
  /-- The comparison, which the key accepts. -/
  comparison : Comparison
  /-- The value so far. -/
  value : Draft.Text
  /-- The mark `-` stands first. -/
  negated : Bool

namespace SettledKey

/-- The key and comparison of a draft term, if they are settled. -/
def ofDraft? (v : Vocabulary) (t : Draft.Term) : Option SettledKey :=
  match t.content with
  | .name _ _ => none
  | .keyed spelling operator value =>
    match v.lookup? spelling, operator.comparison? with
    | some key, some comparison =>
      if key.operators.accepts comparison then
        some ⟨key, spelling, comparison, value, t.negated⟩
      else none
    | _, _ => none

/-- The filter with this key and negation. -/
def filter (s : SettledKey) (comparison : Comparison) (value : Value) : Filter :=
  .term (.keyed s.negated s.spelling comparison value)

/-- The number of characters before a value in the text of a filter that ends with it. -/
def valueStart (f : Filter) (value : String) : Nat :=
  let shown := (Value.text value).render
  f.chars.length - shown.toList.length + (if shown = value then 0 else 1)

/-- The suggestion of a value, if it contains the fragment. With an empty fragment every value is
suggested, and nothing of it is matched. -/
def suggestion? (s : SettledKey) (value : String) : Option Suggestion :=
  let f := s.filter s.comparison (.text value)
  if s.value.content.toList.isEmpty then some ⟨.value f, none, .inner⟩
  else (findIgnoringCase value s.value.content).map fun r =>
    ⟨.value f, some (r.shift (valueStart f value)), alignmentAfterNegation s.negated r⟩

/-- What decides the order of the values: the alphabet alone while the fragment is empty. -/
def valueRank (s : SettledKey) (value : String) (suggestion : Suggestion) : List Nat :=
  if s.value.content.toList.isEmpty then codePoints value
  else suggestion.rank ++ codePoints value

/-- **The values of the key that contain the fragment**, best first. -/
def valueSuggestions (s : SettledKey) (excluding : List Filter) (limit : Nat) :
    List Suggestion :=
  if s.value.isRegex then []
  else
    let offered := ((s.key.values.getD []).filter fun value =>
        !excluding.contains (s.filter s.comparison (.text value))).filterMap fun value =>
      (s.suggestion? value).map fun suggestion => (s.valueRank value suggestion, suggestion)
    ((rankBy (·.1) offered).take limit).map (·.2)

/-- The value is one that the key lists, the case of ASCII letters being set aside. -/
def lists (s : SettledKey) (value : Value) : Bool :=
  (s.key.values.getD []).any fun listed => sameAsciiIgnoringCase listed value.content

/-- **The other comparisons** that the key accepts, with the same value. -/
def operatorSuggestions (s : SettledKey) (value : Value) (excluding : List Filter) (limit : Nat) :
    List Suggestion :=
  let others := (s.key.operators.comparisons.filter (· ≠ s.comparison)).map (s.filter · value)
  ((others.filter fun f => !excluding.contains f).take limit).map fun f =>
    ⟨.operator f, none, .inner⟩

end SettledKey

/-- The values that a draft term may go on with. -/
def Vocabulary.valueSuggestions (v : Vocabulary) (t : Draft.Term) (excluding : List Filter)
    (limit : Nat) : List Suggestion :=
  match SettledKey.ofDraft? v t with
  | none => []
  | some s => s.valueSuggestions excluding limit

/-- The other comparisons for a draft term that is complete, an open quote being closed. -/
def Vocabulary.operatorSuggestions (v : Vocabulary) (t : Draft.Term) (excluding : List Filter)
    (limit : Nat) : List Suggestion :=
  match SettledKey.ofDraft? v t, t.completeClosing? with
  | some s, some (.keyed _ _ _ value) =>
    if s.lists value then s.operatorSuggestions value excluding limit else []
  | _, _ => []

end CardFilter
