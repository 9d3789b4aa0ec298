import CardFilter.Draft.Term
import CardFilter.Suggestion

/-!
# Suggestions of keys

While a bare word is typed, with no comparison after it, the keys with a spelling that contains the
word are offered, each spelling with the comparison `:`. A spelling that is the word itself comes
first, and of two spellings that rank alike the main one comes last.
-/

namespace CardFilter

/-- The suggestion of a spelling for a word, if the spelling contains the word. -/
def spellingSuggestion? (negated : Bool) (word spelling : String) : Option Suggestion :=
  (findIgnoringCase spelling word).map fun r =>
    ⟨.key ⟨negated, spelling, .including⟩, some (r.shift (if negated then 1 else 0)),
      alignmentAfterNegation negated r⟩

/-- What decides the order of the spellings of a key that contain a word. -/
def spellingRank (word : String) (k : Key) (spelling : String) (s : Suggestion) : List Nat :=
  (if sameAsciiIgnoringCase spelling word then 0 else 1) :: s.rank
    ++ [if spelling = k.name then 1 else 0]

/-- The suggestions of a key for a word, each with its rank. -/
def keySuggestions (negated : Bool) (word : String) (k : Key) : List (List Nat × Suggestion) :=
  k.spellings.filterMap fun spelling =>
    (spellingSuggestion? negated word spelling).map fun s => (spellingRank word k spelling s, s)

/-- The bare word that a draft term consists of, its negation apart. -/
def bareWord? (t : Draft.Term) : Option String :=
  match t.content with
  | .name false (.bare word) => if word.toList.isEmpty then none else some word
  | _ => none

/-- **The keys that a word may grow into**, best first. -/
def Vocabulary.suggestions (v : Vocabulary) (t : Draft.Term) (limit : Nat) : List Suggestion :=
  match bareWord? t with
  | none => []
  | some word =>
    ((rankBy (·.1) (v.keys.flatMap (keySuggestions t.negated word))).take limit).map (·.2)

end CardFilter
