import CardFilter.Suggestion.Keys
import CardFilter.Suggestion.Names
import CardFilter.Suggestion.Saved
import CardFilter.Suggestion.Values

/-!
# Merged suggestions

The sources are asked one after the other: pinned filters, filters used lately, keys, values,
comparisons, and at last card names. Each gives its best, and a candidate whose text was offered
before is dropped.
-/

namespace CardFilter

/-- What is known when a term is completed. -/
structure Sources where
  /-- The pinned filters. -/
  pinned : Store
  /-- The filters used lately. -/
  history : Store
  deriving Repr

/-- The suggestions whose text did not come before. -/
def merge (suggestions : List Suggestion) : List Suggestion :=
  distinctBy Suggestion.render suggestions

/-- The suggestions of every source that answers at once, one source after the other. -/
def Sources.all (s : Sources) (t : Draft.Term) (excluding : List Filter) (limit : Nat) :
    List Suggestion :=
  SavedList.pinned.suggestions s.pinned t excluding limit
    ++ SavedList.history.suggestions s.history t excluding limit
    ++ Vocabulary.standard.suggestions t limit
    ++ Vocabulary.standard.valueSuggestions t excluding limit
    ++ Vocabulary.standard.operatorSuggestions t excluding limit

/-- **The suggestions that need no lookup.** -/
def Sources.immediate (s : Sources) (t : Draft.Term) (excluding : List Filter) (limit : Nat) :
    List Suggestion :=
  merge (s.all t excluding limit)

/-- **The suggestions with card names**: those that were there, and the names not offered yet. -/
def withNames (first : List Suggestion) (t : Draft.Term) (names : List String)
    (excluding : List Filter) (limit : Nat) : List Suggestion :=
  merge (first ++ nameSuggestions t names excluding limit)

end CardFilter
