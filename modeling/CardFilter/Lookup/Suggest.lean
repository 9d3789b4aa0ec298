import CardFilter.Lookup
import CardFilter.Suggestion.Names

/-!
# Suggestions of one lookup

A term can be looked up by itself: the lookup runs under a ticket, and its caller waits for the
names.
-/

namespace CardFilter.Lookups

/-- **Looks a term up** under a ticket and waits for the suggestions. There are none where the term
is not one to look up, and where the lookup has nothing to deliver. -/
def suggest (minLength ticket : Nat) (t : Draft.Term) (excluding : List Filter) (limit : Nat)
    (s : Lookups) : Option (List Suggestion) × Lookups :=
  if isLookedUp minLength t then
    let place := s.all.length
    let later := (s.begin ticket (nameFragment t)).settle.await place
    ((later.delivered? place).map fun names => nameSuggestions t names excluding limit, later)
  else (none, s)

end CardFilter.Lookups
