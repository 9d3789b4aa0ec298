import CardFilter.Draft.Term
import CardFilter.Store
import CardFilter.Suggestion

/-!
# Suggestions from saved filters

Saved filters are offered when their text contains what has been typed. What is typed after a `-`
is also looked for in the filters that are not negated, and these are then offered negated.
-/

namespace CardFilter

/-- The two lists of saved filters. -/
inductive SavedList
  /-- Filters that were pinned. -/
  | pinned
  /-- Filters that were used lately. -/
  | history
  deriving DecidableEq, Repr

namespace SavedList

/-- A filter of the list as a candidate. -/
def candidate : SavedList → Filter → Candidate
  | pinned, f => .pinned f
  | history, f => .history f

/-- The suggestion of a filter for a text, if it fits: as it is where its text contains the typed
text, and else negated where its text contains what was typed after a `-`. -/
def suggestion? (l : SavedList) (typed : String) (f : Filter) : Option Suggestion :=
  match findIgnoringCase f.render typed with
  | some r => some ⟨l.candidate f, some r, alignmentOf f.render r⟩
  | none =>
    match typed.toList with
    | '-' :: c :: rest =>
      if f.isNegated then none
      else (findIgnoringCase f.render (String.ofList (c :: rest))).map fun r =>
        if r.start = 0 then ⟨l.candidate (f.withNegation true), some ⟨0, r.stop + 1⟩, .effective⟩
        else ⟨l.candidate (f.withNegation true), some (r.shift 1), .inner⟩
    | _ => none

/-- The candidate is one of the filters to leave out. -/
def isExcluded (excluding : List Filter) (s : Suggestion) : Bool :=
  match s.candidate.filter? with
  | some f => excluding.contains f
  | none => false

/-- **The saved filters that fit**, best first. For an empty term these are all of them, the most
recent first. -/
def suggestions (l : SavedList) (store : Store) (t : Draft.Term) (excluding : List Filter)
    (limit : Nat) : List Suggestion :=
  if t.isEmpty then
    ((store.entries.filter fun f => !excluding.contains f).take limit).map fun f =>
      ⟨l.candidate f, none, .inner⟩
  else
    (rankBy Suggestion.rank ((store.entries.filterMap (l.suggestion? t.raw)).filter
      fun s => !isExcluded excluding s)).take limit

end SavedList

end CardFilter
