import CardFilter.Proofs.Matches
import Mathlib.Data.List.Nodup
import Mathlib.Data.List.Pairwise

/-!
# A saved filter offered twice

No filter is saved twice, and still a list of saved filters can offer one twice: as it is, and again
as the negation of the saved filter that it negates. This file says when that happens
(`CardFilter.SavedList.nodup_suggestions_iff`).

Every saved filter is offered at most once, as it is or negated. Filters that are offered in the
same way are different; so a repeat takes a filter that was saved, and is found as it was typed,
and whose opposite was saved too and **fits only without the mark**
(`CardFilter.Store.FindsTwice`). The search looks for the rest behind the mark in one filter after
the other, even where what was typed is found in another one.
-/

namespace CardFilter

/-! ### Filters and their negations -/

section Negation

variable {f g : Filter}

theorem Filter.withNegation_self (f : Filter) : f.withNegation f.isNegated = f := by
  cases f with
  | term t => cases t <;> rfl
  | anyOf _ _ => rfl

theorem Filter.withNegation_withNegation (f : Filter) (negated negated' : Bool) :
    (f.withNegation negated).withNegation negated' = f.withNegation negated' := by
  cases f with
  | term t => cases t <;> rfl
  | anyOf _ _ => rfl

theorem Filter.isNegated_withNegation (f : Filter) (negated : Bool) :
    (f.withNegation negated).isNegated = negated := by
  cases f with
  | term t => cases t <;> rfl
  | anyOf _ _ => rfl

/-- Filters that are not negated are told apart by their negations. -/
theorem Filter.eq_of_withNegation_true_eq (hf : f.isNegated = false) (hg : g.isNegated = false)
    (h : f.withNegation true = g.withNegation true) : f = g := by
  have hback := congrArg (Filter.withNegation false) h
  rwa [withNegation_withNegation, withNegation_withNegation, ← hf, withNegation_self, hf, ← hg,
    withNegation_self] at hback

end Negation

theorem SavedList.candidate_inj {l : SavedList} {f g : Filter} (h : l.candidate f = l.candidate g) :
    f = g := by
  cases l
  · exact Candidate.pinned.inj h
  · exact Candidate.history.inj h

/-! ### Repeats -/

/-- **The negation of a saved filter is found twice**: it is saved itself, and contains what was
typed, and the filter contains this only without its mark. -/
structure Store.FindsTwice (store : Store) (typed : String) (f : Filter) : Prop where
  /-- The filter is saved. -/
  saved : f ∈ store.entries
  /-- Its negation is saved. -/
  negation_saved : f.withNegation true ∈ store.entries
  /-- The negation contains what was typed. -/
  negation_found : ∃ range, findIgnoringCase (f.withNegation true).render typed = some range
  /-- The filter contains what was typed after the mark, and no more. -/
  fits_negated : ∃ rest range, f.FitsNegated typed rest range

/-- Answers that are cut from one list have no repeats exactly if the list has none. -/
theorem Source.CutFrom.nodup_iff {β : Type} {candidates : List Suggestion}
    {answers : List Filter → Nat → List Suggestion} (h : CutFrom candidates answers)
    (excluding : List Filter) (f : Suggestion → β) :
    (∀ limit, ((answers excluding limit).map f).Nodup) ↔
      ((candidates.filter fun r => !SavedList.isExcluded excluding r).map f).Nodup := by
  obtain ⟨ranked, hperm, hanswers⟩ := h
  rw [← ((hperm.filter _).map f).nodup_iff]
  constructor
  · intro hnodup
    have hall := hnodup (ranked.filter fun r => !SavedList.isExcluded excluding r).length
    rwa [hanswers, List.take_length] at hall
  · intro hnodup limit
    rw [hanswers]
    exact hnodup.sublist ((List.take_sublist limit _).map f)

namespace SavedList

variable {l : SavedList} {store : Store} {t : Draft.Term} {excluding : List Filter}
  {typed : String} {f g : Filter} {r r' : Suggestion}

/-- **Two saved filters with the same candidate** are a filter and its negation, and the candidate
is the negation. -/
theorem exists_findsTwice_of_candidate_eq (hf : f ∈ store.entries) (hg : g ∈ store.entries)
    (hne : f ≠ g) (hr : l.suggestion? typed f = some r) (hr' : l.suggestion? typed g = some r')
    (h : r.candidate = r'.candidate) :
    ∃ f, store.FindsTwice typed f ∧ r.candidate = l.candidate (f.withNegation true) := by
  rcases suggestion?_eq_some_iff.mp hr with ⟨range, hfound, rfl⟩ | ⟨rest, range, hfits, rfl⟩ <;>
    rcases suggestion?_eq_some_iff.mp hr' with
      ⟨range', hfound', rfl⟩ | ⟨rest', range', hfits', rfl⟩
  · exact absurd (candidate_inj h) hne
  · rw [candidate_negatedSuggestion] at h
    obtain rfl := candidate_inj h
    exact ⟨g, ⟨hg, hf, ⟨range, hfound⟩, rest', range', hfits'⟩, rfl⟩
  · have hcandidate := candidate_negatedSuggestion l f range
    rw [candidate_negatedSuggestion] at h
    obtain rfl := candidate_inj h
    exact ⟨f, ⟨hf, hg, ⟨range', hfound'⟩, rest, range, hfits⟩, hcandidate⟩
  · rw [candidate_negatedSuggestion, candidate_negatedSuggestion] at h
    exact absurd (Filter.eq_of_withNegation_true_eq hfits.not_negated hfits'.not_negated
      (candidate_inj h)) hne

/-- **Which candidates come twice**, of those that are kept. -/
theorem nodup_candidates_iff (kept : Suggestion → Bool) (h : store.entries.Nodup) :
    (((store.entries.filterMap (l.suggestion? typed)).filter kept).map (·.candidate)).Nodup ↔
      ∀ f ∈ store.entries, ∀ g ∈ store.entries, f ≠ g →
        ∀ r, l.suggestion? typed f = some r → ∀ r', l.suggestion? typed g = some r' →
          kept r = true → kept r' = true → r.candidate ≠ r'.candidate := by
  rw [List.nodup_iff_pairwise_ne, List.pairwise_map, List.pairwise_filter, List.pairwise_filterMap]
  refine ⟨fun hpairwise => ?_, List.Nodup.pairwise_of_forall_ne h⟩
  have : Std.Symm fun f g => ∀ r, l.suggestion? typed f = some r →
      ∀ r', l.suggestion? typed g = some r' →
        kept r = true → kept r' = true → r.candidate ≠ r'.candidate :=
    ⟨fun f g hne r hr r' hr' hkept hkept' => (hne r' hr' r hr hkept' hkept).symm⟩
  exact fun f hf g hg => hpairwise.forall hf hg

theorem isExcluded_of_candidate_eq (h : r.candidate = l.candidate f) :
    isExcluded excluding r = excluding.contains f :=
  isExcluded_of_filter? (h ▸ l.filter?_candidate f) excluding

/-- **When a list of saved filters offers nothing twice**: exactly if each negation that is found
twice is to be left out. -/
theorem nodup_suggestions_iff (l : SavedList) (store : Store) (t : Draft.Term)
    (excluding : List Filter) (h : store.entries.Nodup) :
    (∀ limit, ((l.suggestions store t excluding limit).map (·.candidate)).Nodup) ↔
      ∀ f, store.FindsTwice t.raw f → f.withNegation true ∈ excluding := by
  have hcut : Source.CutFrom ((Source.saved l store).candidates t) (l.suggestions store t) :=
    Source.cutFrom_saved l store
  rw [hcut.nodup_iff]
  by_cases hempty : t.isEmpty = true
  · -- nothing has been typed, so every filter is offered as it is
    have hcandidates : ((store.entries.map fun f =>
        (⟨l.candidate f, none, .inner⟩ : Suggestion)).map (·.candidate)).Nodup := by
      rw [List.map_map]
      exact List.Nodup.map (fun _ _ => candidate_inj) h
    rw [Source.candidates, if_pos hempty]
    refine ⟨fun _ f hf => ?_, fun _ => hcandidates.sublist (List.filter_sublist.map _)⟩
    obtain ⟨rest, range, hfits⟩ := hf.fits_negated
    have htyped : t.raw.toList = [] := List.isEmpty_iff.mp hempty
    cases htyped.symm.trans hfits.typed_eq
  · rw [Source.candidates, if_neg hempty, nodup_candidates_iff _ h]
    constructor
    · intro hdifferent f hf
      obtain ⟨range, hrange⟩ := hf.negation_found
      obtain ⟨rest, range', hfits⟩ := hf.fits_negated
      have hne : f ≠ f.withNegation true := fun heq => by
        have hnegated := hfits.not_negated
        rw [heq, Filter.isNegated_withNegation] at hnegated
        cases hnegated
      by_contra hkept
      refine hdifferent f hf.saved _ hf.negation_saved hne
        _ (suggestion?_eq_some_iff.mpr (.inr ⟨rest, range', hfits, rfl⟩))
        _ (suggestion?_eq_some_iff.mpr (.inl ⟨range, hrange, rfl⟩)) ?_ ?_
        (candidate_negatedSuggestion ..)
      · rw [isExcluded_of_candidate_eq (candidate_negatedSuggestion ..)]
        simpa using hkept
      · rw [isExcluded_of_candidate_eq rfl]
        simpa using hkept
    · intro htwice f hf g hg hne r hr r' hr' hkept _ hsame
      obtain ⟨f, htwo, hcandidate⟩ := exists_findsTwice_of_candidate_eq hf hg hne hr hr' hsame
      rw [isExcluded_of_candidate_eq hcandidate] at hkept
      simp [htwice f htwo] at hkept

/-- A filter and its negation, of which the negation is to be left out. -/
theorem nodup_suggestions_excluded :
    let f : Filter := .term (.keyed false "is" .including (.text "foil"))
    let store : Store := ⟨none, [f, f.withNegation true]⟩
    let t := Draft.Term.ofText "-is:f"
    store.entries.Nodup ∧ store.FindsTwice t.raw f ∧
      ∀ limit, ((history.suggestions store t [f.withNegation true] limit).map
        (·.candidate)).Nodup := by
  intro f store t
  have hnodup : store.entries.Nodup := by decide
  have hfits : f.FitsNegated t.raw "is:f" ⟨0, 4⟩ :=
    ⟨by decide +kernel, rfl, by decide +kernel, by decide, by decide +kernel⟩
  refine ⟨hnodup, ⟨by decide, by decide, ⟨⟨0, 5⟩, by decide +kernel⟩, _, _, hfits⟩, ?_⟩
  refine (nodup_suggestions_iff history store t _ hnodup).mpr fun g hg => ?_
  obtain ⟨_, _, hfits⟩ := hg.fits_negated
  rcases List.mem_pair.mp hg.saved with rfl | rfl
  · exact List.mem_singleton_self _
  · cases hfits.not_negated

/-- **A filter is offered twice**, and another one that fits as well is not offered at all. -/
theorem suggestions_not_nodup :
    let f : Filter := .term (.keyed false "is" .including (.text "foil"))
    let g : Filter := .term (.keyed false "is" .including (.text "full"))
    let store : Store := ⟨none, [f, f.withNegation true, g]⟩
    let t := Draft.Term.ofText "-is:f"
    store.entries.Nodup ∧
      history.suggestions store t [] 2 =
        [⟨.history (f.withNegation true), some ⟨0, 5⟩, .actual⟩,
          ⟨.history (f.withNegation true), some ⟨0, 5⟩, .effective⟩] ∧
      history.suggestion? t.raw g =
        some ⟨.history (g.withNegation true), some ⟨0, 5⟩, .effective⟩ ∧
      ¬∀ (l : SavedList) (store : Store) (t : Draft.Term) (excluding : List Filter) (limit : Nat),
        store.entries.Nodup →
          ((l.suggestions store t excluding limit).map (·.candidate)).Nodup := by
  intro f g store t
  have hnodup : store.entries.Nodup := by decide
  have hanswer : history.suggestions store t [] 2 =
      [⟨.history (f.withNegation true), some ⟨0, 5⟩, .actual⟩,
        ⟨.history (f.withNegation true), some ⟨0, 5⟩, .effective⟩] := by
    rw [suggestions, if_neg (by decide +kernel), rankBy_eq_foldr]
    decide +kernel
  refine ⟨hnodup, hanswer, by decide +kernel, fun h => ?_⟩
  have hrepeat := h history store t [] 2 hnodup
  rw [hanswer] at hrepeat
  exact absurd hrepeat (by decide)

end SavedList

end CardFilter
