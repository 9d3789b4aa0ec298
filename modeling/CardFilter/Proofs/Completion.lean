import CardFilter.Proofs.Sources
import CardFilter.Proofs.Windows

/-!
# How a catalog completes a name

A catalog is asked with a fragment and gives twenty names at most. The names that begin with the
fragment (`CardFilter.Catalog.Begins`) come first, then the others that hold it
(`CardFilter.Catalog.Holds`), and within each of the two the names stand as they do in the catalog,
a name that is listed twice among them twice.

The catalog ranks what it finds by one question, whether the match stands at the start of the name.
Three facts make the answer out of that.

* The search finds the **first** match (`CardFilter.findIgnoringCase_eq_some_iff`), so it stands at
  the start exactly if the name begins with the fragment; a later match in such a name does not
  count.
* Ranking by a question with two answers **keeps the order** among those that give the same answer
  (`CardFilter.rankBy_eq_append`).
* The list is cut off **after** it has been ranked. So a name from the second part is given only
  where the first part is there as a whole (`CardFilter.prefix_take_append`).

The main statement is `CardFilter.Catalog.complete_eq_take`.
-/

namespace CardFilter

/-! ### Ranking by one question -/

section Ranking

variable {α : Type} {key : α → List Nat} {p : α → Bool}

/-- **Ranking by a question with two answers**: those that pass come first, and both parts keep
their order. -/
theorem rankBy_eq_append (hkey : ∀ a, key a = [if p a then 0 else 1]) (as : List α) :
    rankBy key as = as.filter p ++ as.filter fun a => !p a := by
  have hle : ∀ a b, lexLe (key a) (key b) = (p a || !p b) := by
    intro a b
    rw [hkey, hkey]
    cases p a <;> cases p b <;> rfl
  induction as with
  | nil => exact List.mergeSort_nil
  | cons a as ih =>
    have hranked := (rankBy_cons key a as).1
    simp only [hle, ih, List.filter_append, List.filter_filter] at hranked
    rw [hranked]
    cases ha : p a <;> simp [ha]

/-- **A list that is cut off** keeps its first part whole, where it keeps something that is not in
the first part. -/
theorem prefix_take_append {front back : List α} {a : α} {limit : Nat}
    (h : a ∈ (front ++ back).take limit) (ha : a ∉ front) :
    front <+: (front ++ back).take limit := by
  rw [List.take_append] at h ⊢
  have hback : a ∈ back.take (limit - front.length) :=
    (List.mem_append.mp h).resolve_left fun hfront => ha (List.mem_of_mem_take hfront)
  have hlimit : limit - front.length ≠ 0 := by
    intro hzero
    rw [hzero, List.take_zero] at hback
    exact List.not_mem_nil hback
  rw [List.take_of_length_le (by omega)]
  exact List.prefix_append _ _

end Ranking

/-! ### Fragments of names -/

namespace Catalog

/-- The name begins with the fragment, case set aside. -/
def Begins (fragment name : String) : Prop :=
  MatchesAt name.toList fragment.toList 0

/-- The name holds the fragment somewhere, case set aside. -/
def Holds (fragment name : String) : Prop :=
  ∃ start, MatchesAt name.toList fragment.toList start

instance (fragment name : String) : Decidable (Begins fragment name) :=
  inferInstanceAs (Decidable (MatchesAt _ _ _))

instance (fragment name : String) : Decidable (Holds fragment name) :=
  decidable_of_iff (∃ start < name.toList.length + 1, MatchesAt name.toList fragment.toList start)
    ⟨fun ⟨start, _, h⟩ => ⟨start, h⟩, fun ⟨start, h⟩ => ⟨start, by have := h.inside; omega, h⟩⟩

variable {fragment name : String} {r : CharRange}

theorem Begins.holds (h : Begins fragment name) : Holds fragment name :=
  ⟨0, h⟩

/-- **The match that is found stands at the start** exactly if the name begins with the
fragment. -/
theorem start_eq_zero_iff (h : findIgnoringCase name fragment = some r) :
    r.start = 0 ↔ Begins fragment name := by
  obtain ⟨hmatches, hfirst, -⟩ := findIgnoringCase_eq_some_iff.mp h
  constructor
  · intro hzero
    rwa [hzero] at hmatches
  · intro hbegins
    exact Nat.eq_zero_of_not_pos fun hpos => hfirst 0 hpos hbegins

/-- The names that hold the fragment, each with the place of its first match. -/
def found (fragment : String) (names : List String) : List (String × Nat) :=
  names.filterMap fun name => (findIgnoringCase name fragment).map fun r => (name, r.start)

/-- **The names that are found and pass a test** on the name and the place of the match. -/
theorem map_fst_filter_found (test : String × Nat → Bool) {p : String → Bool}
    (hp : ∀ name, p name = true ↔
      ∃ r, findIgnoringCase name fragment = some r ∧ test (name, r.start) = true)
    (names : List String) :
    ((found fragment names).filter test).map (·.1) = names.filter p := by
  induction names with
  | nil => rfl
  | cons name names ih =>
    cases hfound : findIgnoringCase name fragment with
    | none =>
      have hnot : ¬p name = true := by simp [hp, hfound]
      rw [found, List.filterMap_cons_none (by rw [hfound]; rfl), List.filter_cons_of_neg hnot]
      exact ih
    | some r =>
      have hpass : p name = true ↔ test (name, r.start) = true := by simp [hp, hfound]
      have hcons : found fragment (name :: names) = (name, r.start) :: found fragment names :=
        List.filterMap_cons_some (by rw [hfound]; rfl)
      rw [hcons]
      by_cases htest : test (name, r.start) = true
      · rw [List.filter_cons_of_pos htest, List.filter_cons_of_pos (hpass.mpr htest),
          List.map_cons, ih]
      · rw [List.filter_cons_of_neg htest, List.filter_cons_of_neg (mt hpass.mp htest), ih]

theorem begins_iff : Begins fragment name ↔
    ∃ r, findIgnoringCase name fragment = some r ∧ r.start = 0 := by
  constructor
  · intro hbegins
    obtain ⟨r, hr⟩ := exists_findIgnoringCase_iff.mpr hbegins.holds
    exact ⟨r, hr, (start_eq_zero_iff hr).mpr hbegins⟩
  · rintro ⟨r, hr, hstart⟩
    exact (start_eq_zero_iff hr).mp hstart

theorem holds_and_not_begins_iff : Holds fragment name ∧ ¬Begins fragment name ↔
    ∃ r, findIgnoringCase name fragment = some r ∧ r.start ≠ 0 := by
  constructor
  · rintro ⟨hholds, hnot⟩
    obtain ⟨r, hr⟩ := exists_findIgnoringCase_iff.mpr hholds
    exact ⟨r, hr, mt (start_eq_zero_iff hr).mp hnot⟩
  · rintro ⟨r, hr, hstart⟩
    exact ⟨exists_findIgnoringCase_iff.mp ⟨r, hr⟩, mt (start_eq_zero_iff hr).mpr hstart⟩

/-- **The names for a fragment**: those that begin with it, then the others that hold it, up to the
limit. -/
theorem complete_eq (c : Catalog) (fragment : String) :
    c.complete fragment = (c.names.filter (fun name => Begins fragment name) ++
      c.names.filter fun name => Holds fragment name ∧ ¬Begins fragment name).take maxResults := by
  have hranked : rankBy (fun a => [if a.2 = 0 then 0 else 1])
      (found fragment c.names) = (found fragment c.names).filter (fun a => a.2 = 0) ++
        (found fragment c.names).filter fun a => !decide (a.2 = 0) :=
    rankBy_eq_append (fun _ => by simp only [decide_eq_true_eq]) _
  have hfront : ((found fragment c.names).filter fun a => a.2 = 0).map (·.1) =
      c.names.filter fun name => Begins fragment name :=
    map_fst_filter_found _ (fun name => by simp only [decide_eq_true_eq, begins_iff]) c.names
  have hback : ((found fragment c.names).filter fun a => !decide (a.2 = 0)).map (·.1) =
      c.names.filter fun name => Holds fragment name ∧ ¬Begins fragment name :=
    map_fst_filter_found _ (fun name => by
      simp only [decide_eq_true_eq, holds_and_not_begins_iff, Bool.not_eq_true',
        decide_eq_false_iff_not, ne_eq]) c.names
  have hcomplete : c.complete fragment = ((rankBy (fun a => [if a.2 = 0 then 0 else 1])
      (found fragment c.names)).take maxResults).map (·.1) := rfl
  rw [hcomplete, hranked, List.map_take, List.map_append, hfront, hback]

/-- **A catalog gives the first twenty names** of this list: the names that begin with the fragment,
and then the others that hold it, each part in catalog order. So no name is given that does not hold
the fragment, and one that does not begin with it only where all that begin with it are given. -/
theorem complete_eq_take (c : Catalog) (fragment : String) :
    c.complete fragment = (c.names.filter (fun name => Begins fragment name) ++
      c.names.filter fun name => Holds fragment name ∧ ¬Begins fragment name).take 20 ∧
    (∀ name ∈ c.complete fragment, Holds fragment name) ∧
    ∀ name ∈ c.complete fragment, ¬Begins fragment name →
      c.names.filter (fun name => Begins fragment name) <+: c.complete fragment := by
  refine ⟨complete_eq c fragment, fun name hname => ?_, fun name hname hnot => ?_⟩
  · rw [complete_eq] at hname
    rcases List.mem_append.mp (List.mem_of_mem_take hname) with hfront | hback
    · exact (of_decide_eq_true (List.mem_filter.mp hfront).2).holds
    · exact (of_decide_eq_true (List.mem_filter.mp hback).2).1
  · rw [complete_eq] at hname ⊢
    refine prefix_take_append hname fun hfront => hnot ?_
    exact of_decide_eq_true (List.mem_filter.mp hfront).2

/-- A name that is listed twice and begins with the fragment, behind one that only holds it. -/
theorem complete_eq_take_lightning :
    let c : Catalog := ⟨["Chain Lightning", "Lightning Bolt", "Shock", "Lightning Bolt"]⟩
    c.complete "LIGHT" = ["Lightning Bolt", "Lightning Bolt", "Chain Lightning"] ∧
      "Chain Lightning" ∈ c.complete "LIGHT" ∧ Holds "LIGHT" "Chain Lightning" ∧
      ¬Begins "LIGHT" "Chain Lightning" ∧
      c.names.filter (fun name => Begins "LIGHT" name) <+: c.complete "LIGHT" := by
  intro c
  obtain ⟨hcomplete, hholds, hwhole⟩ := complete_eq_take c "LIGHT"
  have hlist : c.complete "LIGHT" = ["Lightning Bolt", "Lightning Bolt", "Chain Lightning"] :=
    hcomplete.trans (by decide +kernel)
  have hmem : "Chain Lightning" ∈ c.complete "LIGHT" := by simp [hlist]
  have hnot : ¬Begins "LIGHT" "Chain Lightning" := by decide +kernel
  exact ⟨hlist, hmem, hholds _ hmem, hnot, hwhole _ hmem hnot⟩

end Catalog

end CardFilter
