import CardFilter.Proofs.Deliveries
import CardFilter.Store
import Mathlib.Data.List.Infix
import Mathlib.Data.List.Nodup

/-!
# What a store remembers

A store is a list of what was used last: what is recorded comes first, and where there is a bound,
what was used longest ago falls off. This file says what that makes of a store after any changes
(`CardFilter.Store.remembers_of_run`), and compares it with the store that would have been without
a bound.

The two are compared along the run. The bounded store never holds anything that the unbounded one
has lost, nor in another order (`CardFilter.Store.Within`). The converse is lost with the first
removal: what had fallen off does not come back when there is room again. Until then the bounded
store shows the **front** of the other, and that is so because a record that finds its filter
behind the bound moves the bound by the one entry that it takes from there
(`CardFilter.take_cons_erase`).
-/

namespace CardFilter

/-- To take an entry from behind the bound and put it in front is, within the bound, to put it in
front. -/
theorem take_cons_erase {α : Type} [DecidableEq α] (n : Nat) (as : List α) (a : α) :
    (a :: (as.take n).erase a).take n = (a :: as.erase a).take n := by
  cases n with
  | zero => rfl
  | succ n =>
    rw [List.take_succ_cons, List.take_succ_cons]
    congr 1
    induction as generalizing n with
    | nil => rfl
    | cons b as ih =>
      by_cases hb : b = a
      · subst hb
        rw [List.take_succ_cons, List.erase_cons_head, List.erase_cons_head, List.take_take,
          Nat.min_self]
      · cases n with
        | zero => rfl
        | succ n =>
          rw [List.take_succ_cons, List.erase_cons_tail (by simpa using hb),
            List.erase_cons_tail (by simpa using hb), List.take_succ_cons, List.take_succ_cons, ih]

namespace Store

variable {s u : Store} {f : Filter} {w : Write} {writes : List Write} {capacity : Option Nat}
  {initial entries : List Filter}

/-! ### One change -/

theorem bounded_isPrefix (capacity : Option Nat) (entries : List Filter) :
    bounded capacity entries <+: entries := by
  cases capacity with
  | none => exact List.prefix_refl _
  | some n => exact List.take_prefix n entries

/-- **A store in order**: no entry is there twice, and there are no more than the bound allows. -/
structure Sound (s : Store) : Prop where
  /-- No entry is there twice. -/
  nodup : s.entries.Nodup
  /-- No entry is beyond the bound. -/
  length_le : ∀ n, s.capacity = some n → s.entries.length ≤ n

theorem sound_bounded (h : entries.Nodup) : Sound ⟨capacity, bounded capacity entries⟩ where
  nodup := h.sublist (bounded_isPrefix capacity entries).sublist
  length_le := by
    rintro n rfl
    exact List.length_take_le n entries

theorem nodup_distinct (entries : List Filter) : (distinct entries).Nodup :=
  (pairwise_distinctBy id entries).imp fun h => h.symm

theorem sound_ofList (capacity : Option Nat) (entries : List Filter) :
    (ofList capacity entries).Sound :=
  sound_bounded (nodup_distinct entries)

theorem Sound.filter_ne (h : s.Sound) (f : Filter) :
    s.entries.filter (· ≠ f) = s.entries.erase f := by
  rw [h.nodup.erase_eq_filter]
  exact List.filter_congr fun g _ => by by_cases hg : g = f <;> simp [hg]

theorem Sound.entries_record (h : s.Sound) (f : Filter) :
    (s.record f).entries = bounded s.capacity (f :: s.entries.erase f) := by
  rw [← h.filter_ne]
  rfl

theorem Sound.entries_remove (h : s.Sound) (f : Filter) :
    (s.remove f).entries = s.entries.erase f :=
  h.filter_ne f

theorem Sound.step (h : s.Sound) (w : Write) : (s.step w).2.Sound := by
  cases w with
  | recorded f =>
    refine sound_bounded (List.nodup_cons.mpr ⟨fun hf => ?_, h.nodup.filter _⟩)
    exact absurd rfl (of_decide_eq_true (List.mem_filter.mp hf).2)
  | removed f =>
    exact ⟨h.nodup.filter _, fun n hn => (List.length_filter_le _ _).trans (h.length_le n hn)⟩

theorem capacity_step (s : Store) (w : Write) : (s.step w).2.capacity = s.capacity := by
  cases w <;> rfl

/-- **What is recorded comes first**, unless there is no room at all. What stood there follows, and
if anything falls off then it is from the end, and the store is full. -/
theorem Sound.exists_entries_recorded (h : s.Sound) (hroom : s.capacity ≠ some 0) (f : Filter) :
    ∃ kept, (s.step (.recorded f)).2.entries = f :: kept ∧ kept <+: s.entries.erase f ∧
      (kept ≠ s.entries.erase f → s.capacity = some (kept.length + 1)) := by
  change ∃ kept, (s.record f).entries = f :: kept ∧ _
  rw [h.entries_record]
  cases hcapacity : s.capacity with
  | none => exact ⟨_, rfl, List.prefix_refl _, fun hne => absurd rfl hne⟩
  | some n =>
    cases n with
    | zero => exact absurd hcapacity hroom
    | succ n =>
      refine ⟨(s.entries.erase f).take n, rfl, List.take_prefix _ _, fun hne => ?_⟩
      have hlt : n < (s.entries.erase f).length := by
        by_contra hle
        exact hne (List.take_of_length_le (Nat.le_of_not_lt hle))
      rw [List.length_take_of_le hlt.le]

/-- **A removal tells whether the filter was there**, and takes out nothing else. -/
theorem Sound.removed_iff (h : s.Sound) (f : Filter) :
    ((s.step (.removed f)).1 = some true ↔ f ∈ s.entries) ∧
      (s.step (.removed f)).2.entries = s.entries.erase f := by
  refine ⟨?_, h.entries_remove f⟩
  change some ((s.remove f).entries.length != s.entries.length) = some true ↔ _
  rw [h.entries_remove]
  by_cases hf : f ∈ s.entries
  · have hpos := List.length_pos_of_mem hf
    have hlength := List.length_erase_of_mem hf
    simp only [hf, Option.some.injEq, bne_iff_ne, iff_true]
    omega
  · simp [List.erase_of_not_mem hf, hf]

/-! ### With a bound and without -/

/-- **One store shows a part of another**, in the same order, and the other has no bound. -/
structure Within (s u : Store) : Prop where
  /-- The store is in order. -/
  sound : s.Sound
  /-- So is the other. -/
  sound_other : u.Sound
  /-- The other has no bound. -/
  unbounded : u.capacity = none
  /-- The entries are some of the other ones. -/
  sublist : s.entries.Sublist u.entries

theorem within_ofList (capacity : Option Nat) (initial : List Filter) :
    (ofList capacity initial).Within (ofList none initial) where
  sound := sound_ofList capacity initial
  sound_other := sound_ofList none initial
  unbounded := rfl
  sublist := (bounded_isPrefix capacity (distinct initial)).sublist

theorem Within.step (h : s.Within u) (w : Write) : (s.step w).2.Within (u.step w).2 where
  sound := h.sound.step w
  sound_other := h.sound_other.step w
  unbounded := (capacity_step u w).trans h.unbounded
  sublist := by
    cases w with
    | recorded f =>
      change (s.record f).entries.Sublist (u.record f).entries
      rw [h.sound.entries_record, h.sound_other.entries_record, h.unbounded]
      exact (bounded_isPrefix _ _).sublist.trans ((h.sublist.erase f).cons_cons f)
    | removed f => exact h.sublist.filter _

theorem Within.run (h : s.Within u) (writes : List Write) :
    (s.run writes).Within (u.run writes) := by
  induction writes generalizing s u with
  | nil => exact h
  | cons w writes ih => exact ih (h.step w)

theorem capacity_run (s : Store) (writes : List Write) : (s.run writes).capacity = s.capacity := by
  induction writes generalizing s with
  | nil => rfl
  | cons w writes ih => exact (ih _).trans (capacity_step s w)

/-- **A record keeps the front in front**: with the bound the same entries are shown as if they were
cut from the list without it. -/
theorem Within.entries_recorded (h : s.Within u)
    (hfront : s.entries = bounded s.capacity u.entries) (f : Filter) :
    (s.step (.recorded f)).2.entries = bounded s.capacity (u.step (.recorded f)).2.entries := by
  change (s.record f).entries = bounded s.capacity (u.record f).entries
  rw [h.sound.entries_record, h.sound_other.entries_record, h.unbounded, hfront]
  cases s.capacity with
  | none => rfl
  | some n => exact take_cons_erase n u.entries f

theorem Within.entries_run (h : s.Within u) (hfront : s.entries = bounded s.capacity u.entries)
    (hwrites : ∀ w ∈ writes, ∃ f, w = .recorded f) :
    (s.run writes).entries = bounded s.capacity (u.run writes).entries := by
  induction writes generalizing s u with
  | nil => exact hfront
  | cons w writes ih =>
    obtain ⟨f, rfl⟩ := hwrites w List.mem_cons_self
    have hstep := ih (h.step (.recorded f))
      ((h.entries_recorded hfront f).trans (congrArg (bounded · _) (capacity_step s _).symm))
      fun w hw => hwrites w (List.mem_cons_of_mem _ hw)
    rwa [capacity_step] at hstep

/-! ### Any changes -/

/-- **What a store remembers** of a list and the changes made to it since, where `s` is the store
with the bound and `u` the one without. -/
structure Remembers (capacity : Option Nat) (writes : List Write) (s u : Store) : Prop where
  /-- No entry is there twice. -/
  nodup : s.entries.Nodup
  /-- There are no more entries than the bound allows. -/
  length_le : ∀ n, capacity = some n → s.entries.length ≤ n
  /-- What is recorded next comes first, unless there is no room at all. What stood there follows
  in its order, and only from the end of a full store an entry falls off. -/
  recorded : capacity ≠ some 0 → ∀ f, ∃ kept, (s.step (.recorded f)).2.entries = f :: kept ∧
    kept <+: s.entries.erase f ∧
    (kept ≠ s.entries.erase f → capacity = some (kept.length + 1))
  /-- A removal tells whether the filter was there, and takes out nothing else. -/
  removed : ∀ f, ((s.step (.removed f)).1 = some true ↔ f ∈ s.entries) ∧
    (s.step (.removed f)).2.entries = s.entries.erase f
  /-- Every entry would be there without the bound, and in the same order. -/
  sublist : s.entries.Sublist u.entries
  /-- Without removals, the entries are the first ones of those. -/
  front : (∀ w ∈ writes, ∃ f, w = .recorded f) → ∀ n, capacity = some n →
    s.entries = u.entries.take n

/-- **A store is a list of what was used last**, whatever it began with and whatever was done to it
since. -/
theorem remembers_of_run (capacity : Option Nat) (initial : List Filter) (writes : List Write) :
    Remembers capacity writes ((ofList capacity initial).run writes)
      ((ofList none initial).run writes) := by
  have hwithin := (within_ofList capacity initial).run writes
  have hcapacity : ((ofList capacity initial).run writes).capacity = capacity :=
    capacity_run _ writes
  refine ⟨hwithin.sound.nodup, fun n hn => ?_, fun hroom f => ?_, hwithin.sound.removed_iff,
    hwithin.sublist, fun hwrites n hn => ?_⟩
  · exact hwithin.sound.length_le n (hcapacity.trans hn)
  · have hrecorded := hwithin.sound.exists_entries_recorded (hcapacity.symm ▸ hroom) f
    rwa [hcapacity] at hrecorded
  · subst hn
    exact (within_ofList (some n) initial).entries_run rfl hwrites

/-- A full store of two, and a filter that has fallen off: it does not come back when there is room
again, though without a bound it would be there. -/
example :
    let a := Filter.nameSearch "a"
    let b := Filter.nameSearch "b"
    let c := Filter.nameSearch "c"
    ((ofList (some 2) [a, b]).run [.recorded c, .removed a]).entries = [c] ∧
      ((ofList none [a, b]).run [.recorded c, .removed a]).entries = [c, b] := by
  decide

end Store

end CardFilter
