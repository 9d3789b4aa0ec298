import CardFilter.Comparison
import CardFilter.Text.LowerCase

/-!
# Vocabularies of keys

A key names a property of a card. A vocabulary lists the keys that are recognised, each with its
other spellings, the comparisons it accepts and, where they are few, its values.

Keys are looked up in an index, which says of every spelling at which position its key stands. The
index is filled key by key, and it is on this way that a spelling that comes twice is found:
`CardFilter.Vocabulary.ofKeys` reports the first one. A vocabulary carries the fact that there is
none, and that its index leads every spelling to the key that has it (`CardFilter.IsIndex`).
-/

namespace CardFilter

/-- Which comparisons a key accepts. -/
inductive OperatorClass
  /-- Only `:` and `=`. -/
  | equalityOnly
  /-- All seven. -/
  | allComparisons
  deriving DecidableEq, Repr, Inhabited

namespace OperatorClass

/-- The comparison is accepted. -/
def accepts : OperatorClass → Comparison → Bool
  | equalityOnly, c => c.isEquality
  | allComparisons, _ => true

/-- The accepted comparisons, in listing order. -/
def comparisons (k : OperatorClass) : List Comparison :=
  Comparison.all.filter k.accepts

end OperatorClass

/-- A key of the vocabulary. -/
structure Key where
  /-- The main spelling. -/
  name : String
  /-- The other spellings. -/
  aliases : List String
  /-- The values the property can have, where they are few. -/
  values : Option (List String)
  /-- The comparisons the key accepts. -/
  operators : OperatorClass
  deriving DecidableEq, Repr, Inhabited

/-- The name of the key, then its other spellings. -/
def Key.spellings (k : Key) : List String :=
  k.name :: k.aliases

/-- Why a list of keys is no vocabulary. -/
inductive VocabularyFault
  /-- The key lists its own name among its other spellings. -/
  | ownAlias (name : String)
  /-- The spelling comes twice. -/
  | repeatedSpelling (spelling : String)
  deriving DecidableEq, Repr

/-- The fault in words. -/
def VocabularyFault.message : VocabularyFault → String
  | ownAlias name => "filter key '" ++ name ++ "' lists itself as an alias"
  | repeatedSpelling spelling =>
    "filter key spelling '" ++ spelling ++ "' is defined more than once"

/-! ### The index -/

/-- The spellings of the keys of a list, each with the position of its key. -/
abbrev SpellingIndex : Type := List (String × Nat)

/-- The index with an entry for each of the given spellings. -/
def SpellingIndex.enter (index : SpellingIndex) (position : Nat) (spellings : List String) :
    SpellingIndex :=
  (spellings.map fun s => (s, position)).reverse ++ index

/-- The spellings of the key at `position` are entered into the index, one after the other. None of
them must have an entry already. -/
def indexSpellings (position : Nat) (index : SpellingIndex) :
    List String → Except VocabularyFault SpellingIndex
  | [] => .ok index
  | s :: rest =>
    if (index.lookup s).isSome then .error (.repeatedSpelling s)
    else indexSpellings position ((s, position) :: index) rest

/-- **The keys are entered into the index**, the first of them at `position`. -/
def indexKeys (position : Nat) (index : SpellingIndex) :
    List Key → Except VocabularyFault SpellingIndex
  | [] => .ok index
  | k :: rest =>
    if k.name ∈ k.aliases then .error (.ownAlias k.name)
    else match indexSpellings position index k.spellings with
      | .error fault => .error fault
      | .ok index => indexKeys (position + 1) index rest

/-- **The index of a list of keys**: each spelling leads to the one key that has it. -/
structure IsIndex (keys : List Key) (index : SpellingIndex) : Prop where
  /-- No spelling comes twice. -/
  nodup_spellings : (keys.flatMap Key.spellings).Nodup
  /-- A spelling is entered with the position of the key that has it. -/
  lookup_iff : ∀ s i, index.lookup s = some i ↔ ∃ k, keys[i]? = some k ∧ s ∈ k.spellings

namespace SpellingIndex

theorem enter_cons (index : SpellingIndex) (position : Nat) (s : String) (rest : List String) :
    index.enter position (s :: rest) = enter ((s, position) :: index) position rest := by
  simp [enter]

/-- What is found after a spelling was entered. -/
theorem lookup_entry (index : SpellingIndex) (position : Nat) (s t : String) :
    List.lookup t ((s, position) :: index) = if t = s then some position else index.lookup t := by
  rw [List.lookup_cons]
  by_cases h : t = s
  · rw [if_pos h, beq_iff_eq.mpr h]
  · rw [if_neg h, beq_false_of_ne h]

/-- What is found after some spellings were entered. -/
theorem lookup_enter (index : SpellingIndex) (position : Nat) (spellings : List String)
    (s : String) : (index.enter position spellings).lookup s
      = if s ∈ spellings then some position else index.lookup s := by
  induction spellings generalizing index with
  | nil => rfl
  | cons t rest ih =>
    rw [enter_cons, ih, lookup_entry]
    by_cases hrest : s ∈ rest
    · rw [if_pos hrest, if_pos (List.mem_cons_of_mem t hrest)]
    · rw [if_neg hrest]
      simp only [List.mem_cons, hrest, or_false]

end SpellingIndex

/-- Spellings that are entered are pairwise different and new. -/
theorem indexSpellings_eq_ok {position : Nat} {index index' : SpellingIndex}
    {spellings : List String} (h : indexSpellings position index spellings = .ok index') :
    index' = index.enter position spellings ∧ spellings.Nodup ∧
      ∀ s ∈ spellings, index.lookup s = none := by
  induction spellings generalizing index with
  | nil => exact ⟨(Except.ok.inj h).symm, List.nodup_nil, fun _ h => absurd h List.not_mem_nil⟩
  | cons s rest ih =>
    rw [indexSpellings] at h
    split at h
    · cases h
    · rename_i hs
      obtain ⟨rfl, hnodup, hnew⟩ := ih h
      have hne : ∀ t ∈ rest, t ≠ s ∧ index.lookup t = none := by
        intro t ht
        have hnone := hnew t ht
        rw [SpellingIndex.lookup_entry] at hnone
        split at hnone
        · cases hnone
        · rename_i hts
          exact ⟨hts, hnone⟩
      refine ⟨(index.enter_cons position s rest).symm, List.nodup_cons.mpr ⟨?_, hnodup⟩, ?_⟩
      · exact fun hmem => (hne s hmem).1 rfl
      · intro t ht
        rcases List.mem_cons.mp ht with rfl | ht
        · exact Option.not_isSome_iff_eq_none.mp hs
        · exact (hne t ht).2

/-- What stands at a position, where there is one entry more at the end. -/
theorem getElem?_concat_eq_some_iff {xs : List α} {a b : α} {i : Nat} :
    (xs ++ [a])[i]? = some b ↔ xs[i]? = some b ∨ (i = xs.length ∧ b = a) := by
  rcases Nat.lt_trichotomy i xs.length with hi | rfl | hi
  · rw [List.getElem?_append_left hi]
    exact ⟨.inl, fun h => h.resolve_right fun hlast => Nat.ne_of_lt hi hlast.1⟩
  · rw [List.getElem?_concat_length, List.getElem?_eq_none (Nat.le_refl _)]
    simp [eq_comm]
  · rw [List.getElem?_eq_none (Nat.le_of_lt hi), List.getElem?_eq_none (by
      rw [List.length_append, List.length_singleton]; exact hi)]
    simp [Nat.ne_of_gt hi]

namespace IsIndex

variable {keys : List Key} {index : SpellingIndex}

theorem nil : IsIndex [] [] :=
  ⟨List.nodup_nil, fun s i => by simp⟩

/-- What has no entry is no spelling. -/
theorem lookup_eq_none_iff (h : IsIndex keys index) {s : String} :
    index.lookup s = none ↔ s ∉ keys.flatMap Key.spellings := by
  constructor
  · intro hnone hs
    obtain ⟨k, hk, hs⟩ := List.mem_flatMap.mp hs
    obtain ⟨i, hi⟩ := List.getElem?_of_mem hk
    cases hnone.symm.trans ((h.lookup_iff s i).mpr ⟨k, hi, hs⟩)
  · intro hnot
    cases hlookup : index.lookup s with
    | none => rfl
    | some i =>
      obtain ⟨k, hk, hs⟩ := (h.lookup_iff s i).mp hlookup
      exact absurd (List.mem_flatMap.mpr ⟨k, List.mem_of_getElem? hk, hs⟩) hnot

/-- Spellings that do not collide with those of the keys have no entry. -/
theorem lookup_eq_none_of_nodup (h : IsIndex keys index) {spellings : List String}
    (hnodup : (keys.flatMap Key.spellings ++ spellings).Nodup) :
    spellings.Nodup ∧ ∀ s ∈ spellings, index.lookup s = none := by
  obtain ⟨-, hspellings, hdisjoint⟩ := List.nodup_append.mp hnodup
  exact ⟨hspellings, fun s hs => h.lookup_eq_none_iff.mpr fun hkeys => hdisjoint s hkeys s hs rfl⟩

/-- **One key more**: the index stays one when new spellings are entered at the end of the list. -/
theorem concat (h : IsIndex keys index) {k : Key} (hnodup : k.spellings.Nodup)
    (hnew : ∀ s ∈ k.spellings, index.lookup s = none) :
    IsIndex (keys ++ [k]) (index.enter keys.length k.spellings) where
  nodup_spellings := by
    rw [List.flatMap_append, List.flatMap_singleton]
    refine List.nodup_append.mpr ⟨h.nodup_spellings, hnodup, ?_⟩
    rintro s hs t ht rfl
    exact h.lookup_eq_none_iff.mp (hnew s ht) hs
  lookup_iff s i := by
    rw [SpellingIndex.lookup_enter]
    simp only [getElem?_concat_eq_some_iff, or_and_right, exists_or, ← h.lookup_iff]
    by_cases hs : s ∈ k.spellings
    · rw [if_pos hs, hnew s hs, Option.some_inj]
      constructor
      · rintro rfl
        exact .inr ⟨k, ⟨rfl, rfl⟩, hs⟩
      · rintro (h | ⟨k', ⟨rfl, -⟩, -⟩)
        · cases h
        · rfl
    · rw [if_neg hs]
      refine ⟨.inl, ?_⟩
      rintro (h | ⟨k', ⟨-, rfl⟩, hs'⟩)
      · exact h
      · exact absurd hs' hs

/-- **All keys**: what the loop over the keys gives is an index of all that it went through. -/
theorem append (h : IsIndex keys index) {rest : List Key} {index' : SpellingIndex}
    (hrest : indexKeys keys.length index rest = .ok index') : IsIndex (keys ++ rest) index' := by
  induction rest generalizing keys index with
  | nil => rwa [List.append_nil, ← Except.ok.inj hrest]
  | cons k rest ih =>
    rw [indexKeys] at hrest
    split at hrest
    · cases hrest
    · split at hrest
      · cases hrest
      · rename_i hspellings
        obtain ⟨rfl, hnodup, hnew⟩ := indexSpellings_eq_ok hspellings
        rw [List.append_cons]
        exact ih (h.concat hnodup hnew) (by rwa [List.length_append, List.length_singleton])

end IsIndex

/-! ### Vocabularies -/

/-- **A vocabulary**: keys no two of which share a spelling, with an index of their spellings. -/
structure Vocabulary where
  /-- The keys, in the order in which they are listed. -/
  keys : List Key
  /-- The positions of the keys, by spelling. -/
  index : SpellingIndex
  /-- Every spelling leads to its key. -/
  isIndex : IsIndex keys index

namespace Vocabulary

/-- The vocabulary of a list of keys, or the first collision in it. -/
def ofKeys (keys : List Key) : Except VocabularyFault Vocabulary :=
  match h : indexKeys 0 [] keys with
  | .error fault => .error fault
  | .ok index => .ok ⟨keys, index, IsIndex.nil.append h⟩

/-- The key with this very spelling. -/
def lookup? (v : Vocabulary) (spelling : String) : Option Key :=
  (v.index.lookup spelling).bind fun i => v.keys[i]?

/-- The key whose spelling is the lower-case form of the given text. -/
def lookupIgnoringCase? (v : Vocabulary) (spelling : String) : Option Key :=
  v.lookup? (lowercase spelling)

end Vocabulary

end CardFilter
