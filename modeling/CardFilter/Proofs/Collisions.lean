import CardFilter.Proofs.Keys
import Mathlib.Data.List.Nodup

/-!
# Which lists of keys are vocabularies

A vocabulary is built from a list of keys. One spelling after the other is entered into an index
with the position of its key, and the building ends with a fault as soon as a spelling comes that
has an entry. A key that lists its own name as an alias is refused before its spellings are entered,
though these would collide as well.

What carries the two loops is that the entries made so far are an index of the keys that came before
(`CardFilter.IsIndex`). Up to a collision one loop enters a front of spellings
(`CardFilter.indexSpellings_append`) and the other a front of keys
(`CardFilter.exists_indexKeys_append`); where there is a collision there is a first one, and this is
the one that is reported (`CardFilter.indexKeys_eq_error_iff`).

The main statement is `CardFilter.Vocabulary.ofKeys_refuses_collisions`.
-/

namespace CardFilter

variable {seen earlier : List String} {before keys : List Key} {k : Key} {fault : VocabularyFault}

/-! ### Where the first collision is -/

/-- A list with repeats has a first entry that came before. -/
theorem exists_first_repeat {spellings : List String} (hseen : seen.Nodup)
    (h : ¬(seen ++ spellings).Nodup) : ∃ earlier s later, spellings = earlier ++ s :: later ∧
      (seen ++ earlier).Nodup ∧ s ∈ seen ++ earlier := by
  induction spellings generalizing seen with
  | nil => exact absurd (by rwa [List.append_nil]) h
  | cons t spellings ih =>
    by_cases ht : t ∈ seen
    · exact ⟨[], t, spellings, rfl, by rwa [List.append_nil], by rwa [List.append_nil]⟩
    · have hseen' : (seen ++ [t]).Nodup := List.nodup_append.mpr
        ⟨hseen, List.nodup_singleton t, fun s hs u hu hsu =>
          ht (List.mem_singleton.mp hu ▸ hsu ▸ hs)⟩
      obtain ⟨earlier, s, later, rfl, hnodup, hs⟩ := ih hseen' (by simpa using h)
      exact ⟨t :: earlier, s, later, rfl, by simpa using hnodup, by simpa using hs⟩

/-- Keys that share spellings have a first one that cannot be added to those before. -/
theorem exists_first_colliding (hseen : seen.Nodup)
    (h : ¬(seen ++ keys.flatMap Key.spellings).Nodup) : ∃ before k after,
      keys = before ++ k :: after ∧ (seen ++ before.flatMap Key.spellings).Nodup ∧
        ¬(seen ++ before.flatMap Key.spellings ++ k.spellings).Nodup := by
  induction keys generalizing seen with
  | nil => exact absurd (by simpa using hseen) h
  | cons k keys ih =>
    by_cases hk : (seen ++ k.spellings).Nodup
    · obtain ⟨before, k', after, rfl, hnodup, hcollides⟩ := ih hk (by simpa using h)
      exact ⟨k :: before, k', after, rfl, by simpa using hnodup, by simpa using hcollides⟩
    · exact ⟨[], k, keys, rfl, by simpa using hseen, by simpa using hk⟩

/-! ### The two loops -/

section Loops

variable {index : SpellingIndex} {position : Nat}

/-- **The spellings in front of a collision are entered** one after the other. -/
theorem indexSpellings_append (hnodup : earlier.Nodup)
    (hnew : ∀ s ∈ earlier, index.lookup s = none) (later : List String) :
    indexSpellings position index (earlier ++ later)
      = indexSpellings position (index.enter position earlier) later := by
  induction earlier generalizing index with
  | nil => rfl
  | cons s earlier ih =>
    obtain ⟨hs, hnodup⟩ := List.nodup_cons.mp hnodup
    have hnone : ¬(index.lookup s).isSome = true := by simp [hnew s List.mem_cons_self]
    have hlater : ∀ t ∈ earlier, List.lookup t ((s, position) :: index) = none := by
      intro t ht
      rw [SpellingIndex.lookup_entry, if_neg (ne_of_mem_of_not_mem ht hs)]
      exact hnew t (List.mem_cons_of_mem s ht)
    rw [List.cons_append, indexSpellings, if_neg hnone, ih hnodup hlater,
      SpellingIndex.enter_cons]

/-- A spelling that came before ends the loop. -/
theorem indexSpellings_eq_error {s : String} (hnodup : earlier.Nodup)
    (hnew : ∀ s ∈ earlier, index.lookup s = none)
    (hs : index.lookup s ≠ none ∨ s ∈ earlier) (later : List String) :
    indexSpellings position index (earlier ++ s :: later) = .error (.repeatedSpelling s) := by
  have htaken : ((index.enter position earlier).lookup s).isSome = true := by
    rw [SpellingIndex.lookup_enter]
    split
    · rfl
    · rename_i hnot
      exact Option.isSome_iff_ne_none.mpr (hs.resolve_right hnot)
  rw [indexSpellings_append hnodup hnew, indexSpellings, if_pos htaken]

theorem indexKeys_cons (position : Nat) (index : SpellingIndex) (k : Key) (rest : List Key) :
    indexKeys position index (k :: rest) =
      if k.name ∈ k.aliases then .error (.ownAlias k.name)
      else match indexSpellings position index k.spellings with
        | .error fault => .error fault
        | .ok index => indexKeys (position + 1) index rest := rfl

theorem name_not_mem_aliases (h : k.spellings.Nodup) : k.name ∉ k.aliases :=
  (List.nodup_cons.mp h).1

/-- **The keys in front of a collision are entered** one after the other. What has been entered so
far is an index of the keys that came before. -/
theorem exists_indexKeys_append {seen : List Key} (hindex : IsIndex seen index)
    (h : ((seen ++ before).flatMap Key.spellings).Nodup) (rest : List Key) :
    ∃ index', IsIndex (seen ++ before) index' ∧ indexKeys seen.length index (before ++ rest)
      = indexKeys (seen ++ before).length index' rest := by
  induction before generalizing seen index with
  | nil => exact ⟨index, by rwa [List.append_nil], by rw [List.append_nil]; rfl⟩
  | cons k before ih =>
    rw [List.append_cons] at h ⊢
    have hk : ((seen ++ [k]).flatMap Key.spellings).Nodup := by
      rw [List.flatMap_append] at h
      exact h.sublist (List.sublist_append_left _ _)
    rw [List.flatMap_append, List.flatMap_singleton] at hk
    obtain ⟨hnodup, hnew⟩ := hindex.lookup_eq_none_of_nodup hk
    have hspellings : indexSpellings seen.length index k.spellings
        = .ok (index.enter seen.length k.spellings) := by
      rw [← List.append_nil k.spellings, indexSpellings_append hnodup hnew, List.append_nil]
      rfl
    obtain ⟨index', hindex', hkeys⟩ := ih (hindex.concat hnodup hnew) h
    refine ⟨index', hindex', ?_⟩
    rw [List.cons_append, indexKeys_cons, if_neg (name_not_mem_aliases hnodup), hspellings,
      ← hkeys, List.length_append, List.length_singleton]

/-- The same from the start of the list, where nothing has been entered yet. -/
theorem exists_indexKeys_of_nodup (h : (before.flatMap Key.spellings).Nodup) (rest : List Key) :
    ∃ index, IsIndex before index ∧
      indexKeys 0 [] (before ++ rest) = indexKeys before.length index rest :=
  exists_indexKeys_append IsIndex.nil h rest

end Loops

/-! ### The fault -/

/-- **The fault is the first collision in the list of keys.** The spellings of the keys before it
are pairwise different. Then a key has its own name among its aliases; or it has not, and one of its
spellings is the first that came before, in this key or in one before it. -/
inductive VocabularyFault.IsFirst : List Key → VocabularyFault → Prop
  /-- A key lists its own name. -/
  | ownAlias (before after : List Key) (k : Key)
      (hbefore : (before.flatMap Key.spellings).Nodup) (hown : k.name ∈ k.aliases) :
      IsFirst (before ++ k :: after) (.ownAlias k.name)
  /-- A spelling came before. -/
  | repeatedSpelling (before after : List Key) (k : Key) (earlier later : List String) (s : String)
      (hown : k.name ∉ k.aliases) (hspellings : k.spellings = earlier ++ s :: later)
      (hbefore : (before.flatMap Key.spellings ++ earlier).Nodup)
      (hs : s ∈ before.flatMap Key.spellings ++ earlier) :
      IsFirst (before ++ k :: after) (.repeatedSpelling s)

/-- Where the spellings are pairwise different, all of them are entered. -/
theorem exists_indexKeys_eq_ok (h : (keys.flatMap Key.spellings).Nodup) :
    ∃ index, indexKeys 0 [] keys = .ok index := by
  obtain ⟨index, -, hkeys⟩ := exists_indexKeys_of_nodup h []
  exact ⟨index, by rwa [List.append_nil] at hkeys⟩

theorem indexKeys_eq_error_of_isFirst (h : fault.IsFirst keys) :
    indexKeys 0 [] keys = .error fault := by
  cases h with
  | ownAlias before after k hbefore hown =>
    obtain ⟨index, -, hkeys⟩ := exists_indexKeys_of_nodup hbefore (k :: after)
    rw [hkeys, indexKeys_cons, if_pos hown]
  | repeatedSpelling before after k earlier later s hown hspellings hbefore hs =>
    obtain ⟨index, hindex, hkeys⟩ := exists_indexKeys_of_nodup
      (hbefore.sublist (List.sublist_append_left _ _)) (k :: after)
    obtain ⟨hearlier, hnew⟩ := hindex.lookup_eq_none_of_nodup hbefore
    have htaken : index.lookup s ≠ none ∨ s ∈ earlier :=
      (List.mem_append.mp hs).imp_left fun hbefore hnone =>
        hindex.lookup_eq_none_iff.mp hnone hbefore
    rw [hkeys, indexKeys_cons, if_neg hown, hspellings,
      indexSpellings_eq_error hearlier hnew htaken]

/-- Where spellings collide, the first collision is found. -/
theorem exists_isFirst (h : ¬(keys.flatMap Key.spellings).Nodup) :
    ∃ fault : VocabularyFault, fault.IsFirst keys := by
  obtain ⟨before, k, after, rfl, hbefore, hk⟩ :=
    @exists_first_colliding [] keys List.nodup_nil h
  by_cases hown : k.name ∈ k.aliases
  · exact ⟨_, .ownAlias before after k hbefore hown⟩
  · obtain ⟨earlier, s, later, hspellings, hnodup, hs⟩ := exists_first_repeat hbefore hk
    exact ⟨_, .repeatedSpelling before after k earlier later s hown hspellings hnodup hs⟩

/-- **Keys are entered, or else the fault is the first collision** among them. -/
theorem indexKeys_eq_error_iff : indexKeys 0 [] keys = .error fault ↔ fault.IsFirst keys := by
  refine ⟨fun h => ?_, indexKeys_eq_error_of_isFirst⟩
  obtain ⟨other, hother⟩ := exists_isFirst fun hnodup => by
    obtain ⟨index, hok⟩ := exists_indexKeys_eq_ok hnodup
    cases hok.symm.trans h
  rwa [← Except.error.inj ((indexKeys_eq_error_of_isFirst hother).symm.trans h)]

/-! ### Vocabularies -/

namespace Vocabulary

variable {v : Vocabulary}

theorem ofKeys_eq_error_iff : ofKeys keys = .error fault ↔ fault.IsFirst keys := by
  rw [← indexKeys_eq_error_iff, ofKeys]
  split
  · rename_i other hother
    simp only [hother, Except.error.injEq]
  · rename_i index hindex
    simp only [hindex, reduceCtorEq]

theorem exists_ofKeys_eq_ok {index : SpellingIndex} (h : indexKeys 0 [] keys = .ok index) :
    ∃ v, ofKeys keys = .ok v := by
  rw [ofKeys]
  split
  · rename_i other hother
    cases hother.symm.trans h
  · exact ⟨_, rfl⟩

theorem keys_of_ofKeys_eq_ok (h : ofKeys keys = .ok v) : v.keys = keys := by
  rw [ofKeys] at h
  split at h
  · cases h
  · rw [← Except.ok.inj h]

/-- **The vocabulary looks up the keys of a list**, each by all of its spellings. -/
structure LooksUp (v : Vocabulary) (keys : List Key) : Prop where
  /-- The index has an entry for every spelling and no other, which is the position of a key that
  has it. -/
  index_iff : ∀ s i, v.index.lookup s = some i ↔ ∃ k, keys[i]? = some k ∧ s ∈ k.spellings
  /-- A spelling finds a key exactly if the key has it. -/
  lookup?_iff : ∀ s k, v.lookup? s = some k ↔ k ∈ keys ∧ s ∈ k.spellings
  /-- No two places in the list share a spelling. -/
  unique : ∀ i j (hi : i < keys.length) (hj : j < keys.length) (s : String),
    s ∈ keys[i].spellings → s ∈ keys[j].spellings → i = j
  /-- In any case a spelling finds what it finds in lower case. -/
  lookupIgnoringCase?_eq : ∀ s, v.lookupIgnoringCase? s = v.lookup? (lowercase s)

/-- Keys whose spellings are pairwise different share none. -/
theorem disjoint_spellings (h : (keys.flatMap Key.spellings).Nodup) {i j : Nat} (hij : i < j)
    (hj : j < keys.length) : List.Disjoint keys[i].spellings keys[j].spellings :=
  List.pairwise_iff_getElem.mp (List.nodup_flatMap.mp h).2 i j _ hj hij

theorem looksUp_of_ofKeys (h : ofKeys keys = .ok v) : v.LooksUp keys := by
  obtain rfl := keys_of_ofKeys_eq_ok h
  have hnodup := v.isIndex.nodup_spellings
  refine ⟨v.isIndex.lookup_iff, fun s k => lookup?_eq_some_iff, fun i j hi hj s hsi hsj => ?_,
    fun s => rfl⟩
  rcases Nat.lt_trichotomy i j with hij | rfl | hji
  · exact (disjoint_spellings hnodup hij hj hsi hsj).elim
  · rfl
  · exact (disjoint_spellings hnodup hji hi hsj hsi).elim

/-- **A vocabulary is had exactly if no spelling comes twice**, within a key or in two of them. What
is reported otherwise is the first collision, and a vocabulary that is had looks up the keys that it
was built from. -/
theorem ofKeys_refuses_collisions (keys : List Key) :
    ((∃ v, ofKeys keys = .ok v) ↔ (keys.flatMap Key.spellings).Nodup) ∧
      (∀ fault, ofKeys keys = .error fault ↔ fault.IsFirst keys) ∧
      ∀ v, ofKeys keys = .ok v → v.LooksUp keys := by
  refine ⟨⟨?_, fun h => ?_⟩, fun fault => ofKeys_eq_error_iff, fun v => looksUp_of_ofKeys⟩
  · rintro ⟨v, h⟩
    exact keys_of_ofKeys_eq_ok h ▸ v.isIndex.nodup_spellings
  · obtain ⟨index, hindex⟩ := exists_indexKeys_eq_ok h
    exact exists_ofKeys_eq_ok hindex

/-- Two keys that share no spelling. -/
def colorKeys : List Key :=
  [⟨"color", ["c"], none, .allComparisons⟩, ⟨"identity", ["id", "ci"], none, .allComparisons⟩]

/-- These two keys are a vocabulary, and a third one with the alias `c` collides with the first. -/
theorem ofKeys_refuses_collisions_color :
    (∃ v, ofKeys colorKeys = .ok v ∧ v.LooksUp colorKeys) ∧
      (VocabularyFault.repeatedSpelling "c").IsFirst
        (colorKeys ++ [⟨"cost", ["c"], none, .allComparisons⟩]) := by
  obtain ⟨hok, -, hlooks⟩ := ofKeys_refuses_collisions colorKeys
  obtain ⟨v, hv⟩ := hok.mpr (by decide)
  exact ⟨⟨v, hv, hlooks v hv⟩,
    ((ofKeys_refuses_collisions _).2.1 _).mp rfl⟩

end Vocabulary

end CardFilter
