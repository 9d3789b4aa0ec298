import CardFilter.Filter
import CardFilter.Proofs.Characters
import CardFilter.Vocabulary.Standard

/-!
# The keys of a vocabulary

A key is found by any of its spellings, through the index of the vocabulary. What is found is what a
search through the keys would find (`CardFilter.Vocabulary.lookup?_eq_find?`), and since no two keys
share a spelling, it does not depend on their order: `CardFilter.Vocabulary.Accepts` says of a
spelling and a comparison that some key has the one and accepts the other, and
`CardFilter.Vocabulary.accepts_iff_lookup?` that this is what a look-up tells.

The standard vocabulary has three properties that the filter language rests on. Each is a fact
about the table: every spelling is a word (`CardFilter.Vocabulary.standard_spellings`), every
spelling is its own lower-case form, and the word `or` is none of them
(`CardFilter.Vocabulary.not_accepts_of_isOrWord`), so that it can separate the members of a group.
-/

namespace CardFilter

namespace Vocabulary

variable {v : Vocabulary} {spelling : String} {k : Key} {c : Comparison}

/-- **A spelling finds the key that has it**, wherever the key is listed. -/
theorem lookup?_eq_some_iff :
    v.lookup? spelling = some k ↔ k ∈ v.keys ∧ spelling ∈ k.spellings := by
  rw [lookup?, Option.bind_eq_some_iff]
  constructor
  · rintro ⟨i, hi, hk⟩
    obtain ⟨k', hk', hspelling⟩ := (v.isIndex.lookup_iff spelling i).mp hi
    cases hk'.symm.trans hk
    exact ⟨List.mem_of_getElem? hk, hspelling⟩
  · rintro ⟨hk, hspelling⟩
    obtain ⟨i, hi⟩ := List.getElem?_of_mem hk
    exact ⟨i, (v.isIndex.lookup_iff spelling i).mpr ⟨k, hi, hspelling⟩, hi⟩

theorem lookup?_eq_some_of_mem (hk : k ∈ v.keys) (hspelling : spelling ∈ k.spellings) :
    v.lookup? spelling = some k :=
  lookup?_eq_some_iff.mpr ⟨hk, hspelling⟩

/-- **The index leads where a search through the keys would**: to the first with the spelling. -/
theorem lookup?_eq_find? (v : Vocabulary) (spelling : String) :
    v.lookup? spelling = v.keys.find? fun k => spelling ∈ k.spellings := by
  cases hfind : v.keys.find? fun k => spelling ∈ k.spellings with
  | some k =>
    exact lookup?_eq_some_of_mem (List.mem_of_find?_eq_some hfind)
      (by simpa using List.find?_some hfind)
  | none =>
    refine Option.eq_none_iff_forall_ne_some.mpr fun k hk => ?_
    obtain ⟨hmem, hspelling⟩ := lookup?_eq_some_iff.mp hk
    exact absurd hspelling (by simpa using List.find?_eq_none.mp hfind k hmem)

/-- **The comparison is accepted for the spelling**: a key with this very spelling accepts it. -/
def Accepts (v : Vocabulary) (spelling : String) (c : Comparison) : Prop :=
  ∃ k ∈ v.keys, spelling ∈ k.spellings ∧ k.operators.accepts c = true

instance : Decidable (v.Accepts spelling c) :=
  inferInstanceAs (Decidable (∃ k ∈ v.keys, spelling ∈ k.spellings ∧ k.operators.accepts c = true))

theorem accepts_iff_lookup? :
    v.Accepts spelling c ↔ ∃ k, v.lookup? spelling = some k ∧ k.operators.accepts c = true := by
  constructor
  · rintro ⟨k, hk, hspelling, hc⟩
    exact ⟨k, lookup?_eq_some_of_mem hk hspelling, hc⟩
  · rintro ⟨k, hlookup, hc⟩
    obtain ⟨hk, hspelling⟩ := lookup?_eq_some_iff.mp hlookup
    exact ⟨k, hk, hspelling, hc⟩

/-! ### The standard vocabulary -/

/-- **The spellings of the standard keys** are words in lower case. -/
theorem standard_spellings : ∀ k ∈ standard.keys, ∀ s ∈ k.spellings,
    IsWord s.toList ∧ lowercase s = s := by
  decide +kernel

theorem standard_spelling_of_accepts (h : standard.Accepts spelling c) :
    IsWord spelling.toList ∧ lowercase spelling = spelling := by
  obtain ⟨k, hk, hspelling, -⟩ := h
  exact standard_spellings k hk spelling hspelling

/-- The word `or` is no spelling of a standard key. -/
theorem standard_or : ∀ k ∈ standard.keys, "or" ∉ k.spellings := by
  decide +kernel

theorem toNat_lt_of_toLower {a b : Char} (h : a.toLower = b) (hb : b.toNat < 0x80) :
    a.toNat < 0x80 := by
  by_cases hupper : a.val ≥ 'A'.val ∧ a.val ≤ 'Z'.val
  · have hZ := UInt32.le_iff_toNat_le.mp hupper.2
    have h90 : ('Z' : Char).val.toNat = 90 := rfl
    change a.val.toNat < 0x80
    omega
  · have hsame : a.toLower = a := dif_neg hupper
    rwa [← h, hsame] at hb

/-- In any case the word `or` is the same word in lower case. -/
theorem lowercase_of_isOrWord {w : String} (h : Value.isOrWord w = true) :
    lowercase w = "or" := by
  have hlower : w.toList.map Char.toLower = ['o', 'r'] := by
    simpa [Value.isOrWord, sameAsciiIgnoringCase, asciiLower] using h
  obtain ⟨a, rest, hw, ha, hrest⟩ := List.map_eq_cons_iff.mp hlower
  obtain ⟨b, tail, rfl, hb, htail⟩ := List.map_eq_cons_iff.mp hrest
  obtain rfl := List.map_eq_nil_iff.mp htail
  have hasmall := toNat_lt_of_toLower ha (by decide)
  have hbsmall := toNat_lt_of_toLower hb (by decide)
  have hsigma : ('Σ' : Char).toNat = 0x3A3 := rfl
  have haSigma : (a == 'Σ') = false := beq_eq_false_iff_ne.mpr fun h => by rw [h] at hasmall; omega
  have hbSigma : (b == 'Σ') = false := beq_eq_false_iff_ne.mpr fun h => by rw [h] at hbsmall; omega
  simp only [lowercase, hw, lowercaseAfter, haSigma, hbSigma, smallLetters, hasmall, hbsmall, ha,
    hb]
  rfl

theorem not_accepts_of_isOrWord {w : String} (h : Value.isOrWord w = true) :
    ¬standard.Accepts (lowercase w) c := by
  rintro ⟨k, hk, hspelling, -⟩
  rw [lowercase_of_isOrWord h] at hspelling
  exact standard_or k hk hspelling

end Vocabulary

end CardFilter
