import CardFilter.Text.Alphanumeric
import CardFilter.Text.Blank
import CardFilter.Text.Bytes
import Mathlib.Data.List.Basic
import Mathlib.Data.List.TakeWhile

/-!
# Word characters, blanks and marks

The readers of filter texts look at one character and decide what begins there. They never
disagree because the classes of characters that they ask for are disjoint: a word character is no
blank (`CardFilter.isBlank_eq_false_of_isWordChar`) and none of the marks of the language.

The first of these is a fact about two tables, checked range against range; the ASCII part needs
only the bounds of the letters and digits. The second needs no lemma for each mark: a mark is a
fixed character, so its class is evaluated where it is needed, and
`CardFilter.ne_of_isWordChar` turns two classes into two different characters.

The rest of the file is about the blanks around a text: trimming takes away all of them and
nothing else (`CardFilter.exists_blanks_trimChars`), and a text between blanks is what trimming
leaves (`CardFilter.trimChars_append`).
-/

namespace CardFilter

/-! ### Word characters are no blanks -/

theorem inRanges_eq_true {ranges : List (Nat × Nat)} {n : Nat} :
    inRanges ranges n = true ↔ ∃ r ∈ ranges, r.1 ≤ n ∧ n ≤ r.2 := by
  simp [inRanges]

/-- No range of letters or digits meets a range of blanks. -/
theorem alphanumericRanges_disjoint_blankRanges :
    ∀ r ∈ alphanumericRanges, ∀ b ∈ blankRanges, r.2 < b.1 ∨ b.2 < r.1 := by
  decide +kernel

/-- The ASCII blanks come before the digits. -/
theorem blankRanges_bounds : ∀ b ∈ blankRanges, b.2 < 0x30 ∨ 0x80 ≤ b.1 := by
  decide

theorem le_toNat_of_isAlphanum {c : Char} (h : c.isAlphanum = true) : 0x30 ≤ c.toNat := by
  have hcases : (decide (c.val ≥ 'A'.val ∧ c.val ≤ 'Z'.val) ||
      (decide (c.val ≥ 'a'.val) && decide (c.val ≤ 'z'.val)) || c.isDigit) = true := h
  rw [Bool.or_eq_true, Bool.or_eq_true, Bool.and_eq_true, decide_eq_true_eq, decide_eq_true_eq,
    decide_eq_true_eq, Char.isDigit_iff_toNat] at hcases
  change 0x30 ≤ c.val.toNat
  rcases hcases with (⟨hA, -⟩ | ⟨ha, -⟩) | ⟨h0, -⟩
  · have hA := UInt32.le_iff_toNat_le.mp hA
    have h65 : ('A' : Char).val.toNat = 65 := rfl
    omega
  · have ha := UInt32.le_iff_toNat_le.mp ha
    have h97 : ('a' : Char).val.toNat = 97 := rfl
    omega
  · exact h0

/-- **A word character is no blank.** -/
theorem isBlank_eq_false_of_isWordChar {c : Char} (h : isWordChar c = true) :
    isBlank c = false := by
  rw [Bool.eq_false_iff]
  intro hblank
  obtain ⟨b, hb, hlo, hhi⟩ := inRanges_eq_true.mp hblank
  rw [isWordChar, Bool.or_eq_true, beq_iff_eq] at h
  rcases h with h | rfl
  · by_cases hascii : c.toNat < 0x80
    · rw [isAlphanumeric, if_pos hascii] at h
      have hlower := le_toNat_of_isAlphanum h
      rcases blankRanges_bounds b hb with hbound | hbound <;> omega
    · rw [isAlphanumeric, if_neg hascii] at h
      obtain ⟨r, hr, hrlo, hrhi⟩ := inRanges_eq_true.mp h
      rcases alphanumericRanges_disjoint_blankRanges r hr b hb with hlt | hlt <;> omega
  -- the underscore is in neither table
  · exact absurd hblank (by decide)

theorem isWordChar_eq_false_of_isBlank {c : Char} (h : isBlank c = true) :
    isWordChar c = false := by
  rw [Bool.eq_false_iff]
  intro hword
  rw [isBlank_eq_false_of_isWordChar hword] at h
  exact absurd h (by decide)

/-- Two characters differ when one is a word character and the other is not. -/
theorem ne_of_isWordChar {c d : Char} (hc : isWordChar c = true) (hd : isWordChar d = false) :
    c ≠ d := by
  rintro rfl
  rw [hc] at hd
  exact absurd hd (by decide)

/-- **A word**: at least one character, and word characters only. -/
def IsWord (cs : List Char) : Prop :=
  cs ≠ [] ∧ ∀ c ∈ cs, isWordChar c = true

instance (cs : List Char) : Decidable (IsWord cs) :=
  decidable_of_iff (cs ≠ [] ∧ cs.all isWordChar = true) (and_congr_right' List.all_eq_true)

/-! ### Runs of characters of one class -/

section Runs

variable {p : Char → Bool} {cs after : List Char}

/-- A run of a class ends where the class ends. -/
theorem takeWhile_append_of_head? (hcs : ∀ c ∈ cs, p c = true)
    (hafter : ∀ c ∈ after.head?, p c = false) : (cs ++ after).takeWhile p = cs := by
  rw [List.takeWhile_append_of_pos hcs]
  cases after with
  | nil => simp
  | cons c after => simp [hafter c rfl]

/-- What follows a run of a class begins outside the class. -/
theorem dropWhile_append_of_head? (hcs : ∀ c ∈ cs, p c = true)
    (hafter : ∀ c ∈ after.head?, p c = false) : (cs ++ after).dropWhile p = after := by
  rw [List.dropWhile_append_of_pos hcs]
  cases after with
  | nil => simp
  | cons c after => simp [hafter c rfl]

theorem eq_false_of_head?_dropWhile {c : Char} (h : c ∈ (cs.dropWhile p).head?) :
    p c = false := by
  have hnot := List.head?_dropWhile_not p cs
  rw [Option.mem_def.mp h] at hnot
  exact hnot

end Runs

/-! ### Blanks around a text -/

/-- Nothing but blanks. -/
def Blanks (cs : List Char) : Prop :=
  ∀ c ∈ cs, isBlank c = true

@[simp] theorem blanks_nil : Blanks [] := by
  simp [Blanks]

@[simp] theorem blanks_cons {c : Char} {cs : List Char} :
    Blanks (c :: cs) ↔ isBlank c = true ∧ Blanks cs := by
  simp [Blanks]

/-- The text neither begins nor ends with a blank. -/
structure Trimmed (cs : List Char) : Prop where
  /-- It begins with no blank. -/
  head : ∀ c ∈ cs.head?, isBlank c = false
  /-- It ends with no blank. -/
  last : ∀ c ∈ cs.getLast?, isBlank c = false

/-- **What trimming leaves**: the text between the blanks. -/
theorem trimChars_append {lead core trail : List Char} (hlead : Blanks lead)
    (htrail : Blanks trail) (h : Trimmed core) : trimChars (lead ++ (core ++ trail)) = core := by
  rcases List.eq_nil_or_concat' core with rfl | ⟨init, last, rfl⟩
  · have hall : ∀ c ∈ lead ++ trail, isBlank c = true := by
      intro c hc
      exact (List.mem_append.mp hc).elim (hlead c) (htrail c)
    rw [trimChars, List.nil_append, List.dropWhile_eq_nil_iff.mpr hall]
    rfl
  · have hhead : ∀ c ∈ ((init ++ [last]) ++ trail).head?, isBlank c = false := by
      intro c hc
      refine h.head c ?_
      cases init <;> simpa using hc
    have hlast : isBlank last = false := h.last last (by simp)
    rw [trimChars, dropWhile_append_of_head? hlead hhead, List.reverse_append,
      dropWhile_append_of_head? (fun c hc => htrail c (List.mem_reverse.mp hc))
        (by simpa using hlast),
      List.reverse_reverse]

theorem trimChars_eq_self {cs : List Char} (h : Trimmed cs) : trimChars cs = cs := by
  simpa using trimChars_append blanks_nil blanks_nil h

/-- **Trimming takes away blanks and nothing else.** -/
theorem exists_blanks_trimChars (cs : List Char) :
    ∃ lead trail, Blanks lead ∧ Blanks trail ∧ cs = lead ++ (trimChars cs ++ trail) := by
  refine ⟨cs.takeWhile isBlank, ((cs.dropWhile isBlank).reverse.takeWhile isBlank).reverse,
    fun c hc => List.mem_takeWhile_imp hc,
    fun c hc => List.mem_takeWhile_imp (List.mem_reverse.mp hc), ?_⟩
  rw [trimChars, ← List.reverse_append, List.takeWhile_append_dropWhile, List.reverse_reverse,
    List.takeWhile_append_dropWhile]

/-- A trimmed text has no blanks left at its ends. -/
theorem trimmed_trimChars (cs : List Char) : Trimmed (trimChars cs) := by
  refine ⟨fun c hc => ?_, fun c hc => ?_⟩
  · -- what is left after the end is cut begins as it did before
    have hsub : trimChars cs <+: cs.dropWhile isBlank := by
      rw [trimChars, ← List.reverse_suffix, List.reverse_reverse]
      exact List.dropWhile_suffix _
    obtain ⟨trail, htrail⟩ := hsub
    have hhead : c ∈ (cs.dropWhile isBlank).head? := by
      rw [← htrail, List.head?_append, Option.mem_def.mp hc]
      rfl
    exact eq_false_of_head?_dropWhile hhead
  · rw [trimChars, List.getLast?_reverse] at hc
    exact eq_false_of_head?_dropWhile hc

end CardFilter
