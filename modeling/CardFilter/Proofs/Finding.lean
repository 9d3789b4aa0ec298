import CardFilter.Proofs.Keys
import Mathlib.Data.List.Forall2

/-!
# What a match shows

A match is a stretch of a text that shows what was typed (`CardFilter.CharRange.Shows`): it lies in
the text, and its characters are those that were typed, case set aside. The search finds the first
such stretch, and finds one wherever there is one (`CardFilter.shows_of_findIgnoringCase`,
`CardFilter.exists_findIgnoringCase_of_shows`).

A stretch goes on showing what it shows when the text gets more characters before it, for which the
stretch is moved, or behind it (`CardFilter.CharRange.Shows.append`).
-/

namespace CardFilter

/-- **The same letters**, one after the other, case set aside. -/
def SameLetters (shown typed : List Char) : Prop :=
  List.Forall₂ (fun c d => sameLetter c d = true) shown typed

theorem SameLetters.length_eq {shown typed : List Char} (h : SameLetters shown typed) :
    shown.length = typed.length :=
  List.Forall₂.length_eq h

theorem toNat_toLower_lt {c : Char} (h : c.toNat < 0x80) : c.toLower.toNat < 0x80 := by
  have hascii : ∀ n < 0x80, (Char.ofNat n).toLower.toNat < 0x80 := by decide +kernel
  simpa using hascii c.toNat h

theorem toLower_eq_self {c : Char} (h : ¬c.toNat < 0x80) : c.toLower = c := by
  refine dif_neg fun hupper => h ?_
  have hZ := UInt32.le_iff_toNat_le.mp hupper.2
  have h90 : ('Z' : Char).val.toNat = 90 := rfl
  change c.val.toNat < 0x80
  omega

/-- Letters of ASCII that differ in their case are the same letter. -/
theorem sameLetter_of_toLower_eq {c d : Char} (h : c.toLower = d.toLower) :
    sameLetter c d = true := by
  by_cases hc : c.toNat < 0x80
  · have hd : d.toNat < 0x80 := Vocabulary.toNat_lt_of_toLower h.symm (toNat_toLower_lt hc)
    simp [sameLetter, smallLetters, hc, hd, h]
  · have hd : ¬d.toNat < 0x80 := fun hd =>
      hc (Vocabulary.toNat_lt_of_toLower h (toNat_toLower_lt hd))
    rw [toLower_eq_self hc, toLower_eq_self hd] at h
    simp [sameLetter, h]

theorem sameLetters_of_sameAsciiIgnoringCase {s t : String}
    (h : sameAsciiIgnoringCase s t = true) : SameLetters s.toList t.toList := by
  have hmaps : s.toList.map Char.toLower = t.toList.map Char.toLower := eq_of_beq h
  have hlower : List.Forall₂ (· = ·) (s.toList.map Char.toLower) (t.toList.map Char.toLower) :=
    List.forall₂_eq_eq_eq ▸ hmaps
  rw [List.forall₂_map_left_iff, List.forall₂_map_right_iff] at hlower
  exact hlower.imp fun _ _ => sameLetter_of_toLower_eq

/-- **The stretch shows what was typed**: it lies in the text, and holds the same letters. -/
structure CharRange.Shows (r : CharRange) (text typed : List Char) : Prop where
  /-- The stretch ends where it starts, or later. -/
  start_le_stop : r.start ≤ r.stop
  /-- It ends in the text. -/
  stop_le_length : r.stop ≤ text.length
  /-- Its characters are those that were typed. -/
  sameLetters : SameLetters ((text.take r.stop).drop r.start) typed

namespace CharRange.Shows

variable {r : CharRange} {text typed : List Char}

/-- A stretch that shows what was typed cuts the text in three. -/
theorem exists_append (h : r.Shows text typed) : ∃ before shown after,
    text = before ++ (shown ++ after) ∧ SameLetters shown typed ∧
      r = ⟨before.length, before.length + shown.length⟩ := by
  have hle := h.start_le_stop
  have hstop := h.stop_le_length
  refine ⟨text.take r.start, (text.take r.stop).drop r.start, text.drop r.stop, ?_, h.sameLetters,
    ?_⟩
  · have htake : text.take r.start = (text.take r.stop).take r.start := by
      rw [List.take_take, Nat.min_eq_left hle]
    rw [htake, ← List.append_assoc, List.take_append_drop, List.take_append_drop]
  · have hstart : (text.take r.start).length = r.start :=
      List.length_take_of_le (Nat.le_trans hle hstop)
    rw [List.length_drop, List.length_take_of_le hstop, hstart, Nat.add_sub_cancel' hle]

theorem of_append {before shown after : List Char} (h : SameLetters shown typed) :
    Shows ⟨before.length, before.length + shown.length⟩ (before ++ (shown ++ after)) typed := by
  refine ⟨Nat.le_add_right _ _, by simp, ?_⟩
  rw [← List.append_assoc, List.take_left' (List.length_append ..), List.drop_left]
  exact h

/-- A text that is what was typed is shown as a whole. -/
theorem of_sameLetters (h : SameLetters text typed) : Shows ⟨0, text.length⟩ text typed :=
  ⟨Nat.zero_le _, Nat.le_refl _, by rwa [List.take_length, List.drop_zero]⟩

/-- **More text around a stretch** moves it by what stands before. -/
theorem append (h : r.Shows text typed) (before after : List Char) :
    (r.shift before.length).Shows (before ++ text ++ after) typed := by
  obtain ⟨lead, shown, trail, rfl, hsame, rfl⟩ := h.exists_append
  have hmoved : Shows ⟨(before ++ lead).length, (before ++ lead).length + shown.length⟩
      (before ++ lead ++ (shown ++ (trail ++ after))) typed := of_append hsame
  convert hmoved using 1
  · simp only [shift, List.length_append, CharRange.mk.injEq]
    omega
  · simp only [List.append_assoc]

/-- A match at the start goes on to the character before, where this is the one that was typed. -/
theorem cons {stop : Nat} (h : Shows ⟨0, stop⟩ text typed) (c : Char) :
    Shows ⟨0, stop + 1⟩ (c :: text) (c :: typed) := by
  refine ⟨Nat.zero_le _, Nat.succ_le_succ h.stop_le_length, ?_⟩
  have hsame : sameLetter c c = true := by simp [sameLetter]
  exact .cons hsame h.sameLetters

/-- A stretch is as long as what was typed. -/
theorem stop_eq (h : r.Shows text typed) : r.stop = r.start + typed.length := by
  obtain ⟨_, _, _, -, hsame, rfl⟩ := h.exists_append
  rw [hsame.length_eq]

end CharRange.Shows

/-! ### The search -/

section Search

variable {typed text : List Char}

theorem startsWithIgnoringCase_iff : startsWithIgnoringCase typed text = true ↔
    ∃ shown after, text = shown ++ after ∧ SameLetters shown typed := by
  induction typed generalizing text with
  | nil => exact ⟨fun _ => ⟨[], text, rfl, .nil⟩, fun _ => by rw [startsWithIgnoringCase]⟩
  | cons d typed ih =>
    cases text with
    | nil =>
      refine ⟨fun h => by simp [startsWithIgnoringCase] at h, ?_⟩
      rintro ⟨shown, after, happend, hsame⟩
      obtain ⟨rfl, -⟩ := List.append_eq_nil_iff.mp happend.symm
      cases hsame
    | cons c text =>
      rw [startsWithIgnoringCase, Bool.and_eq_true, ih]
      constructor
      · rintro ⟨hc, shown, after, rfl, hsame⟩
        exact ⟨c :: shown, after, rfl, .cons hc hsame⟩
      · rintro ⟨shown, after, happend, hsame⟩
        cases hsame with
        | cons hc hsame =>
          obtain ⟨rfl, rfl⟩ := List.cons.inj happend
          exact ⟨hc, _, after, rfl, hsame⟩

/-- What is found stands there. -/
theorem exists_append_of_firstMatchFrom {seen start : Nat}
    (h : firstMatchFrom typed seen text = some start) : ∃ before after,
      text = before ++ after ∧ start = seen + before.length ∧
        startsWithIgnoringCase typed after = true := by
  induction text generalizing seen with
  | nil =>
    rw [firstMatchFrom] at h
    split at h
    · rename_i hempty
      obtain rfl := List.isEmpty_iff.mp hempty
      exact ⟨[], [], rfl, (Option.some.inj h).symm, rfl⟩
    · cases h
  | cons c text ih =>
    rw [firstMatchFrom] at h
    split at h
    · rename_i hstarts
      exact ⟨[], c :: text, rfl, (Option.some.inj h).symm, hstarts⟩
    · obtain ⟨before, after, rfl, rfl, hstarts⟩ := ih h
      exact ⟨c :: before, after, rfl, by rw [List.length_cons]; omega, hstarts⟩

/-- What stands there is found, unless something before it is. -/
theorem exists_firstMatchFrom_append (before : List Char) {after : List Char} (seen : Nat)
    (h : startsWithIgnoringCase typed after = true) :
    ∃ start ≤ seen + before.length, firstMatchFrom typed seen (before ++ after) = some start := by
  induction before generalizing seen with
  | nil =>
    refine ⟨seen, Nat.le_refl _, ?_⟩
    cases after with
    | nil =>
      cases typed with
      | nil => rfl
      | cons d typed => cases h
    | cons c after => rw [List.nil_append, firstMatchFrom, if_pos h]
  | cons c before ih =>
    rw [List.cons_append, firstMatchFrom]
    split
    · exact ⟨seen, Nat.le_add_right _ _, rfl⟩
    · obtain ⟨start, hle, hfound⟩ := ih (seen + 1)
      exact ⟨start, by rw [List.length_cons]; omega, hfound⟩

end Search

section Match

variable {text typed : String} {r : CharRange}

/-- **A match shows what was typed.** -/
theorem shows_of_findIgnoringCase (h : findIgnoringCase text typed = some r) :
    r.Shows text.toList typed.toList := by
  obtain ⟨start, hstart, rfl⟩ := Option.map_eq_some_iff.mp h
  obtain ⟨before, after, happend, rfl, hstarts⟩ := exists_append_of_firstMatchFrom hstart
  obtain ⟨shown, after, rfl, hsame⟩ := startsWithIgnoringCase_iff.mp hstarts
  rw [happend, Nat.zero_add, ← hsame.length_eq]
  exact .of_append hsame

/-- **What stands in a text is found**, there or further in front. -/
theorem exists_findIgnoringCase_of_shows (h : r.Shows text.toList typed.toList) :
    ∃ r', findIgnoringCase text typed = some r' ∧ r'.start ≤ r.start := by
  obtain ⟨before, shown, after, happend, hsame, rfl⟩ := h.exists_append
  obtain ⟨start, hle, hfound⟩ := exists_firstMatchFrom_append before 0
    (startsWithIgnoringCase_iff.mpr ⟨shown, after, rfl, hsame⟩)
  refine ⟨⟨start, start + typed.toList.length⟩, ?_, by rwa [Nat.zero_add] at hle⟩
  rw [findIgnoringCase, happend, hfound]
  rfl

end Match

end CardFilter
