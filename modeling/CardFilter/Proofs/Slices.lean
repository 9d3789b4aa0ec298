import CardFilter.Proofs.Spelling

/-!
# Slices of a text

The readers of filter texts go through a list of characters. An implementation on bytes holds the
text and a position in it, and at every place it takes a slice: the text from a position on, up to
a position, or between two. Such a slice exists only where the positions lie on borders between
characters, within the text, and in the right order; elsewhere the program would stop. This file
has these operations, each of which gives nothing where it would stop, and the one law that they
are computed with: what stands before a border is measured by its position
(`CardFilter.cutAtByte?_append`).

In the files that follow a reader is written a second time, over positions and with these
operations only. That it gives something means that none of its slices fails.
-/

namespace CardFilter

/-! ### The operations -/

/-- The text from a byte position on. -/
def textFrom? (position : Nat) (cs : List Char) : Option (List Char) :=
  (cutAtByte? position cs).map (·.2)

/-- The text up to a byte position. -/
def textUpTo? (position : Nat) (cs : List Char) : Option (List Char) :=
  (cutAtByte? position cs).map (·.1)

/-- The text between two byte positions, which must not be in the wrong order. -/
def textBetween? (start stop : Nat) (cs : List Char) : Option (List Char) :=
  if start ≤ stop then (textUpTo? stop cs).bind (textFrom? start) else none

/-- The text without what stands between two byte positions, which must not be in the wrong
order. -/
def textWithout? (start stop : Nat) (cs : List Char) : Option (List Char) :=
  if start ≤ stop then do
    let (front, after) ← cutAtByte? stop cs
    let before ← textUpTo? start front
    some (before ++ after)
  else none

/-- The letter takes two bytes, and the position lies between them. -/
example : textFrom? 1 ['é'] = none := by decide

/-- The difference of two positions, where it is not negative. -/
def minus? (m n : Nat) : Option Nat :=
  if n ≤ m then some (m - n) else none

/-- The byte position of the first character of a class. -/
def findByte? (p : Char → Bool) : List Char → Option Nat
  | [] => none
  | c :: rest => if p c then some 0 else (findByte? p rest).map (· + c.utf8Size)

/-- **A border between two characters**, or an end of the text. The text starts at the byte
position `start`. -/
def IsBorder (start : Nat) (cs : List Char) (position : Nat) : Prop :=
  ∃ before after, cs = before ++ after ∧ position = start + byteLength before

/-! ### Cutting at a border -/

section Cut

variable {cs before mid after : List Char} {position : Nat}

/-- **A border cuts**: what is as long as the position says comes first. -/
@[simp] theorem cutAtByte?_append (before after : List Char) :
    cutAtByte? (byteLength before) (before ++ after) = some (before, after) := by
  induction before with
  | nil => cases after <;> rfl
  | cons c before ih =>
    have hpos := c.utf8Size_pos
    obtain ⟨n, hn⟩ := Nat.exists_eq_add_of_lt hpos
    have hlength : byteLength (c :: before) = n + byteLength before + 1 := by
      rw [byteLength_cons]
      omega
    rw [List.cons_append, hlength, cutAtByte?, if_pos (by omega),
      show n + byteLength before + 1 - c.utf8Size = byteLength before by omega, ih]
    rfl

/-- **Where a cut succeeds**: on a border. -/
theorem cutAtByte?_eq_some_iff :
    cutAtByte? position cs = some (before, after) ↔
      cs = before ++ after ∧ byteLength before = position := by
  constructor
  · intro h
    fun_induction cutAtByte? position cs generalizing before with
    | case1 =>
      cases h
      exact ⟨rfl, rfl⟩
    | case2 | case4 => cases h
    | case3 n c rest hsize ih =>
      obtain ⟨⟨front, rear⟩, hcut, heq⟩ := Option.map_eq_some_iff.mp h
      cases heq
      obtain ⟨rfl, hlength⟩ := ih hcut
      refine ⟨rfl, ?_⟩
      rw [byteLength_cons, hlength]
      omega
  · rintro ⟨rfl, rfl⟩
    exact cutAtByte?_append before after

/-- **At a border the text can be cut**, and the column there is the number of characters before
it. -/
theorem IsBorder.exists_cut (h : IsBorder 0 cs position) :
    ∃ before after, cutAtByte? position cs = some (before, after) ∧
      columnOf cs position = before.length := by
  obtain ⟨before, after, rfl, rfl⟩ := h
  have hle : byteLength before ≤ byteLength (before ++ after) := by simp
  rw [Nat.zero_add]
  refine ⟨before, after, cutAtByte?_append before after, ?_⟩
  rw [columnOf, Nat.min_eq_left hle, cutAtByte?_append]

@[simp] theorem textFrom?_append (before after : List Char) :
    textFrom? (byteLength before) (before ++ after) = some after := by
  rw [textFrom?, cutAtByte?_append, Option.map_some]

theorem textFrom?_eq_some_iff :
    textFrom? position cs = some after ↔ ∃ before, cs = before ++ after ∧
      byteLength before = position := by
  rw [textFrom?, Option.map_eq_some_iff]
  constructor
  · rintro ⟨⟨before, rear⟩, hcut, rfl⟩
    exact ⟨before, cutAtByte?_eq_some_iff.mp hcut⟩
  · rintro ⟨before, hcs, hlength⟩
    exact ⟨(before, after), cutAtByte?_eq_some_iff.mpr ⟨hcs, hlength⟩, rfl⟩

@[simp] theorem textUpTo?_append (before after : List Char) :
    textUpTo? (byteLength before) (before ++ after) = some before := by
  rw [textUpTo?, cutAtByte?_append, Option.map_some]

theorem textUpTo?_eq_some_iff :
    textUpTo? position cs = some before ↔ ∃ after, cs = before ++ after ∧
      byteLength before = position := by
  rw [textUpTo?, Option.map_eq_some_iff]
  constructor
  · rintro ⟨⟨front, after⟩, hcut, rfl⟩
    exact ⟨after, cutAtByte?_eq_some_iff.mp hcut⟩
  · rintro ⟨after, hcs, hlength⟩
    exact ⟨(before, after), cutAtByte?_eq_some_iff.mpr ⟨hcs, hlength⟩, rfl⟩

theorem textBetween?_append :
    textBetween? (byteLength before) (byteLength before + byteLength mid)
      (before ++ (mid ++ after)) = some mid := by
  rw [textBetween?, if_pos (Nat.le_add_right _ _), ← byteLength_append, ← List.append_assoc,
    textUpTo?_append, Option.bind_some, textFrom?_append]

/-- **Where a slice is there**: between two borders. -/
theorem textBetween?_eq_some_iff {start stop : Nat} :
    textBetween? start stop cs = some mid ↔ ∃ before after, cs = before ++ (mid ++ after) ∧
      byteLength before = start ∧ byteLength (before ++ mid) = stop := by
  constructor
  · intro h
    rw [textBetween?] at h
    split at h
    · obtain ⟨front, hfront, hmid⟩ := Option.bind_eq_some_iff.mp h
      obtain ⟨after, rfl, hstop⟩ := textUpTo?_eq_some_iff.mp hfront
      obtain ⟨before, rfl, hstart⟩ := textFrom?_eq_some_iff.mp hmid
      exact ⟨before, after, List.append_assoc _ _ _, hstart, hstop⟩
    · cases h
  · rintro ⟨before, after, rfl, rfl, rfl⟩
    rw [byteLength_append]
    exact textBetween?_append

theorem textWithout?_append :
    textWithout? (byteLength before) (byteLength before + byteLength mid)
      (before ++ (mid ++ after)) = some (before ++ after) := by
  rw [textWithout?, if_pos (Nat.le_add_right _ _), ← byteLength_append, ← List.append_assoc,
    cutAtByte?_append]
  simp only [Option.bind_eq_bind, Option.bind_some, textUpTo?_append]

theorem minus?_of_le {m n : Nat} (h : n ≤ m) : minus? m n = some (m - n) :=
  if_pos h

end Cut

/-- Every character takes a byte at least. -/
theorem byteLength_pos {cs : List Char} (h : cs ≠ []) : 0 < byteLength cs := by
  obtain ⟨c, rest, rfl⟩ := List.exists_cons_of_ne_nil h
  exact Nat.add_pos_left c.utf8Size_pos _

/-- **Two cuts of one text**: what stands before the first stands before the second. -/
theorem exists_append_of_byteLength_le {front rest before after : List Char}
    (h : front ++ rest = before ++ after) (hle : byteLength front ≤ byteLength before) :
    ∃ mid, before = front ++ mid ∧ rest = mid ++ after := by
  rcases List.append_eq_append_iff.mp h with hmid | ⟨mid, rfl, rfl⟩
  · exact hmid
  · have hnil : mid = [] := by
      by_contra hne
      have hpos := byteLength_pos hne
      rw [byteLength_append] at hle
      omega
    exact ⟨[], by simp [hnil], by simp [hnil]⟩

/-- What is left after some characters is shorter. -/
theorem length_lt_of_eq_append {cs before after : List Char} (h : cs = before ++ after)
    (hne : before ≠ []) : after.length < cs.length := by
  rw [h, List.length_append]
  exact Nat.lt_add_of_pos_left (List.length_pos_of_ne_nil hne)

/-! ### Looking for a character -/

section Find

variable {p : Char → Bool} {mark : Char} {cs before after : List Char}

/-- **Where a class begins**: after the longest run outside it, and never in a text without it. -/
theorem findByte?_eq :
    findByte? p cs = if (cs.dropWhile fun c => !p c).isEmpty then none
      else some (byteLength (cs.takeWhile fun c => !p c)) := by
  induction cs with
  | nil => rfl
  | cons c rest ih =>
    cases hc : p c with
    | true => simp [findByte?, hc]
    | false =>
      rw [findByte?, hc, if_neg Bool.false_ne_true, ih]
      by_cases hempty : (rest.dropWhile fun c => !p c).isEmpty = true
      · simp [hc, hempty]
      · simp [hc, hempty, Nat.add_comm]

/-- The run outside the class is as long as the position says, or is the whole text. -/
theorem findByte?_getD :
    (findByte? p cs).getD (byteLength cs) = byteLength (cs.takeWhile fun c => !p c) := by
  rw [findByte?_eq]
  split
  · rename_i hempty
    have hsplit := List.takeWhile_append_dropWhile (p := fun c => !p c) (l := cs)
    rw [List.isEmpty_iff.mp hempty, List.append_nil] at hsplit
    rw [Option.getD_none, hsplit]
  · rfl

/-- The first mark stands where the text is cut at it. -/
theorem findByte?_mark : findByte? (· == mark) cs = (cutAtMark? mark cs).map fun (before, _) =>
    byteLength before := by
  induction cs with
  | nil => rfl
  | cons c rest ih =>
    rw [findByte?, cutAtMark?]
    by_cases hc : c = mark
    · rw [if_pos (beq_iff_eq.mpr hc), if_pos hc]
      rfl
    · rw [if_neg (by simpa using hc), if_neg hc, ih, Option.map_map, Option.map_map]
      exact congrArg (Option.map · _) (funext fun _ => Nat.add_comm _ _)

end Find

/-- What the text begins with is what one of its parts begins with. -/
theorem forall_head?_append {P : Char → Prop} {cs post : List Char} (hcs : ∀ d ∈ cs.head?, P d)
    (hpost : ∀ d ∈ post.head?, P d) : ∀ d ∈ (cs ++ post).head?, P d := by
  cases cs with
  | nil => exact hpost
  | cons => exact hcs

end CardFilter
