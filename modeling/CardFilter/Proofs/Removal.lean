import CardFilter.Proofs.PieceLayout
import CardFilter.Proofs.RepairSlices
import Mathlib.Data.Nat.Count
import Mathlib.Order.Interval.Finset.Nat

/-!
# What the repair takes out

The repair takes some gaps out of a text, one after another, and moves a selection along. This file
says what all of it comes to at once: with the set of the byte positions that the gaps cover, the
text loses the characters at these positions, and a position moves to the left by the number of
them below it (`CardFilter.Draft.repair_removes`).

* **A position goes to the number of positions below it that stay**
  (`CardFilter.Draft.movedPosition_eq_count`), so it moves through a stretch that stays as it did,
  and stands still in one that goes. The repair moves it gap by gap, from the last to the first, and
  every gap takes from it what the set says, because the later gaps leave a position before them
  alone and one behind them behind them (`CardFilter.Draft.foldr_shiftPosition`).
* **No character is cut**: the gaps stand in the text one after another
  (`CardFilter.Draft.Laid`), so the positions of a character stay or go together
  (`CardFilter.Draft.TakesWhole`), and what is left of the text up to a border is as long as the
  place where this border goes (`CardFilter.Draft.TakesWhole.movedPosition_add`).
-/

namespace CardFilter.Draft

/-! ### Sets of positions -/

/-- The byte positions that the pieces cover. -/
def positionsOf (ps : List Piece) : Finset Nat :=
  ps.toFinset.biUnion fun p => Finset.Ico p.start p.stop

theorem mem_positionsOf {ps : List Piece} {x : Nat} :
    x ∈ positionsOf ps ↔ ∃ p ∈ ps, p.start ≤ x ∧ x < p.stop := by
  simp [positionsOf]

/-- **The text without the characters at the given positions**, where the first character is at the
byte position `position`. -/
def withoutPositions (removed : Finset Nat) (position : Nat) : List Char → List Char
  | [] => []
  | c :: rest =>
    let after := withoutPositions removed (position + c.utf8Size) rest
    if position ∈ removed then after else c :: after

/-- **Where a position goes** when the given ones are taken out: to the left by the number of those
below it. -/
def movedPosition (removed : Finset Nat) (position : Nat) : Nat :=
  position - (removed.filter (· < position)).card

section Positions

variable {removed other : Finset Nat} {position n : Nat} {cs front back : List Char} {c : Char}

/-- **A position goes to the number of those below it that stay.** -/
theorem movedPosition_eq_count (removed : Finset Nat) (position : Nat) :
    movedPosition removed position = Nat.count (· ∉ removed) position := by
  have hsplit := Finset.card_filter_add_card_filter_not (s := Finset.range position) (· ∈ removed)
  have hbelow : removed.filter (· < position) = (Finset.range position).filter (· ∈ removed) := by
    ext x
    simp [and_comm]
  rw [Finset.card_range, ← Nat.count_eq_card_filter_range (· ∉ removed)] at hsplit
  rw [movedPosition, hbelow]
  omega

@[simp] theorem movedPosition_zero : movedPosition removed 0 = 0 :=
  Nat.zero_sub _

theorem movedPosition_mono (removed : Finset Nat) : Monotone (movedPosition removed) := by
  intro x y hxy
  rw [movedPosition_eq_count, movedPosition_eq_count]
  exact Nat.count_monotone _ hxy

theorem movedPosition_add_eq :
    movedPosition removed (position + n) =
      movedPosition removed position + Nat.count (fun k => position + k ∉ removed) n := by
  rw [movedPosition_eq_count, movedPosition_eq_count, Nat.count_add]

theorem movedPosition_add_le :
    movedPosition removed (position + n) ≤ movedPosition removed position + n := by
  rw [movedPosition_add_eq]
  exact Nat.add_le_add_left (Nat.count_le _) _

/-- A position moves through a stretch that stays as it did. -/
theorem movedPosition_add_of_kept (h : ∀ k < n, position + k ∉ removed) :
    movedPosition removed (position + n) = movedPosition removed position + n := by
  rw [movedPosition_add_eq, Nat.count_of_forall h]

/-- A position stands still in a stretch that goes. -/
theorem movedPosition_add_of_removed (h : ∀ k < n, position + k ∈ removed) :
    movedPosition removed (position + n) = movedPosition removed position := by
  rw [movedPosition_add_eq, Nat.count_of_forall_not fun k hk => not_not.mpr (h k hk),
    Nat.add_zero]

theorem withoutPositions_append :
    withoutPositions removed position (front ++ back) =
      withoutPositions removed position front ++
        withoutPositions removed (position + byteLength front) back := by
  induction front generalizing position with
  | nil => rfl
  | cons c front ih =>
    simp only [List.cons_append, withoutPositions, ih, byteLength_cons, Nat.add_assoc]
    split <;> rfl

/-- What matters is which of the positions in the text are taken out. -/
theorem withoutPositions_congr
    (h : ∀ k < byteLength cs, position + k ∈ removed ↔ position + k ∈ other) :
    withoutPositions removed position cs = withoutPositions other position cs := by
  induction cs generalizing position with
  | nil => rfl
  | cons c cs ih =>
    have hpos := c.utf8Size_pos
    have hcs : withoutPositions removed (position + c.utf8Size) cs =
        withoutPositions other (position + c.utf8Size) cs := by
      refine ih fun k hk => ?_
      have hk := h (c.utf8Size + k) (by rw [byteLength_cons]; omega)
      rwa [← Nat.add_assoc] at hk
    have hc := h 0 (by rw [byteLength_cons]; omega)
    rw [Nat.add_zero] at hc
    simp only [withoutPositions, hcs, hc]

/-- A stretch of which nothing is taken out stays. -/
theorem withoutPositions_of_kept (h : ∀ k < byteLength cs, position + k ∉ removed) :
    withoutPositions removed position cs = cs := by
  induction cs generalizing position with
  | nil => rfl
  | cons c cs ih =>
    have hpos := c.utf8Size_pos
    have hc : position ∉ removed := h 0 (by rw [byteLength_cons]; omega)
    have hcs : ∀ k < byteLength cs, position + c.utf8Size + k ∉ removed := fun k hk => by
      rw [Nat.add_assoc]
      exact h _ (by rw [byteLength_cons]; omega)
    rw [withoutPositions, if_neg hc, ih hcs]

/-- A stretch of which all is taken out goes. -/
theorem withoutPositions_of_removed (h : ∀ k < byteLength cs, position + k ∈ removed) :
    withoutPositions removed position cs = [] := by
  induction cs generalizing position with
  | nil => rfl
  | cons c cs ih =>
    have hpos := c.utf8Size_pos
    have hc : position ∈ removed := h 0 (by rw [byteLength_cons]; omega)
    have hcs : ∀ k < byteLength cs, position + c.utf8Size + k ∈ removed := fun k hk => by
      rw [Nat.add_assoc]
      exact h _ (by rw [byteLength_cons]; omega)
    rw [withoutPositions, if_pos hc, ih hcs]

/-- The characters that are left are in the order in which they were. -/
theorem withoutPositions_sublist : (withoutPositions removed position cs).Sublist cs := by
  induction cs generalizing position with
  | nil => exact .slnil
  | cons c cs ih =>
    rw [withoutPositions]
    split
    · exact ih.cons c
    · exact ih.cons_cons c

/-! ### Characters that stay or go as a whole -/

/-- **No character is cut**: all positions of a character go, or none. -/
def TakesWhole (removed : Finset Nat) (position : Nat) : List Char → Prop
  | [] => True
  | c :: rest => (∀ k < c.utf8Size, position + k ∈ removed ↔ position ∈ removed) ∧
      TakesWhole removed (position + c.utf8Size) rest

theorem takesWhole_append :
    TakesWhole removed position (front ++ back) ↔
      TakesWhole removed position front ∧
        TakesWhole removed (position + byteLength front) back := by
  induction front generalizing position with
  | nil => simp [TakesWhole]
  | cons c front ih => simp only [List.cons_append, TakesWhole, ih, byteLength_cons, and_assoc,
      Nat.add_assoc]

theorem TakesWhole.congr (h : TakesWhole removed position cs)
    (hsame : ∀ k, position + k ∈ removed ↔ position + k ∈ other) :
    TakesWhole other position cs := by
  induction cs generalizing position with
  | nil => trivial
  | cons c cs ih =>
    obtain ⟨hc, hcs⟩ := h
    refine ⟨fun k hk => ?_, ih hcs fun k => ?_⟩
    · exact (hsame k).symm.trans ((hc k hk).trans (hsame 0))
    · rw [Nat.add_assoc]
      exact hsame _

/-- A stretch that stays or goes as a whole has no character that is cut. -/
theorem takesWhole_of_forall {p : Prop} (h : ∀ k < byteLength cs, position + k ∈ removed ↔ p) :
    TakesWhole removed position cs := by
  induction cs generalizing position with
  | nil => trivial
  | cons c cs ih =>
    have hpos := c.utf8Size_pos
    rw [byteLength_cons] at h
    have hc : position ∈ removed ↔ p := h 0 (by omega)
    refine ⟨fun k hk => (h k (by omega)).trans hc.symm, ih fun k hk => ?_⟩
    rw [Nat.add_assoc]
    exact h _ (by omega)

/-- **The text that is left is as long as its end has moved.** -/
theorem TakesWhole.movedPosition_add (h : TakesWhole removed position cs) :
    movedPosition removed (position + byteLength cs) =
      movedPosition removed position + byteLength (withoutPositions removed position cs) := by
  induction cs generalizing position with
  | nil => rfl
  | cons c cs ih =>
    obtain ⟨hc, hcs⟩ := h
    rw [byteLength_cons, ← Nat.add_assoc, ih hcs, withoutPositions]
    by_cases hremoved : position ∈ removed
    · rw [if_pos hremoved, movedPosition_add_of_removed fun k hk => (hc k hk).mpr hremoved]
    · rw [if_neg hremoved, movedPosition_add_of_kept fun k hk => mt (hc k hk).mp hremoved,
        byteLength_cons, Nat.add_assoc]

end Positions

/-! ### Gaps in a text -/

section Gaps

variable {removed : Finset Nat} {position x : Nat} {cs front : List Char} {p g : Piece}
  {ps qs gaps : List Piece}

theorem Laid.le_start (h : Laid position cs ps) (hp : p ∈ ps) : position ≤ p.start := by
  obtain ⟨before, -, -, hstart⟩ := h.exists_append hp
  exact hstart ▸ Nat.le_add_right _ _

/-- Some of the pieces stand in the text as well. -/
theorem Laid.sublist (h : Laid position cs ps) (hqs : qs.Sublist ps) : Laid position cs qs := by
  induction h generalizing qs with
  | nil =>
    rw [List.sublist_nil.mp hqs]
    exact .nil
  | @cons position lead after p ps hstart _ ih =>
    cases hqs with
    | cons _ hqs =>
      have hafter := ih hqs
      rw [Piece.stop, hstart, Nat.add_assoc, ← byteLength_append] at hafter
      rw [← List.append_assoc]
      exact hafter.append
    | cons_cons _ hqs => exact .cons hstart (ih hqs)

/-- What stands before all gaps belongs to none. -/
theorem not_mem_positionsOf_of_lt (h : ∀ g ∈ gaps, x < g.start) : x ∉ positionsOf gaps := by
  rw [mem_positionsOf]
  rintro ⟨g, hg, hstart, -⟩
  exact absurd hstart (h g hg).not_ge

theorem mem_positionsOf_cons_of_within (hstart : g.start ≤ x) (hstop : x < g.stop) :
    x ∈ positionsOf (g :: gaps) :=
  mem_positionsOf.mpr ⟨g, List.mem_cons_self, hstart, hstop⟩

/-- Behind the first gap the others count. -/
theorem mem_positionsOf_cons_of_stop_le (hx : g.stop ≤ x) :
    x ∈ positionsOf (g :: gaps) ↔ x ∈ positionsOf gaps := by
  rw [mem_positionsOf, mem_positionsOf, List.exists_mem_cons_iff]
  exact or_iff_right fun h => absurd h.2 hx.not_gt

/-- What stands before all gaps stays. -/
theorem foldr_eraseGap_front (h : ∀ g ∈ gaps, position + byteLength front ≤ g.start) :
    gaps.foldr (eraseGap · position) (front ++ cs) =
      front ++ gaps.foldr (eraseGap · (position + byteLength front)) cs := by
  induction gaps with
  | nil => rfl
  | cons g gaps ih =>
    obtain ⟨hg, hgaps⟩ := List.forall_mem_cons.mp h
    rw [List.foldr_cons, ih hgaps, eraseGap_append hg, List.foldr_cons]

/-- **To take out the gaps**, the last one first, is to take out their positions. No character is
cut. -/
theorem Laid.foldr_eraseGap (h : Laid position cs gaps) :
    gaps.foldr (eraseGap · position) cs = withoutPositions (positionsOf gaps) position cs ∧
      TakesWhole (positionsOf gaps) position cs := by
  induction h with
  | @nil position cs =>
    have hnone : ∀ k < byteLength cs, position + k ∈ positionsOf [] ↔ False := by simp [positionsOf]
    exact ⟨(withoutPositions_of_kept fun k hk => (hnone k hk).mp).symm, takesWhole_of_forall hnone⟩
  | @cons position lead after g gaps hstart hgaps ih =>
    have hstop : g.stop = position + byteLength lead + byteLength g.text.toList := by
      rw [Piece.stop, hstart]
    have hbehind : ∀ g' ∈ gaps, g.stop ≤ g'.start := fun g' hg' => hgaps.le_start hg'
    -- The positions of the gaps are none of those in front of the first gap, all that are in it,
    -- and behind it those of the others.
    have hlead : ∀ k < byteLength lead, position + k ∈ positionsOf (g :: gaps) ↔ False := by
      intro k hk
      rw [iff_false]
      refine not_mem_positionsOf_of_lt (List.forall_mem_cons.mpr ⟨by omega, fun g' hg' => ?_⟩)
      have hle := hbehind g' hg'
      omega
    have hgap : ∀ k < byteLength g.text.toList,
        position + byteLength lead + k ∈ positionsOf (g :: gaps) ↔ True := by
      intro k hk
      exact iff_true_intro (mem_positionsOf_cons_of_within (by omega) (by omega))
    have hafter : ∀ k, g.stop + k ∈ positionsOf gaps ↔ g.stop + k ∈ positionsOf (g :: gaps) :=
      fun k => (mem_positionsOf_cons_of_stop_le (Nat.le_add_right _ _)).symm
    have hfront : ∀ g' ∈ gaps, position + byteLength (lead ++ g.text.toList) ≤ g'.start := by
      intro g' hg'
      rw [byteLength_append, ← Nat.add_assoc, ← hstop]
      exact hbehind g' hg'
    refine ⟨?_, ?_⟩
    · calc (g :: gaps).foldr (eraseGap · position) (lead ++ (g.text.toList ++ after))
          = eraseGap g position (lead ++ (g.text.toList ++
              gaps.foldr (eraseGap · g.stop) after)) := by
            rw [List.foldr_cons, ← List.append_assoc, foldr_eraseGap_front hfront,
              byteLength_append, ← Nat.add_assoc, ← hstop, List.append_assoc]
        _ = lead ++ gaps.foldr (eraseGap · g.stop) after := by
            rw [eraseGap_append hstart.ge, eraseGap_within hstart.le hstop.ge,
              eraseGap_of_le hstop.le]
        _ = withoutPositions (positionsOf (g :: gaps)) position
              (lead ++ (g.text.toList ++ after)) := by
            rw [withoutPositions_append, withoutPositions_append,
              withoutPositions_of_kept fun k hk => (hlead k hk).mp,
              withoutPositions_of_removed fun k hk => (hgap k hk).mpr trivial, List.nil_append,
              ← hstop, ih.1, withoutPositions_congr fun k _ => hafter k]
    · rw [takesWhole_append, takesWhole_append, ← hstop]
      exact ⟨takesWhole_of_forall hlead, takesWhole_of_forall hgap, ih.2.congr hafter⟩

/-- In front of a gap a position stays where it is. -/
theorem shiftPosition_of_le_start (h : x ≤ g.start) : shiftPosition g x = x := by
  have hwidth : g.start ≤ g.stop := Nat.le_add_right _ _
  rw [shiftPosition]
  split
  · omega
  · exact if_neg h.not_gt

/-- In a gap a position goes to its start. -/
theorem shiftPosition_of_le_stop (hstart : g.start ≤ x) (hstop : x ≤ g.stop) :
    shiftPosition g x = g.start := by
  rw [shiftPosition]
  split
  · omega
  · split
    · rfl
    · omega

/-- In front of all gaps a position stays where it is. -/
theorem movedPosition_of_le_start (h : ∀ g ∈ gaps, x ≤ g.start) :
    movedPosition (positionsOf gaps) x = x := by
  have hkept : ∀ k < x, 0 + k ∉ positionsOf gaps := by
    intro k hk
    rw [Nat.zero_add]
    exact not_mem_positionsOf_of_lt fun g hg => hk.trans_le (h g hg)
  have hmoved := movedPosition_add_of_kept hkept
  rwa [movedPosition_zero, Nat.zero_add] at hmoved

/-- **One gap more in front**: it moves a position that the others have moved. -/
theorem shiftPosition_movedPosition (h : ∀ g' ∈ gaps, g.stop ≤ g'.start) (x : Nat) :
    shiftPosition g (movedPosition (positionsOf gaps) x) =
      movedPosition (positionsOf (g :: gaps)) x := by
  have hwidth : g.start ≤ g.stop := Nat.le_add_right _ _
  have hfront : ∀ {y}, y ≤ g.start → movedPosition (positionsOf (g :: gaps)) y = y := fun hy =>
    movedPosition_of_le_start (List.forall_mem_cons.mpr
      ⟨hy, fun g' hg' => (hy.trans hwidth).trans (h g' hg')⟩)
  have hwithin : ∀ {n}, n ≤ g.stop - g.start →
      movedPosition (positionsOf (g :: gaps)) (g.start + n) = g.start := by
    intro n hn
    have hremoved : ∀ k < n, g.start + k ∈ positionsOf (g :: gaps) := fun k hk =>
      mem_positionsOf_cons_of_within (Nat.le_add_right _ _) (by omega)
    rw [movedPosition_add_of_removed hremoved, hfront le_rfl]
  rcases le_total x g.stop with hx | hx
  · -- the other gaps leave the position alone
    rw [movedPosition_of_le_start fun g' hg' => hx.trans (h g' hg')]
    rcases le_total x g.start with hstart | hstart
    · rw [shiftPosition_of_le_start hstart, hfront hstart]
    · rw [shiftPosition_of_le_stop hstart hx]
      obtain ⟨n, rfl⟩ := Nat.exists_eq_add_of_le hstart
      exact (hwithin (by omega)).symm
  · -- it stays behind the first gap
    obtain ⟨n, rfl⟩ := Nat.exists_eq_add_of_le hx
    have hsame : ∀ k, g.stop + k ∈ positionsOf (g :: gaps) ↔ g.stop + k ∈ positionsOf gaps :=
      fun k => mem_positionsOf_cons_of_stop_le (Nat.le_add_right _ _)
    have hstop : movedPosition (positionsOf (g :: gaps)) g.stop = g.start := by
      rw [← hwithin le_rfl, Nat.add_sub_of_le hwidth]
    rw [movedPosition_add_eq, movedPosition_add_eq, movedPosition_of_le_start h, hstop]
    simp only [hsame]
    rw [shiftPosition, if_pos (Nat.le_add_right _ _)]
    omega

/-- **A position is moved by one gap after another**, the last one first, as all of them move
it. -/
theorem foldr_shiftPosition (h : gaps.Pairwise fun g g' => g.stop ≤ g'.start) (x : Nat) :
    gaps.foldr shiftPosition x = movedPosition (positionsOf gaps) x := by
  induction gaps with
  | nil => rfl
  | cons g gaps ih =>
    obtain ⟨hg, hgaps⟩ := List.pairwise_cons.mp h
    rw [List.foldr_cons, ih hgaps, shiftPosition_movedPosition hg]

/-- The text and the two ends of the selection go their own ways. -/
theorem foldr_takeOut (gaps : List Piece) (cs : List Char) (selection : Selection) :
    gaps.foldr (fun gap (edited : List Char × Selection) =>
        (eraseGap gap 0 edited.1, edited.2.shift gap)) (cs, selection) =
      (gaps.foldr (eraseGap · 0) cs,
        ⟨gaps.foldr shiftPosition selection.anchor, gaps.foldr shiftPosition selection.focus⟩) := by
  induction gaps with
  | nil => rfl
  | cons g gaps ih =>
    rw [List.foldr_cons, ih]
    rfl

/-- A gap covers blanks, so only blanks are at the positions of gaps. -/
theorem Laid.isBlank_of_mem_positionsOf {rear : List Char} {c : Char} (h : Laid position cs gaps)
    (hblanks : ∀ g ∈ gaps, Blanks g.text.toList) (hcs : cs = front ++ c :: rear)
    (hmem : position + byteLength front ∈ positionsOf gaps) : isBlank c = true := by
  obtain ⟨g, hg, hstart, hstop⟩ := mem_positionsOf.mp hmem
  obtain ⟨before, after, happend, hbefore⟩ := h.exists_append hg
  rw [Piece.stop, hbefore] at hstop
  rw [hbefore] at hstart
  obtain ⟨mid, rfl, hmid⟩ :=
    exists_append_of_byteLength_le (happend.symm.trans hcs) (by omega)
  rw [byteLength_append] at hstop
  obtain ⟨tail, htail, hrear⟩ := exists_append_of_byteLength_le hmid.symm (by omega)
  rcases tail with _ | ⟨d, tail⟩
  · rw [htail, List.append_nil] at hstop
    omega
  · obtain ⟨rfl, -⟩ := List.cons.inj hrear
    refine hblanks g hg c ?_
    rw [htail]
    exact List.mem_append_right _ List.mem_cons_self

end Gaps

/-! ### The repair -/

/-- **A gap is stranded** between a key with its comparison and a name that is being typed. -/
structure Stranded (key gap name : Piece) : Prop where
  /-- A gap stands between two chunks. -/
  kinds : key.kind = .chunk ∧ gap.kind = .gap ∧ name.kind = .chunk
  /-- The first one is a key and a comparison. -/
  dangling : isDanglingKey key.text = true
  /-- The second one is a name. -/
  fragment : isNameFragment name.text = true

/-- The byte positions of the gaps that the repair takes out. -/
def strandedPositions (text : String) : Finset Nat :=
  positionsOf (strandedGaps (pieces text))

/-- **Taking out positions**: what a text is before and after, when the characters at the given
byte positions are taken out of it. -/
structure TakesOut (removed : Finset Nat) (before after : List Char) : Prop where
  /-- The text loses these characters. -/
  eq : after = withoutPositions removed 0 before
  /-- Each is taken out as a whole. -/
  whole : TakesWhole removed 0 before
  /-- Nothing is taken out behind the end. -/
  within : ∀ x ∈ removed, x < byteLength before
  /-- Only blanks are taken out. -/
  blank (front : List Char) (c : Char) (rear : List Char) : before = front ++ c :: rear →
    byteLength front ∈ removed → isBlank c = true
  /-- The others are all there, in the order in which they were. -/
  nonblank : after.filter (!isBlank ·) = before.filter (!isBlank ·)
  /-- What is left is in order. -/
  sublist : after.Sublist before
  /-- Two positions stay in order. -/
  monotone : Monotone (movedPosition removed)
  /-- A position in the text stays in it. -/
  inBounds : ∀ x ≤ byteLength before, movedPosition removed x ≤ byteLength after
  /-- A border between two characters goes to the border between what is left of the text before
  it and what is left of the text after it. -/
  border (front rear : List Char) : before = front ++ rear →
    cutAtByte? (movedPosition removed (byteLength front)) after =
      some (withoutPositions removed 0 front, withoutPositions removed (byteLength front) rear)

section Repair

variable {removed : Finset Nat} {position : Nat} {cs : List Char} {g : Piece} {ps gaps : List Piece}

/-- **Which gaps are taken out**: those that are stranded between their neighbours. -/
theorem mem_strandedGaps_iff :
    g ∈ strandedGaps ps ↔ ∃ key name, [key, g, name] <:+: ps ∧ Stranded key g name := by
  fun_induction strandedGaps ps with
  | case1 p g' q rest hstranded ih =>
    simp only [Bool.and_eq_true, beq_iff_eq] at hstranded
    obtain ⟨⟨⟨⟨hp, hg⟩, hq⟩, hdangling⟩, hfragment⟩ := hstranded
    rw [List.mem_cons, ih]
    constructor
    · rintro (rfl | ⟨key, name, htriple, hstranded⟩)
      · exact ⟨p, q, ⟨[], rest, rfl⟩, ⟨hp, hg, hq⟩, hdangling, hfragment⟩
      · exact ⟨key, name, htriple.trans (List.suffix_cons _ _).isInfix, hstranded⟩
    · rintro ⟨key, name, htriple, hstranded⟩
      rcases List.infix_cons_iff.mp htriple with hfirst | hlater
      · simp only [List.cons_prefix_cons] at hfirst
        exact .inl hfirst.2.1
      · exact .inr ⟨key, name, hlater, hstranded⟩
  | case2 p g' q rest hstranded ih =>
    rw [ih]
    constructor
    · rintro ⟨key, name, htriple, hstranded⟩
      exact ⟨key, name, htriple.trans (List.suffix_cons _ _).isInfix, hstranded⟩
    · rintro ⟨key, name, htriple, hother⟩
      rcases List.infix_cons_iff.mp htriple with hfirst | hlater
      · simp only [List.cons_prefix_cons] at hfirst
        obtain ⟨rfl, rfl, rfl, -⟩ := hfirst
        obtain ⟨⟨hkey, hgap, hname⟩, hdangling, hfragment⟩ := hother
        exact absurd (by simp [hkey, hgap, hname, hdangling, hfragment]) hstranded
      · exact ⟨key, name, hlater, hother⟩
  | case3 ps hother =>
    refine iff_of_false List.not_mem_nil ?_
    rintro ⟨key, name, ⟨front, rear, rfl⟩, -⟩
    rcases front with _ | ⟨p, _ | ⟨q, _ | ⟨r, front⟩⟩⟩ <;> exact hother _ _ _ _ rfl

/-- **Which positions are taken out**: those of the stranded gaps. -/
theorem mem_strandedPositions_iff {text : String} {x : Nat} :
    x ∈ strandedPositions text ↔ ∃ key gap name, [key, gap, name] <:+: pieces text ∧
      Stranded key gap name ∧ gap.start ≤ x ∧ x < gap.stop := by
  rw [strandedPositions, mem_positionsOf]
  constructor
  · rintro ⟨gap, hgap, hstart, hstop⟩
    obtain ⟨key, name, htriple, hstranded⟩ := mem_strandedGaps_iff.mp hgap
    exact ⟨key, gap, name, htriple, hstranded, hstart, hstop⟩
  · rintro ⟨key, gap, name, htriple, hstranded, hstart, hstop⟩
    exact ⟨gap, mem_strandedGaps_iff.mpr ⟨key, name, htriple, hstranded⟩, hstart, hstop⟩

/-- Only characters of one class are taken out, so the others are what they were. -/
theorem filter_withoutPositions {p : Char → Bool} (h : ∀ front c rear, cs = front ++ c :: rear →
      position + byteLength front ∈ removed → p c = false) :
    (withoutPositions removed position cs).filter p = cs.filter p := by
  induction cs generalizing position with
  | nil => rfl
  | cons c cs ih =>
    have hcs : (withoutPositions removed (position + c.utf8Size) cs).filter p = cs.filter p := by
      refine ih fun front d rear happend hmem => ?_
      rw [Nat.add_assoc, ← byteLength_cons] at hmem
      exact h (c :: front) d rear (by rw [happend, List.cons_append]) hmem
    rw [withoutPositions]
    split
    · rename_i hremoved
      rw [List.filter_cons_of_neg (by simp [h [] c cs rfl hremoved]), hcs]
    · rw [List.filter_cons, List.filter_cons, hcs]

theorem fallsInto_pieces (text : String) : FallsInto none 0 text.toList (pieces text) :=
  fallsInto_of_piecesFrom (fun k hk => by cases hk) (piecesFrom_pieces text)

/-- **Gaps that stand in a text are taken out of it.** -/
theorem Laid.takesOut (h : Laid 0 cs gaps) (hblanks : ∀ g ∈ gaps, Blanks g.text.toList) :
    TakesOut (positionsOf gaps) cs (withoutPositions (positionsOf gaps) 0 cs) := by
  have hwhole := h.foldr_eraseGap.2
  have hblank : ∀ front c rear, cs = front ++ c :: rear →
      0 + byteLength front ∈ positionsOf gaps → isBlank c = true :=
    fun front c rear => h.isBlank_of_mem_positionsOf hblanks
  have hborder : ∀ front rear, cs = front ++ rear →
      movedPosition (positionsOf gaps) (byteLength front) =
        byteLength (withoutPositions (positionsOf gaps) 0 front) := by
    rintro front rear rfl
    have hmoved := (takesWhole_append.mp hwhole).1.movedPosition_add
    rwa [movedPosition_zero, Nat.zero_add, Nat.zero_add] at hmoved
  refine ⟨rfl, hwhole, fun x hx => ?_, fun front c rear hcs hmem => ?_, ?_,
    withoutPositions_sublist, movedPosition_mono _, fun x hx => ?_, ?_⟩
  · obtain ⟨g, hg, -, hstop⟩ := mem_positionsOf.mp hx
    obtain ⟨before, after, rfl, hbefore⟩ := h.exists_append hg
    rw [Piece.stop, hbefore] at hstop
    rw [byteLength_append, byteLength_append]
    omega
  · exact hblank front c rear hcs (by rwa [Nat.zero_add])
  · exact filter_withoutPositions fun front c rear hcs hmem => by
      rw [hblank front c rear hcs hmem]
      rfl
  · rw [← hborder cs [] (List.append_nil cs).symm]
    exact movedPosition_mono _ hx
  · intro front rear hcs
    rw [hborder front rear hcs, hcs, withoutPositions_append, Nat.zero_add]
    exact cutAtByte?_append _ _

theorem laid_strandedGaps (text : String) :
    Laid 0 text.toList (strandedGaps (pieces text)) :=
  (laid_pieces text).sublist ((strandedGaps_sublist _).trans (List.tail_sublist _))

/-- A stranded gap covers blanks only. -/
theorem blanks_of_mem_strandedGaps {text : String} (hg : g ∈ strandedGaps (pieces text)) :
    Blanks g.text.toList := by
  obtain ⟨key, name, htriple, hstranded⟩ := mem_strandedGaps_iff.mp hg
  have hcovers := ((fallsInto_pieces text).covers (htriple.subset (by simp : g ∈ [key, g, name]))).2
  rwa [hstranded.kinds.2.1] at hcovers

/-- **The repair at once**, and not gap by gap. -/
theorem repair_eq (text : String) (selection : Selection) :
    repair text selection =
      (String.ofList (withoutPositions (strandedPositions text) 0 text.toList),
        ⟨movedPosition (strandedPositions text) selection.anchor,
          movedPosition (strandedPositions text) selection.focus⟩) := by
  have hlaid := laid_strandedGaps text
  rw [repair, foldr_takeOut, hlaid.foldr_eraseGap.1, foldr_shiftPosition hlaid.pairwise,
    foldr_shiftPosition hlaid.pairwise]
  rfl

/-- **The repair takes out the stranded gaps and nothing else**, and it moves both ends of the
selection, wherever they are, to the left by the number of positions that are taken out below
them. -/
theorem repair_removes (text : String) (selection : Selection) :
    (∀ x, x ∈ strandedPositions text ↔ ∃ key gap name, [key, gap, name] <:+: pieces text ∧
      Stranded key gap name ∧ gap.start ≤ x ∧ x < gap.stop) ∧
    TakesOut (strandedPositions text) text.toList (repair text selection).1.toList ∧
    (repair text selection).2 = ⟨movedPosition (strandedPositions text) selection.anchor,
      movedPosition (strandedPositions text) selection.focus⟩ := by
  refine ⟨fun x => mem_strandedPositions_iff, ?_, ?_⟩
  · rw [repair_eq, String.toList_ofList]
    exact (laid_strandedGaps text).takesOut fun g hg => blanks_of_mem_strandedGaps hg
  · rw [repair_eq]

/-- Two gaps are taken out, and a cursor in the second one goes to its start. -/
example : repair "t: a t:  b" ⟨10, 8⟩ = ("t:a t:b", ⟨7, 6⟩) := by decide +kernel

end Repair

end CardFilter.Draft
