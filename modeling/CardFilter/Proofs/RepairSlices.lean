import CardFilter.Draft.Repair
import CardFilter.Proofs.DraftSlices

/-!
# The repair in slices

The repair looks at three pieces at a time, reads the outer two, and takes the middle one out of
the text by its positions; the two positions of the selection move to the left by what was taken
out before them. This file writes it in slices (`CardFilter.Draft.repairInBytes?`) and shows that
none of them fails and that the outcome is that of `CardFilter.Draft.repair`, wherever the
selection is (`CardFilter.Draft.repairInBytes?_eq`).

The positions of the gaps are those of the text before the repair. They hold good because the last
gap is taken out first: what has been taken out so far stands to the right of the gaps that are
still to come, and the text up to their end is as it was
(`CardFilter.Draft.foldr_eraseGap_append`).
-/

namespace CardFilter.Draft

/-! ### The repair -/

/-- The draft is a key and a complete comparison, with nothing after it. -/
def Term.isDangling (t : Term) : Bool :=
  match t.content with
  | .keyed _ (.complete _) (.bare value) => value.toList.isEmpty
  | _ => false

/-- The draft is a name being typed. -/
def Term.isFragment (t : Term) : Bool :=
  !t.negated && match t.content with
    | .name false (.bare _) | .name false (.unterminated _ _) => true
    | _ => false

/-- The draft term between two positions of a text. -/
def Stretch.term? (s : Stretch) (text : List Char) : Option Term := do
  let cs ← s.text? text
  Term.ofTextInBytes? (String.ofList cs)

/-- The gaps to take out, in text order. -/
def strandedInBytes? (text : List Char) : List Stretch → Option (List Stretch)
  | p :: g :: q :: rest => do
    let following ← strandedInBytes? text (g :: q :: rest)
    if p.kind == .chunk && g.kind == .gap && q.kind == .chunk then
      let key ← p.term? text
      if key.isDangling then
        let name ← q.term? text
        some (if name.isFragment then g :: following else following)
      else some following
    else some following
  | _ => some []

/-- A byte position after a gap has been taken out. -/
def shiftInBytes? (gap : Stretch) (position : Nat) : Option Nat :=
  if gap.stop ≤ position then minus? position (gap.stop - gap.start)
  else if gap.start < position then some gap.start
  else some position

/-- The text and the selection after a gap has been taken out. -/
def takeOut? (gap : Stretch) (edited : List Char × Selection) :
    Option (List Char × Selection) := do
  let cs ← textWithout? gap.start gap.stop edited.1
  let anchor ← shiftInBytes? gap edited.2.anchor
  let focus ← shiftInBytes? gap edited.2.focus
  some (cs, ⟨anchor, focus⟩)

/-- The repair of a text. -/
def repairInBytes? (text : String) (selection : Selection) : Option (String × Selection) := do
  let found ← stretches? text.toList
  let gaps ← strandedInBytes? text.toList found
  let (cs, selection) ← gaps.foldrM takeOut? (text.toList, selection)
  some (String.ofList cs, selection)

/-! ### Stranded gaps -/

section Gaps

variable {text : List Char} {ps : List Piece}

theorem term?_stretch {p : Piece} (h : Laid 0 text ps) (hp : p ∈ ps) :
    p.stretch.term? text = some (Term.ofText p.text) := by
  rw [Stretch.term?, text?_stretch h hp]
  simp only [Option.bind_eq_bind, Option.bind_some, String.ofList_toList]
  exact Term.ofTextInBytes?_eq p.text

/-- **The same gaps are found.** -/
theorem strandedInBytes?_eq (h : ∀ p ∈ ps, p.stretch.term? text = some (Term.ofText p.text)) :
    strandedInBytes? text (ps.map Piece.stretch) =
      some ((strandedGaps ps).map Piece.stretch) := by
  fun_induction strandedGaps ps with
  | case1 p g q rest hstranded ih
  | case2 p g q rest hstranded ih =>
    have hp := h p List.mem_cons_self
    have hq := h q (by simp)
    have hrest := ih fun r hr => h r (List.mem_cons_of_mem _ hr)
    rw [List.map_cons, List.map_cons, List.map_cons, strandedInBytes?, ← List.map_cons,
      ← List.map_cons, hrest, hp, hq]
    simp only [Option.bind_eq_bind, Option.bind_some]
    change (if (p.kind == .chunk && g.kind == .gap && q.kind == .chunk) = true then
      if isDanglingKey p.text = true then some (if isNameFragment q.text = true then _ else _)
      else _ else _) = _
    grind
  | case3 ps hother =>
    rcases ps with _ | ⟨p, _ | ⟨g, _ | ⟨q, rest⟩⟩⟩
    · rfl
    · rfl
    · rfl
    · exact absurd rfl (hother p g q rest)

/-- A stranded gap is a piece, and not the first one. -/
theorem strandedGaps_sublist (ps : List Piece) : (strandedGaps ps).Sublist ps.tail := by
  fun_induction strandedGaps ps with
  | case1 p g q rest hstranded ih => exact ih.cons_cons g
  | case2 p g q rest hstranded ih => exact ih.trans (List.tail_sublist _)
  | case3 => exact List.nil_sublist _

end Gaps

/-! ### Taking out a gap -/

section TakeOut

variable {gap : Piece} {gaps : List Piece} {front back mid cs text : List Char} {position : Nat}
  {selection : Selection}

/-- What stands before the gap stays. -/
theorem eraseGap_append (h : position + byteLength front ≤ gap.start) :
    eraseGap gap position (front ++ cs) =
      front ++ eraseGap gap (position + byteLength front) cs := by
  induction front generalizing position with
  | nil => rfl
  | cons c front ih =>
    rw [byteLength_cons] at h
    have hpos := c.utf8Size_pos
    have houtside : ¬(gap.start ≤ position ∧ position < gap.stop) := by omega
    rw [List.cons_append, eraseGap]
    simp only [Bool.and_eq_true, decide_eq_true_eq, houtside, if_false]
    rw [ih (by omega), byteLength_cons, Nat.add_assoc, List.cons_append]

/-- What stands in the gap goes. -/
theorem eraseGap_within (hstart : gap.start ≤ position)
    (hstop : position + byteLength mid ≤ gap.stop) :
    eraseGap gap position (mid ++ cs) = eraseGap gap (position + byteLength mid) cs := by
  induction mid generalizing position with
  | nil => rfl
  | cons c mid ih =>
    rw [byteLength_cons] at hstop
    have hpos := c.utf8Size_pos
    have hinside : gap.start ≤ position ∧ position < gap.stop := by omega
    rw [List.cons_append, eraseGap]
    simp only [Bool.and_eq_true, decide_eq_true_eq, hinside, and_self, if_true]
    rw [ih (by omega) (by omega), byteLength_cons, Nat.add_assoc]

/-- What stands behind the gap stays. -/
theorem eraseGap_of_le (h : gap.stop ≤ position) : eraseGap gap position cs = cs := by
  induction cs generalizing position with
  | nil => rfl
  | cons c cs ih =>
    have houtside : ¬(gap.start ≤ position ∧ position < gap.stop) := by omega
    rw [eraseGap]
    simp only [Bool.and_eq_true, decide_eq_true_eq, houtside, if_false]
    rw [ih (by omega)]

/-- **A gap is taken out**, and nothing else. -/
theorem eraseGap_eq (h : gap.start = byteLength front) :
    eraseGap gap 0 (front ++ (gap.text.toList ++ back)) = front ++ back := by
  have hstop : gap.stop = byteLength front + byteLength gap.text.toList := by
    rw [Piece.stop, h]
  rw [eraseGap_append (by omega), eraseGap_within (by omega) (by omega),
    eraseGap_of_le (by omega)]

theorem shiftInBytes?_eq (position : Nat) :
    shiftInBytes? gap.stretch position = some (shiftPosition gap position) := by
  change (if gap.stop ≤ position then minus? position (gap.stop - gap.start)
    else if gap.start < position then some gap.start else some position) = _
  rw [shiftPosition]
  by_cases hstop : gap.stop ≤ position
  · rw [if_pos hstop, if_pos hstop, minus?_of_le (by omega)]
  · rw [if_neg hstop, if_neg hstop]
    split <;> rfl

/-- **The slice of a gap is there** when the text up to its end is as it was. -/
theorem takeOut?_eq (h : gap.start = byteLength front) :
    takeOut? gap.stretch (front ++ (gap.text.toList ++ back), selection) =
      some (eraseGap gap 0 (front ++ (gap.text.toList ++ back)), selection.shift gap) := by
  have hcut : textWithout? gap.stretch.start gap.stretch.stop
      (front ++ (gap.text.toList ++ back)) = some (front ++ back) := by
    rw [Piece.stretch, Piece.stop, h, textWithout?_append]
  rw [takeOut?, hcut, eraseGap_eq h]
  simp only [Option.bind_eq_bind, Option.bind_some, shiftInBytes?_eq]
  rfl

/-- **The text before all gaps stays** when they are taken out. -/
theorem foldr_eraseGap_append (back : List Char) (selection : Selection)
    (h : ∀ g ∈ gaps, byteLength front ≤ g.start) :
    ∃ rear, (gaps.foldr (fun gap (edited : List Char × Selection) =>
      (eraseGap gap 0 edited.1, edited.2.shift gap)) (front ++ back, selection)).1 =
        front ++ rear := by
  induction gaps with
  | nil => exact ⟨back, rfl⟩
  | cons g gaps ih =>
    obtain ⟨hg, hgaps⟩ := List.forall_mem_cons.mp h
    obtain ⟨rear, hrear⟩ := ih hgaps
    refine ⟨eraseGap g (0 + byteLength front) rear, ?_⟩
    rw [List.foldr_cons]
    simp only [hrear]
    exact eraseGap_append (by omega)

/-- **All gaps are taken out**, the last one first. -/
theorem foldrM_takeOut?_eq
    (hlaid : ∀ g ∈ gaps, ∃ front back, text = front ++ (g.text.toList ++ back) ∧
      g.start = byteLength front)
    (hpairwise : gaps.Pairwise fun g g' => g.stop ≤ g'.start) :
    (gaps.map Piece.stretch).foldrM takeOut? (text, selection) =
      some (gaps.foldr (fun gap (edited : List Char × Selection) =>
        (eraseGap gap 0 edited.1, edited.2.shift gap)) (text, selection)) := by
  induction gaps with
  | nil => rfl
  | cons g gaps ih =>
    obtain ⟨⟨front, back, htext, hstart⟩, hgaps⟩ := List.forall_mem_cons.mp hlaid
    obtain ⟨hg, hpairwise⟩ := List.pairwise_cons.mp hpairwise
    rw [List.map_cons, List.foldrM_cons, ih hgaps hpairwise, List.foldr_cons]
    simp only [Option.bind_eq_bind, Option.bind_some]
    -- up to the end of the first gap the text is as it was
    have hbefore : ∀ g' ∈ gaps, byteLength (front ++ g.text.toList) ≤ g'.start := by
      intro g' hg'
      rw [byteLength_append, ← hstart]
      exact hg g' hg'
    obtain ⟨rear, hrear⟩ := foldr_eraseGap_append back selection hbefore
    rw [List.append_assoc, List.append_assoc, ← htext] at hrear
    generalize gaps.foldr _ (text, selection) = edited at hrear ⊢
    obtain ⟨cs, moved⟩ := edited
    obtain rfl : cs = front ++ (g.text.toList ++ rear) := hrear
    exact takeOut?_eq hstart

/-- **The repair in slices**, wherever the selection is. -/
theorem repairInBytes?_eq (text : String) (selection : Selection) :
    repairInBytes? text selection = some (repair text selection) := by
  have hlaid := laid_pieces text
  have hsublist : (strandedGaps (pieces text)).Sublist (pieces text) :=
    (strandedGaps_sublist _).trans (List.tail_sublist _)
  have hgaps : ∀ g ∈ strandedGaps (pieces text), ∃ front back,
      text.toList = front ++ (g.text.toList ++ back) ∧ g.start = byteLength front := by
    intro g hg
    obtain ⟨front, back, htext, hstart⟩ := hlaid.exists_append (hsublist.subset hg)
    exact ⟨front, back, htext, by rw [hstart, Nat.zero_add]⟩
  rw [repairInBytes?, repair, stretches?_eq]
  simp only [Option.bind_eq_bind, Option.bind_some]
  rw [strandedInBytes?_eq fun p hp => term?_stretch hlaid hp]
  simp only [Option.bind_some]
  rw [foldrM_takeOut?_eq hgaps (hlaid.pairwise.sublist hsublist)]
  rfl

end TakeOut

end CardFilter.Draft
