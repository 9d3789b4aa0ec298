import CardFilter.Proofs.Gluing

/-!
# Repairing twice

The repair looks for stranded gaps in the text as it stands, and does not look again at what it has
glued. This file says when that matters: when a second repair changes the text once more
(`CardFilter.Draft.repair_repair`).

* **A glued chunk is a key with its comparison** in one case only: the comparison is `<` or `>`,
  and what was glued to it is the single character `=`, which has been taken for a name
  (`CardFilter.Draft.isDanglingKey_append_iff`). The comparison is then `<=` or `>=`.
* **A glued chunk is never a name**, so a gap that is stranded after the repair follows such a
  chunk, and has stood in the text with the name behind it
  (`CardFilter.Draft.exists_of_stranded_glue`).
* **No symbol is longer** than these two, so the second repair leaves nothing to a third one.
-/

namespace CardFilter.Draft

/-! ### Keys that a glued name completes -/

section Key

variable {key name : String}

/-- The comparison at the end of a key can be prolonged. -/
def EndsProlongable (key : String) : Prop :=
  key.toList.getLast? = some '<' ∨ key.toList.getLast? = some '>'

theorem ProlongsKey.exists_eq_append (h : ProlongsKey key name) :
    ∃ tail, name = "=" ++ tail := by
  obtain ⟨tail, htail⟩ := List.head?_eq_some_iff.mp h.2
  refine ⟨String.ofList tail, ?_⟩
  rw [← String.toList_inj, htail]
  simp

/-- A name that does not prolong the comparison is its value, and then something follows it. -/
theorem isDanglingKey_append_eq_false (h : isDanglingKey key = true) (hne : name ≠ "")
    (hname : ¬ProlongsKey key name) : isDanglingKey (key ++ name) = false := by
  obtain ⟨spelling, c, -, hterm⟩ := Term.ofText_append_of_isDanglingKey h hname
  rw [isDanglingKey, hterm]
  split
  · rename_i value hvalue
    obtain ⟨-, -, hchars⟩ := Content.keyed.inj hvalue
    obtain ⟨hvalue, -⟩ := Text.ofChars_eq_iff.mp hchars
    rw [← hvalue, List.isEmpty_eq_false_iff]
    exact mt String.toList_eq_nil_iff.mp hne
  · rfl

/-- **The mark `=` prolongs a comparison**, and no further. -/
theorem isDanglingKey_append_mark (h : isDanglingKey key = true) (hends : EndsProlongable key) :
    isDanglingKey (key ++ "=") = true ∧ ¬EndsProlongable (key ++ "=") := by
  refine ⟨?_, by simp [EndsProlongable]⟩
  obtain ⟨word, c, hkey, hword, ⟨k, hlookup⟩, -⟩ := exists_of_isDanglingKey h
  obtain ⟨longer, hlonger⟩ : ∃ longer : Comparison, c.chars ++ ['='] = longer.chars := by
    rw [EndsProlongable, hkey] at hends
    cases c with
    | less => exact ⟨.lessOrEqual, rfl⟩
    | greater => exact ⟨.greaterOrEqual, rfl⟩
    | including | equal | notEqual | lessOrEqual | greaterOrEqual =>
      simp [Comparison.chars] at hends
  have happend : key ++ "=" = String.ofList
      (negationChars (Term.ofText key).negated ++ (word ++ (longer.chars ++ []))) := by
    rw [← String.ofList_toList (s := key ++ "="), String.toList_append, hkey, ← hlonger]
    simp
  rw [isDanglingKey, happend, Term.ofText_keyed hword hlookup (by simp)]
  rfl

/-- **When a glued chunk is a key with its comparison.** -/
theorem isDanglingKey_append_iff (h : isDanglingKey key = true) (hne : name ≠ "") :
    isDanglingKey (key ++ name) = true ↔ EndsProlongable key ∧ name = "=" := by
  constructor
  · intro hglued
    have hprolongs : ProlongsKey key name := by
      by_contra hname
      rw [isDanglingKey_append_eq_false h hne hname] at hglued
      cases hglued
    obtain ⟨tail, rfl⟩ := hprolongs.exists_eq_append
    obtain ⟨hlonger, hstops⟩ := isDanglingKey_append_mark h hprolongs.1
    refine ⟨hprolongs.1, ?_⟩
    -- what is left of the name is the value of the longer comparison
    by_contra htail
    have hne : tail ≠ "" := fun hnil => htail (by rw [hnil, String.append_empty])
    rw [← String.append_assoc,
      isDanglingKey_append_eq_false hlonger hne fun h => hstops h.1] at hglued
    cases hglued
  · rintro ⟨hends, rfl⟩
    exact (isDanglingKey_append_mark h hends).1

/-- **A key with a comparison is no name**, whatever is glued to it. -/
theorem isNameFragment_append_eq_false (h : isDanglingKey key = true) (name : String) :
    isNameFragment (key ++ name) = false := by
  have hkeyed : ∀ {key name : String}, isDanglingKey key = true → ¬ProlongsKey key name →
      isNameFragment (key ++ name) = false := by
    intro key name h hname
    obtain ⟨spelling, c, -, hterm⟩ := Term.ofText_append_of_isDanglingKey h hname
    rw [isNameFragment, hterm]
    simp
  by_cases hprolongs : ProlongsKey key name
  · obtain ⟨tail, rfl⟩ := hprolongs.exists_eq_append
    obtain ⟨hlonger, hstops⟩ := isDanglingKey_append_mark h hprolongs.1
    rw [← String.append_assoc]
    exact hkeyed hlonger fun h => hstops h.1
  · exact hkeyed h hprolongs

end Key

/-! ### Gaps that are stranded after the repair -/

/-- **A gap is stranded by the repair**: the name behind the gap before it is the single character
`=`, which ends the comparison of the key as soon as it is glued, and a name follows. -/
structure StrandsNext (key gap mark later name : Piece) : Prop where
  /-- The gap before it is stranded. -/
  stranded : Stranded key gap mark
  /-- The comparison can be prolonged. -/
  ends : EndsProlongable key.text
  /-- What is glued prolongs it, and nothing more. -/
  mark_eq : mark.text = "="
  /-- The gap stands between two chunks. -/
  kinds : later.kind = .gap ∧ name.kind = .chunk
  /-- The second one is a name. -/
  fragment : isNameFragment name.text = true

/-- The key with the name glued to it. -/
def gluedChunk (key name : Piece) : Piece :=
  ⟨.chunk, key.start, key.text ++ name.text⟩

section Glue

variable {key gap mark later name p : Piece} {ps qs : List Piece}

/-- **What the first glued piece is made of**: itself, or a key and a name with a stranded gap
between them. -/
theorem exists_of_glue_eq_cons (h : glue ps = p :: qs) :
    (∃ rest, ps = p :: rest ∧ glue rest = qs ∧
      ∀ gap name after, rest = gap :: name :: after → ¬Stranded p gap name) ∨
    ∃ key gap name rest, ps = key :: gap :: name :: rest ∧ Stranded key gap name ∧
      p = gluedChunk key name ∧ glue rest = qs := by
  rcases ps with _ | ⟨first, rest⟩
  · cases h
  by_cases hstranded : ∃ gap name after, rest = gap :: name :: after ∧ Stranded first gap name
  · obtain ⟨gap, name, after, rfl, hstranded⟩ := hstranded
    rw [glue_of_stranded hstranded] at h
    obtain ⟨rfl, rfl⟩ := List.cons.inj h
    exact .inr ⟨first, gap, name, after, rfl, hstranded, rfl, rfl⟩
  · push Not at hstranded
    rw [glue_cons hstranded] at h
    obtain ⟨rfl, rfl⟩ := List.cons.inj h
    exact .inl ⟨rest, rfl, rfl, hstranded⟩

/-- The last glued pieces are made of the last pieces. -/
theorem exists_suffix_of_glue {front : List Piece} (h : glue ps = front ++ qs) :
    ∃ rear, rear <:+ ps ∧ glue rear = qs := by
  induction front generalizing ps with
  | nil => exact ⟨ps, List.suffix_rfl, h⟩
  | cons p front ih =>
    rcases exists_of_glue_eq_cons h with
      ⟨rest, rfl, hrest, -⟩ | ⟨key, gap, name, rest, rfl, -, -, hrest⟩
    · obtain ⟨rear, hrear, hglue⟩ := ih hrest
      exact ⟨rear, hrear.trans (List.suffix_cons _ _), hglue⟩
    · obtain ⟨rear, hrear, hglue⟩ := ih hrest
      exact ⟨rear, hrear.trans ⟨[key, gap, name], rfl⟩, hglue⟩

/-- A gap and a name that follow a glued piece have not been glued themselves. -/
theorem exists_of_glue_eq_gap_name (h : glue ps = later :: name :: qs) (hlater : later.kind = .gap)
    (hname : isNameFragment name.text = true) : ∃ rest, ps = later :: name :: rest := by
  rcases exists_of_glue_eq_cons h with ⟨rest, rfl, hrest, -⟩ | ⟨key, gap, mark, rest, -, -, rfl, -⟩
  swap
  · cases hlater
  rcases exists_of_glue_eq_cons hrest with
    ⟨rest, rfl, -⟩ | ⟨key, gap, mark, -, -, hstranded, rfl, -⟩
  swap
  · rw [gluedChunk, isNameFragment_append_eq_false hstranded.dangling] at hname
    cases hname
  exact ⟨rest, rfl⟩

/-- **A gap that is stranded after the repair** follows a chunk that was glued to the mark `=`. -/
theorem exists_of_stranded_glue (hne : ∀ q ∈ ps, q.text ≠ "")
    (htriple : [p, later, name] <:+: glue ps) (h : Stranded p later name) :
    ∃ key gap mark, p = gluedChunk key mark ∧ [key, gap, mark, later, name] <:+: ps ∧
      StrandsNext key gap mark later name := by
  obtain ⟨-, hlater, hname⟩ := h.kinds
  obtain ⟨front, after, heq⟩ := htriple
  rw [List.append_assoc] at heq
  obtain ⟨rear, hrear, hglue⟩ := exists_suffix_of_glue heq.symm
  rcases exists_of_glue_eq_cons hglue with
    ⟨rest, rfl, hrest, hother⟩ | ⟨key, gap, mark, rest, rfl, hstranded, rfl, hrest⟩
  · obtain ⟨rest, rfl⟩ := exists_of_glue_eq_gap_name hrest hlater h.fragment
    exact absurd h (hother later name rest rfl)
  · obtain ⟨rest, rfl⟩ := exists_of_glue_eq_gap_name hrest hlater h.fragment
    obtain ⟨hends, hmark⟩ := (isDanglingKey_append_iff hstranded.dangling
      (hne mark (hrear.subset (by simp)))).mp h.dangling
    have hpieces : [key, gap, mark, later, name] <:+: key :: gap :: mark :: later :: name :: rest :=
      ⟨[], rest, rfl⟩
    exact ⟨key, gap, mark, rfl, hpieces.trans hrear.isInfix, hstranded, hends, hmark,
      ⟨hlater, hname⟩, h.fragment⟩

theorem StrandsNext.stranded_gluedChunk (h : StrandsNext key gap mark later name) :
    Stranded (gluedChunk key mark) later name := by
  refine ⟨⟨rfl, h.kinds⟩, ?_, h.fragment⟩
  rw [gluedChunk, h.mark_eq]
  exact (isDanglingKey_append_mark h.stranded.dangling h.ends).1

/-- The gap and the name behind such a chunk are still there. -/
theorem StrandsNext.infix_glue (h : StrandsNext key gap mark later name)
    (hpieces : [key, gap, mark, later, name] <:+: ps) :
    [gluedChunk key mark, later, name] <:+: glue ps := by
  obtain ⟨front, rear, rfl⟩ := hpieces
  have hglue : glue (key :: gap :: mark :: later :: name :: rear) =
      gluedChunk key mark :: later :: name :: glue rear := by
    rw [glue_of_stranded h.stranded,
      glue_cons fun _ _ _ _ => not_stranded_of_kind (by simp [h.kinds.1]),
      glue_cons fun _ _ _ _ => h.stranded_gluedChunk.not_stranded]
    rfl
  refine ⟨glue front, glue rear, ?_⟩
  rw [List.append_assoc, List.append_assoc]
  exact (h.stranded.glue_append.trans (congrArg _ hglue)).symm

end Glue

/-! ### A second repair -/

section Repair

variable {text : String} {selection : Selection}

/-- A text from which something is taken out is no longer the same. -/
theorem eq_empty_of_takesOut_self {removed : Finset Nat} {cs : List Char}
    (h : TakesOut removed cs cs) : removed = ∅ := by
  by_contra hne
  obtain ⟨x, hx⟩ := Finset.nonempty_iff_ne_empty.mpr hne
  have hwithin := h.within x hx
  have hmoved := h.whole.movedPosition_add
  rw [movedPosition_zero, Nat.zero_add, Nat.zero_add, ← h.eq] at hmoved
  have hcount : 0 < (removed.filter (· < byteLength cs)).card :=
    Finset.card_pos.mpr ⟨x, Finset.mem_filter.mpr ⟨hx, hwithin⟩⟩
  rw [movedPosition] at hmoved
  omega

/-- **The repair changes nothing** exactly if no gap is stranded. -/
theorem repair_eq_self_iff : repair text selection = (text, selection) ↔
    ¬∃ key gap name, [key, gap, name] <:+: pieces text ∧ Stranded key gap name := by
  constructor
  · rintro h ⟨key, gap, name, htriple, hstranded⟩
    have htakes := (laid_strandedGaps text).takesOut fun g hg => blanks_of_mem_strandedGaps hg
    have hsame : withoutPositions (strandedPositions text) 0 text.toList = text.toList := by
      rw [repair_eq, Prod.mk.injEq] at h
      rw [← String.toList_ofList (l := withoutPositions _ _ _), h.1]
    rw [strandedPositions] at hsame
    rw [hsame] at htakes
    have hgap : gap ∈ [key, gap, name] := by simp
    have hcovers := (fallsInto_pieces text).covers (htriple.subset hgap)
    have hmem : gap.start ∈ strandedPositions text := by
      refine mem_strandedPositions_iff.mpr ⟨key, gap, name, htriple, hstranded, Nat.le_refl _, ?_⟩
      exact Nat.lt_add_of_pos_right (byteLength_pos hcovers.1)
    rw [strandedPositions, eq_empty_of_takesOut_self htakes] at hmem
    exact absurd hmem (Finset.notMem_empty _)
  · intro h
    have hnone : strandedGaps (pieces text) = [] := by
      refine List.eq_nil_iff_forall_not_mem.mpr fun gap hgap => ?_
      obtain ⟨key, name, htriple, hstranded⟩ := mem_strandedGaps_iff.mp hgap
      exact h ⟨key, gap, name, htriple, hstranded⟩
    rw [repair, hnone]
    simp

theorem text_ne_empty_of_mem_pieces : ∀ p ∈ pieces text, p.text ≠ "" := by
  intro p hp hempty
  refine ((fallsInto_pieces text).covers hp).1 ?_
  rw [hempty]
  rfl

/-- **A gap that is stranded after the repair** was stranded by it, and the comparison before it is
as long as it gets. -/
theorem exists_of_stranded_repair {p later name : Piece}
    (htriple : [p, later, name] <:+: pieces (repair text selection).1)
    (h : Stranded p later name) :
    ¬EndsProlongable p.text ∧ ∃ key gap mark later name,
      [key, gap, mark, later, name] <:+: pieces text ∧ StrandsNext key gap mark later name := by
  rw [pieces_repair, List.infix_map_iff] at htriple
  obtain ⟨before, hbefore, heq⟩ := htriple
  obtain ⟨p', later', name', rfl⟩ : ∃ a b c, before = [a, b, c] :=
    List.length_eq_three.mp (by simpa using (congrArg List.length heq).symm)
  obtain ⟨rfl, rfl, rfl⟩ : p = p'.moved _ ∧ later = later'.moved _ ∧ name = name'.moved _ := by
    simpa using heq
  have h' : Stranded p' later' name' := ⟨h.kinds, h.dangling, h.fragment⟩
  obtain ⟨key, gap, mark, rfl, hpieces, hnext⟩ :=
    exists_of_stranded_glue text_ne_empty_of_mem_pieces hbefore h'
  refine ⟨?_, key, gap, mark, later', name', hpieces, hnext⟩
  change ¬EndsProlongable (key.text ++ mark.text)
  rw [hnext.mark_eq]
  exact (isDanglingKey_append_mark hnext.stranded.dangling hnext.ends).2

/-- **Some gap is stranded after the repair** exactly if one is stranded by it. -/
theorem exists_stranded_repair_iff :
    (∃ key gap name, [key, gap, name] <:+: pieces (repair text selection).1 ∧
      Stranded key gap name) ↔
    ∃ key gap mark later name, [key, gap, mark, later, name] <:+: pieces text ∧
      StrandsNext key gap mark later name := by
  constructor
  · rintro ⟨key, gap, name, htriple, hstranded⟩
    exact (exists_of_stranded_repair htriple hstranded).2
  · rintro ⟨key, gap, mark, later, name, hpieces, hnext⟩
    have hstranded := hnext.stranded_gluedChunk
    have hmoved := (hnext.infix_glue hpieces).map (·.moved (strandedPositions text))
    rw [← pieces_repair text selection] at hmoved
    exact ⟨_, _, _, hmoved, hstranded.kinds, hstranded.dangling, hstranded.fragment⟩

/-- **When a second repair changes nothing**: exactly if no gap is stranded after the first one; and
that is so unless the text has a key with the comparison `<` or `>`, behind a gap the single
character `=`, and behind another gap a name. A third repair never changes anything. -/
theorem repair_repair (text : String) (selection : Selection) :
    let once := repair text selection
    let twice := repair once.1 once.2
    (twice = once ↔ ¬∃ key gap name, [key, gap, name] <:+: pieces once.1 ∧
      Stranded key gap name) ∧
    (twice = once ↔ ¬∃ key gap mark later name,
      [key, gap, mark, later, name] <:+: pieces text ∧ StrandsNext key gap mark later name) ∧
    repair twice.1 twice.2 = twice := by
  intro once twice
  refine ⟨repair_eq_self_iff, ?_, repair_eq_self_iff.mpr ?_⟩
  · rw [← exists_stranded_repair_iff]
    exact repair_eq_self_iff
  · rintro ⟨key, gap, name, htriple, hstranded⟩
    -- the key of a gap that the second repair strands would have been glued by the first one
    obtain ⟨-, key, gap, mark, later, name, hpieces, hnext⟩ :=
      exists_of_stranded_repair htriple hstranded
    have hprefix : [key, gap, mark] <+: [key, gap, mark, later, name] := ⟨[later, name], rfl⟩
    have htriple : [key, gap, mark] <:+: pieces once.1 := hprefix.isInfix.trans hpieces
    exact (exists_of_stranded_repair htriple hnext.stranded).1 hnext.ends

/-- **A second repair can change the text once more**: in the first one the mark `=` ends the
comparison, in the second one the number becomes the value. -/
theorem repair_repair_ne :
    let once := repair "pow< = 3" ⟨8, 8⟩
    once = ("pow<= 3", ⟨7, 7⟩) ∧ repair once.1 once.2 = ("pow<=3", ⟨6, 6⟩) ∧
    ¬∀ (text : String) (selection : Selection), repair (repair text selection).1
      (repair text selection).2 = repair text selection := by
  have honce : repair "pow< = 3" ⟨8, 8⟩ = ("pow<= 3", ⟨7, 7⟩) := by decide +kernel
  have htwice : repair "pow<= 3" ⟨7, 7⟩ = ("pow<=3", ⟨6, 6⟩) := by decide +kernel
  refine ⟨honce, by rw [honce, htwice], fun h => ?_⟩
  have hsame := h "pow< = 3" ⟨8, 8⟩
  rw [honce, htwice] at hsame
  exact absurd hsame (by decide)

end Repair

end CardFilter.Draft
