import CardFilter.Proofs.Cursor
import CardFilter.Proofs.Removal
import CardFilter.Proofs.TermLayout

/-!
# What the repair puts together

When the repair takes out the gap between a key with its comparison and a name, the two become one
chunk. This file shows that nothing else changes for the reader: the repaired text falls into the
pieces of the text before, but for the stranded gaps, each of which is glued together with its two
neighbours (`CardFilter.Draft.glue`), and the term that the glued chunk writes has the key and the
comparison of the first and the second as its value (`CardFilter.Draft.repair_glues`).

* **The gaps stand alone.** A name is no key with a comparison, so no piece belongs to two stranded
  gaps (`CardFilter.Draft.strandedGaps_of_stranded`).
* **The reader cannot tell the difference** before it comes to a glued chunk: the symbol of the
  comparison decides how the text there begins, whatever comes after it
  (`CardFilter.Draft.beginAlike_of_isDanglingKey`). Behind the chunk the text goes on as it did, and
  the chunk ends where the name ended (`CardFilter.Draft.PieceKind.CutsOff.glue`).
-/

namespace CardFilter.Draft

/-! ### A key with its comparison -/

/-- The comparison at the end of the key would be read as another one in front of the name. -/
def ProlongsKey (key name : String) : Prop :=
  (key.toList.getLast? = some '<' ∨ key.toList.getLast? = some '>') ∧
    name.toList.head? = some '='

section Key

variable {key name : String} {cs cs' : List Char}

/-- **The spelling of a key with a comparison** and nothing after it. -/
theorem exists_of_isDanglingKey (h : isDanglingKey key = true) :
    ∃ word c, key.toList = negationChars (Term.ofText key).negated ++ (word ++ c.chars) ∧
      IsWord word ∧
      (∃ k, Vocabulary.standard.lookup? (lowercase (String.ofList word)) = some k) ∧
      (Term.ofText key).content =
        .keyed (lowercase (String.ofList word)) (.complete c) (.bare "") := by
  rw [isDanglingKey] at h
  split at h
  · rename_i spelling c value hcontent
    obtain rfl : value = "" := String.toList_eq_nil_iff.mp (List.isEmpty_iff.mp h)
    have hterm := Term.ofText_eq key
    rw [hterm] at hcontent ⊢
    have hspelled := readContent_eq_iff.mp hcontent
    obtain ⟨word, body, hword, hletters, rfl, hlookup, -, rfl, -⟩ := hspelled
    refine ⟨word, c, ?_, hletters, hlookup, hcontent⟩
    have hnegation : key.toList =
        negationChars (key.toList.head? == some '-') ++ withoutMinus key.toList :=
      eq_negationChars_append_iff.mpr rfl
    rwa [hword, String.toList_empty, List.append_nil] at hnegation
  · cases h

/-- All its characters begin nothing but a chunk. -/
theorem isPlain_of_isDanglingKey (h : isDanglingKey key = true) :
    ∀ d ∈ key.toList, IsPlain d := by
  obtain ⟨word, c, hkey, hword, -, -⟩ := exists_of_isDanglingKey h
  have hmarks : negationChars (Term.ofText key).negated ⊆ ['-', '!', ':', '=', '<', '>'] := by
    cases (Term.ofText key).negated <;> simp [negationChars]
  have hsymbol : c.chars ⊆ ['-', '!', ':', '=', '<', '>'] := by
    cases c <;> simp [Comparison.chars]
  intro d hd
  rw [hkey, List.mem_append, List.mem_append] at hd
  rcases hd with hd | hd | hd
  · exact isPlain_of_mem_marks (hmarks hd)
  · exact isPlain_of_isWordChar (hword.2 d hd)
  · exact isPlain_of_mem_marks (hsymbol hd)

/-- **How a text begins** is decided by the key in front of it. -/
theorem beginAlike_of_isDanglingKey (h : isDanglingKey key = true) (cs cs' : List Char) :
    BeginAlike (key.toList ++ cs) (key.toList ++ cs') := by
  obtain ⟨word, c, hkey, -, -, -⟩ := exists_of_isDanglingKey h
  have hsymbol : BeginAlike (c.chars ++ cs) (c.chars ++ cs') := by
    cases c <;> exact beginAlike_symbol (by simp)
  rw [hkey, List.append_assoc, List.append_assoc, List.append_assoc, List.append_assoc]
  exact (hsymbol.append word).append _

/-- **The name becomes the value** of the key, unless it prolongs the comparison. -/
theorem Term.ofText_append_of_isDanglingKey (h : isDanglingKey key = true)
    (hname : ¬ProlongsKey key name) :
    ∃ spelling c, (ofText key).content = .keyed spelling (.complete c) (.bare "") ∧
      ofText (key ++ name) = ⟨(ofText key).negated,
        .keyed spelling (.complete c) (Text.ofChars name.toList), key ++ name⟩ := by
  obtain ⟨word, c, hkey, hword, hlookup, hcontent⟩ := exists_of_isDanglingKey h
  have hne : key.toList ≠ [] := by
    rw [hkey]
    simp [hword.1]
  have hends : ∀ d ∈ name.toList.head?, c.isProlongedBy d = false := by
    intro d hd
    rw [Bool.eq_false_iff]
    intro hprolonged
    refine hname ⟨?_, ?_⟩
    · rw [hkey]
      cases c <;> simp_all [Comparison.isProlongedBy, Comparison.chars]
    · have heq : d = '=' := by
        cases c <;> simp_all [Comparison.isProlongedBy]
      rw [← heq]
      exact hd
  have hoperator : readOperator? (c.chars ++ name.toList) = some (.complete c, name.toList) := by
    simp only [readOperator?, Comparison.read?_append hends]
  obtain ⟨-, hlongest⟩ := readOperator?_eq_some_iff.mp hoperator
  have hspelled : (Content.keyed (lowercase (String.ofList word)) (.complete c)
      (Text.ofChars name.toList)).Spelled (word ++ (c.chars ++ name.toList)) :=
    ⟨word, name.toList, rfl, hword, rfl, hlookup, hlongest, Text.spelled_ofChars _⟩
  have hnegated : (ofText key).negated = ((key ++ name).toList.head? == some '-') := by
    rw [ofText_eq, String.toList_append, List.head?_append_of_ne_nil _ hne]
  have happend : (key ++ name).toList =
      negationChars (ofText key).negated ++ (word ++ (c.chars ++ name.toList)) := by
    rw [String.toList_append, hkey]
    simp
  have hrest : withoutMinus (key ++ name).toList = word ++ (c.chars ++ name.toList) :=
    List.append_cancel_left ((eq_negationChars_append_iff.mpr hnegated).symm.trans happend)
  refine ⟨_, c, hcontent, ?_⟩
  rw [ofText_eq (key ++ name), hrest, readContent_eq_iff.mpr hspelled, hnegated]

end Key

/-! ### Stranded gaps and their neighbours -/

instance (key gap name : Piece) : Decidable (Stranded key gap name) :=
  decidable_of_iff ((key.kind = .chunk ∧ gap.kind = .gap ∧ name.kind = .chunk) ∧
      isDanglingKey key.text = true ∧ isNameFragment name.text = true)
    ⟨fun h => ⟨h.1, h.2.1, h.2.2⟩, fun h => ⟨h.kinds, h.dangling, h.fragment⟩⟩

/-- **The pieces with every stranded gap glued** together with the key before it and the name after
it. -/
def glue : List Piece → List Piece
  | key :: gap :: name :: rest =>
    if Stranded key gap name then ⟨.chunk, key.start, key.text ++ name.text⟩ :: glue rest
    else key :: glue (gap :: name :: rest)
  | ps => ps

/-- The piece where it stands when the positions are taken out. -/
def Piece.moved (removed : Finset Nat) (p : Piece) : Piece :=
  { p with start := movedPosition removed p.start }

section Stranded

variable {key gap name p : Piece} {ps rest : List Piece}

/-- A name is no key with a comparison. -/
theorem isDanglingKey_eq_false_of_isNameFragment {text : String}
    (h : isNameFragment text = true) : isDanglingKey text = false := by
  rw [Bool.eq_false_iff]
  intro hdangling
  obtain ⟨word, c, -, -, -, hcontent⟩ := exists_of_isDanglingKey hdangling
  rw [isNameFragment, hcontent] at h
  simp at h

theorem not_stranded_of_kind (hp : p.kind ≠ .chunk) : ¬Stranded p gap name :=
  fun h => hp h.kinds.1

/-- **The name is not the key of another gap.** -/
theorem Stranded.not_stranded {gap' name' : Piece} (h : Stranded key gap name) :
    ¬Stranded name gap' name' := by
  intro hother
  have hdangling := hother.dangling
  rw [isDanglingKey_eq_false_of_isNameFragment h.fragment] at hdangling
  cases hdangling

/-- A piece that is not the key of the gap behind it changes nothing. -/
theorem strandedGaps_cons (h : ∀ gap name rest, ps = gap :: name :: rest → ¬Stranded p gap name) :
    strandedGaps (p :: ps) = strandedGaps ps := by
  rcases ps with _ | ⟨gap, _ | ⟨name, rest⟩⟩
  · rfl
  · rfl
  · rw [strandedGaps, if_neg]
    intro hcond
    simp only [Bool.and_eq_true, beq_iff_eq] at hcond
    obtain ⟨⟨⟨⟨hp, hgap⟩, hname⟩, hdangling⟩, hfragment⟩ := hcond
    exact h gap name rest rfl ⟨⟨hp, hgap, hname⟩, hdangling, hfragment⟩

theorem glue_cons (h : ∀ gap name rest, ps = gap :: name :: rest → ¬Stranded p gap name) :
    glue (p :: ps) = p :: glue ps := by
  rcases ps with _ | ⟨gap, _ | ⟨name, rest⟩⟩
  · rfl
  · rfl
  · rw [glue, if_neg (h gap name rest rfl)]

/-- **After a stranded gap** the search goes on behind the name. -/
theorem strandedGaps_of_stranded (h : Stranded key gap name) :
    strandedGaps (key :: gap :: name :: rest) = gap :: strandedGaps rest := by
  obtain ⟨hkey, hgap, hname⟩ := h.kinds
  rw [strandedGaps, if_pos (by simp [hkey, hgap, hname, h.dangling, h.fragment]),
    strandedGaps_cons fun _ _ _ _ => not_stranded_of_kind (by simp [hgap]),
    strandedGaps_cons fun _ _ _ _ => h.not_stranded]

theorem glue_of_stranded (h : Stranded key gap name) :
    glue (key :: gap :: name :: rest) =
      ⟨.chunk, key.start, key.text ++ name.text⟩ :: glue rest := by
  rw [glue, if_pos h]

/-- **The pieces before a stranded gap are glued by themselves**: its key is neither the gap nor the
name of another one. -/
theorem Stranded.glue_append {front : List Piece} (h : Stranded key gap name) :
    glue (front ++ key :: gap :: name :: rest) =
      glue front ++ glue (key :: gap :: name :: rest) := by
  have hgap : ∀ {p q}, ¬Stranded p key q := by
    intro p q hother
    have hkind := hother.kinds.2.1
    rw [h.kinds.1] at hkind
    cases hkind
  have hname : ∀ {p q}, ¬Stranded p q key := fun hother => hother.not_stranded h
  fun_induction glue front with
  | case1 key' gap' name' front hstranded ih =>
    rw [List.cons_append, List.cons_append, List.cons_append, glue_of_stranded hstranded, ih,
      List.cons_append]
  | case2 key' gap' name' front hstranded ih =>
    rw [List.cons_append, List.cons_append, List.cons_append, glue, if_neg hstranded,
      List.cons_append]
    exact congrArg _ ih
  | case3 front hother =>
    rcases front with _ | ⟨p, _ | ⟨q, _ | ⟨r, front⟩⟩⟩
    · rfl
    · rw [List.singleton_append, glue, if_neg hgap, List.singleton_append]
    · rw [List.cons_append, List.singleton_append, glue, if_neg hname, glue, if_neg hgap]
      rfl
    · exact absurd rfl (hother _ _ _ _)

/-- Every stranded gap is glued. -/
theorem mem_glue (htriple : [key, gap, name] <:+: ps) (h : Stranded key gap name) :
    ⟨.chunk, key.start, key.text ++ name.text⟩ ∈ glue ps := by
  obtain ⟨front, rear, rfl⟩ := htriple
  rw [List.append_assoc]
  have hglue : glue (front ++ key :: gap :: name :: rear) = _ := h.glue_append
  rw [glue_of_stranded h] at hglue
  exact hglue ▸ List.mem_append_right _ List.mem_cons_self

end Stranded

/-! ### Chunks that are glued -/

section Glue

variable {kind : PieceKind} {fresh : Bool} {position : Nat} {front text after after' : List Char}

/-- What a piece takes is the same in front of another text that begins alike. -/
theorem PieceKind.CutsOff.congr (h : kind.CutsOff text after) (hgap : kind ≠ .gap)
    (halike : BeginAlike after after') (hend : after = [] → after' = []) :
    kind.CutsOff text after' := by
  cases kind with
  | chunk => exact ⟨h.1, cutChunk_append_congr halike (fun _ => hend) 0 rfl h.2⟩
  | gap => exact absurd rfl hgap
  | openGroup | closeGroup | or => exact h

/-- Plain characters may stand in front of a chunk, where no parenthesis opens. -/
theorem cutChunk_plain_append (hfront : ∀ d ∈ front, IsPlain d)
    (hbegins : stopsChunk true (text ++ after) = false)
    (h : cutChunk .tolerant none true position (text ++ after) = .ok (text, after)) :
    cutChunk .tolerant none fresh position (front ++ (text ++ after)) =
      .ok (front ++ text, after) := by
  obtain ⟨hword, hnegated⟩ := Bool.or_eq_false_iff.mp hbegins
  have hopen : (text ++ after).head? ≠ some '(' := by
    intro hhead
    obtain ⟨rest, hrest⟩ := List.head?_eq_some_iff.mp hhead
    rw [hrest] at hword
    cases hword
  induction front generalizing fresh position with
  | nil => exact (cutChunk_fresh hnegated).trans ((cutChunk_fresh hnegated).symm.trans h)
  | cons d front ih =>
    obtain ⟨⟨hblank, hparenthesis, hquote⟩, hfront⟩ := List.forall_mem_cons.mp hfront
    have hminus : opensNegated (d :: (front ++ (text ++ after))) = false := by
      rw [Bool.eq_false_iff, Ne, opensNegated_cons_iff]
      rintro ⟨-, hhead⟩
      cases front with
      | nil => exact hopen hhead
      | cons e front =>
        obtain rfl := Option.some.inj hhead
        exact absurd (hfront '(' List.mem_cons_self).2.1 (by decide)
    have hgoes : stopsChunk fresh (d :: (front ++ (text ++ after))) = false := by
      rw [stopsChunk, endsWord, hblank, hparenthesis, hminus, Bool.and_false]
      rfl
    refine cutChunk_none_cons_iff.mpr ⟨hgoes, ?_⟩
    rw [hquote, Option.map_none]
    exact ih hfront (cutChunk_tolerant_position _ h)

/-- **A key and a name are one chunk**, which ends where the name ended. -/
theorem PieceKind.CutsOff.glue (hfront : ∀ d ∈ front, IsPlain d)
    (h : PieceKind.chunk.CutsOff text after) : PieceKind.chunk.CutsOff (front ++ text) after := by
  obtain ⟨hne, hcut⟩ := h
  refine ⟨by simp [hne], ?_⟩
  have hbegins : stopsChunk true (text ++ after) = false := by
    rw [Bool.eq_false_iff]
    intro hstops
    have hnone : cutChunk .tolerant none true 0 (text ++ after) = .ok ([], text ++ after) :=
      cutChunk_none_eq_nil_iff.mpr hstops
    rw [hcut] at hnone
    cases hnone
    exact hne rfl
  rw [List.append_assoc]
  exact cutChunk_plain_append hfront hbegins hcut

end Glue

/-! ### The text after the repair -/

/-- **A text reads as glued pieces** without the positions that are taken out, and it begins as it
did with them. -/
structure Glues (removed : Finset Nat) (bounded padded : Bool) (position : Nat) (cs : List Char)
    (ps : List Piece) : Prop where
  /-- It reads as the glued pieces, where they stand now. -/
  reads : Reads bounded padded (movedPosition removed position)
    (withoutPositions removed position cs) ((glue ps).map (·.moved removed))
  /-- A piece in front of it cannot tell the difference. -/
  alike : BeginAlike cs (withoutPositions removed position cs)
  /-- It begins with the same character. -/
  head? : cs.head? = (withoutPositions removed position cs).head?

section Glues

variable {removed : Finset Nat} {bounded padded : Bool} {position : Nat} {kind : PieceKind}
  {cs blanks text word after : List Char} {g : Piece} {ps : List Piece}

/-- What stays in front of a text begins it as before. -/
theorem Glues.append {front : List Char} (hne : front ≠ [])
    (hkept : ∀ k < byteLength front, position + k ∉ removed)
    (h : Glues removed bounded padded (position + byteLength front) after ps) :
    BeginAlike (front ++ after) (withoutPositions removed position (front ++ after)) ∧
      (front ++ after).head? = (withoutPositions removed position (front ++ after)).head? := by
  rw [withoutPositions_append, withoutPositions_of_kept hkept]
  refine ⟨h.alike.append front, ?_⟩
  rw [List.head?_append_of_ne_nil _ hne, List.head?_append_of_ne_nil _ hne]

/-- Blanks that pad a piece pad it still. -/
theorem Glues.pad (hcuts : PieceKind.gap.CutsOff blanks after)
    (hpads : (padded || (kindAt true after).padsLeft) = true)
    (hkept : ∀ k < byteLength blanks, position + k ∉ removed)
    (h : Glues removed true padded (position + byteLength blanks) after ps) :
    Glues removed bounded padded position (blanks ++ after) ps := by
  obtain ⟨halike, hhead⟩ := h.append hcuts.ne_nil hkept
  refine ⟨?_, halike, hhead⟩
  have hreads := h.reads
  rw [movedPosition_add_of_kept hkept] at hreads
  rw [withoutPositions_append, withoutPositions_of_kept hkept]
  exact .pad ⟨hcuts.1, hcuts.2.1, h.head? ▸ hcuts.2.2⟩ (h.alike.kindAt_eq ▸ hpads) hreads

/-- Blanks that are a gap are one still, if they stay. -/
theorem Glues.gap (hcuts : PieceKind.gap.CutsOff blanks after)
    (hpads : (padded || (kindAt true after).padsLeft) = false)
    (hkept : ∀ k < byteLength blanks, position + k ∉ removed)
    (h : Glues removed true false (position + byteLength blanks) after ps) :
    Glues removed bounded padded position (blanks ++ after)
      (⟨.gap, position, String.ofList blanks⟩ :: ps) := by
  obtain ⟨halike, hhead⟩ := h.append hcuts.ne_nil hkept
  refine ⟨?_, halike, hhead⟩
  have hreads := h.reads
  rw [movedPosition_add_of_kept hkept] at hreads
  rw [withoutPositions_append, withoutPositions_of_kept hkept,
    glue_cons fun _ _ _ _ => not_stranded_of_kind (by simp)]
  exact .gap ⟨hcuts.1, hcuts.2.1, h.head? ▸ hcuts.2.2⟩ (h.alike.kindAt_eq ▸ hpads) hreads

/-- Where nothing is left, nothing is taken out. -/
theorem withoutPositions_eq_nil (h : after = []) :
    withoutPositions removed position after = [] := by
  rw [h]
  rfl

/-- A piece is what it was, unless it is the key of a gap that goes. -/
theorem Glues.piece (hbegins : ∀ d ∈ text.head?, isBlank d = false)
    (hkind : kindAt bounded (text ++ after) = kind) (hcuts : kind.CutsOff text after)
    (hnot : ∀ gap name rest, ps = gap :: name :: rest →
      ¬Stranded ⟨kind, position, String.ofList text⟩ gap name)
    (hkept : ∀ k < byteLength text, position + k ∉ removed)
    (h : Glues removed kind.bounds kind.padsRight (position + byteLength text) after ps) :
    Glues removed bounded padded position (text ++ after)
      (⟨kind, position, String.ofList text⟩ :: ps) := by
  obtain ⟨halike, hhead⟩ := h.append hcuts.ne_nil hkept
  refine ⟨?_, halike, hhead⟩
  have hreads := h.reads
  have hgap : kind ≠ .gap := hkind ▸ kindAt_ne_gap
  rw [halike.kindAt_eq, withoutPositions_append, withoutPositions_of_kept hkept] at hkind
  rw [movedPosition_add_of_kept hkept] at hreads
  rw [withoutPositions_append, withoutPositions_of_kept hkept, glue_cons hnot]
  exact .piece hbegins hkind (hcuts.congr hgap h.alike withoutPositions_eq_nil) hreads

/-- **A key and a name become one chunk** when the gap between them goes. -/
theorem Glues.stranded
    (hstranded : Stranded ⟨.chunk, position, String.ofList text⟩ g
      ⟨.chunk, position + byteLength text + byteLength blanks, String.ofList word⟩)
    (hbegins : ∀ d ∈ text.head?, isBlank d = false) (hne : text ≠ [])
    (hkind : kindAt bounded (text ++ (blanks ++ (word ++ after))) = .chunk)
    (hword : PieceKind.chunk.CutsOff word after)
    (hkept : ∀ k < byteLength text, position + k ∉ removed)
    (hgone : ∀ k < byteLength blanks, position + byteLength text + k ∈ removed)
    (hwordKept : ∀ k < byteLength word,
      position + byteLength text + byteLength blanks + k ∉ removed)
    (h : Glues removed false false
      (position + byteLength text + byteLength blanks + byteLength word) after ps) :
    Glues removed bounded padded position (text ++ (blanks ++ (word ++ after)))
      (⟨.chunk, position, String.ofList text⟩ :: g ::
        ⟨.chunk, position + byteLength text + byteLength blanks, String.ofList word⟩ :: ps) := by
  have hdangling : isDanglingKey (String.ofList text) = true := hstranded.dangling
  have hplain := isPlain_of_isDanglingKey hdangling
  have hlook := beginAlike_of_isDanglingKey hdangling (blanks ++ (word ++ after))
  rw [String.toList_ofList] at hplain hlook
  have hreads := h.reads
  rw [movedPosition_add_of_kept hwordKept, movedPosition_add_of_removed hgone,
    movedPosition_add_of_kept hkept, Nat.add_assoc, ← byteLength_append] at hreads
  refine ⟨?_, ?_, ?_⟩ <;>
    rw [withoutPositions_append, withoutPositions_of_kept hkept, withoutPositions_append,
      withoutPositions_of_removed hgone, List.nil_append, withoutPositions_append,
      withoutPositions_of_kept hwordKept]
  · have hbegins' : ∀ d ∈ (text ++ word).head?, isBlank d = false := by
      rwa [List.head?_append_of_ne_nil _ hne]
    rw [(hlook _).kindAt_eq, ← List.append_assoc] at hkind
    rw [glue_of_stranded hstranded, ← List.append_assoc, ← String.ofList_append]
    have hcuts := hword.congr (by simp) h.alike withoutPositions_eq_nil
    exact .piece hbegins' hkind (hcuts.glue hplain) hreads
  · exact hlook _
  · rw [List.head?_append_of_ne_nil _ hne, List.head?_append_of_ne_nil _ hne]

end Glues

section Reads

variable {removed : Finset Nat} {bounded padded : Bool} {position n : Nat} {cs : List Char}
  {ps gaps : List Piece}

theorem Reads.le_start (h : Reads bounded padded position cs ps) {p : Piece} (hp : p ∈ ps) :
    position ≤ p.start :=
  (laid_of_piecesFrom (reads_iff.mp h)).le_start hp

theorem Reads.le_start_of_mem_strandedGaps (h : Reads bounded padded position cs ps) :
    ∀ g ∈ strandedGaps ps, position ≤ g.start := fun _ hg =>
  h.le_start (List.mem_of_mem_tail ((strandedGaps_sublist ps).subset hg))

/-- Nothing is taken out in front of the gaps. -/
theorem not_mem_of_le_start (hremoved : ∀ x, position ≤ x → (x ∈ removed ↔ x ∈ positionsOf gaps))
    (hgaps : ∀ g ∈ gaps, position + n ≤ g.start) : ∀ k < n, position + k ∉ removed := by
  intro k hk
  rw [hremoved _ (Nat.le_add_right _ _)]
  exact not_mem_positionsOf_of_lt fun g hg => (Nat.add_lt_add_left hk _).trans_le (hgaps g hg)

/-- **The repaired text** reads as the glued pieces. -/
theorem Reads.glues (h : Reads bounded padded position cs ps)
    (hremoved : ∀ x, position ≤ x → (x ∈ removed ↔ x ∈ positionsOf (strandedGaps ps))) :
    Glues removed bounded padded position cs ps := by
  -- A key is read together with the gap and the name behind it, so the induction is on the length
  -- of what is left and not on the pieces.
  induction hlength : cs.length using Nat.strong_induction_on
    generalizing bounded padded position cs ps with
  | _ n ih =>
  -- What stands in front of the rest stays, if the gaps that go are those of the rest.
  have hrest : ∀ {bounded padded : Bool} {lead after : List Char} {qs : List Piece},
      cs = lead ++ after → lead ≠ [] →
      Reads bounded padded (position + byteLength lead) after qs →
      (∀ x, position ≤ x → (x ∈ removed ↔ x ∈ positionsOf (strandedGaps qs))) →
      (∀ k < byteLength lead, position + k ∉ removed) ∧
        Glues removed bounded padded (position + byteLength lead) after qs := by
    intro bounded padded lead after qs happend hne hqs hsame
    have hshorter : after.length < n := hlength ▸ length_lt_of_eq_append happend hne
    refine ⟨not_mem_of_le_start hsame hqs.le_start_of_mem_strandedGaps, ?_⟩
    exact ih _ hshorter hqs (fun x hx => hsame x (Nat.le_of_add_right_le hx)) rfl
  cases h with
  | nil => exact ⟨.nil, .refl [], rfl⟩
  | pad hcuts hpads hps =>
    obtain ⟨hkept, hafter⟩ := hrest rfl hcuts.ne_nil hps hremoved
    exact .pad hcuts hpads hkept hafter
  | gap hcuts hpads hps =>
    rw [strandedGaps_cons fun _ _ _ _ => not_stranded_of_kind (by simp)] at hremoved
    obtain ⟨hkept, hafter⟩ := hrest rfl hcuts.ne_nil hps hremoved
    exact .gap hcuts hpads hkept hafter
  | @piece _ _ _ kind text after qs hbegins hkind hcuts hps =>
    by_cases hstranded : ∃ gap name rest, qs = gap :: name :: rest ∧
        Stranded ⟨kind, position, String.ofList text⟩ gap name
    · obtain ⟨gap, name, rest, rfl, hstranded⟩ := hstranded
      obtain rfl : kind = .chunk := hstranded.kinds.1
      obtain ⟨blanks, behind, rfl, -, hgap, hname⟩ := hps.exists_of_gap hstranded.kinds.2.1
      obtain ⟨word, after, rfl, -, -, hword, rfl, hafter⟩ :=
        hname.exists_of_chunk hstranded.kinds.2.2
      rw [strandedGaps_of_stranded hstranded] at hremoved
      have hshorter : after.length < n := by
        have hpos := List.length_pos_of_ne_nil hcuts.ne_nil
        rw [← hlength, List.length_append, List.length_append, List.length_append]
        omega
      -- The gap goes, and nothing else up to the end of the name.
      have hstart : gap.start = position + byteLength text := by rw [hgap]
      have hstop : gap.stop = position + byteLength text + byteLength blanks := by
        rw [Piece.stop, hgap, String.toList_ofList]
      have hgaps := hafter.le_start_of_mem_strandedGaps
      have hbehind : ∀ g ∈ strandedGaps rest, gap.stop ≤ g.start := fun g hg =>
        hstop.le.trans (Nat.le_of_add_right_le (hgaps g hg))
      have hsame : ∀ x, position + byteLength text + byteLength blanks ≤ x →
          (x ∈ removed ↔ x ∈ positionsOf (strandedGaps rest)) := by
        intro x hx
        rw [hremoved x (by omega), mem_positionsOf_cons_of_stop_le (hstop.trans_le hx)]
      have hkey : ∀ k < byteLength text, position + k ∉ removed := by
        refine not_mem_of_le_start hremoved (List.forall_mem_cons.mpr ⟨hstart.ge, fun g hg => ?_⟩)
        have hle := hbehind g hg
        omega
      have hgone : ∀ k < byteLength blanks, position + byteLength text + k ∈ removed := by
        intro k hk
        rw [hremoved _ (by omega)]
        exact mem_positionsOf_cons_of_within (by omega) (by omega)
      refine .stranded hstranded hbegins hcuts.ne_nil hkind hword hkey hgone
        (not_mem_of_le_start hsame hgaps) ?_
      exact ih _ hshorter hafter (fun x hx => hsame x (Nat.le_of_add_right_le hx)) rfl
    · push Not at hstranded
      rw [strandedGaps_cons hstranded] at hremoved
      obtain ⟨hkept, hafter⟩ := hrest rfl hcuts.ne_nil hps hremoved
      exact .piece hbegins hkind hcuts hstranded hkept hafter

end Reads

/-! ### The repair -/

section Repair

variable {text : String} {position : Nat} {key gap name : Piece}

/-- Pieces that take no blanks in touch each other. -/
theorem FallsInto.touches {previous : Option PieceKind} {cs : List Char} {ps : List Piece}
    (h : FallsInto previous position cs ps) :
    (∀ k ∈ previous, ∀ p ∈ ps.head?, k.padsRight = false → p.kind.padsLeft = false →
      p.start = position) ∧
    ps.IsChain fun p q => p.kind.padsRight = false → q.kind.padsLeft = false →
      q.start = p.stop := by
  induction h with
  | nil => exact ⟨fun _ _ _ hp => absurd hp (by simp), .nil⟩
  | @cons previous position pad text after kind ps hpad hpads hne hcovers hprevious hps ih =>
    refine ⟨fun k hk p hp hright hleft => ?_, .cons ih.2 fun q hq => ?_⟩
    · obtain rfl := Option.some.inj hp
      have hnil : pad = [] := by
        by_contra hpadded
        rcases hpads hpadded with ⟨k', hk', hright'⟩ | hleft'
        · obtain rfl := Option.some.inj (hk.symm.trans hk')
          rw [hright] at hright'
          cases hright'
        · rw [hleft] at hleft'
          cases hleft'
      rw [hnil]
      rfl
    · simpa [Piece.stop] using ih.1 _ rfl q hq

/-- **A stranded gap touches the key and the name.** -/
theorem Stranded.touches (h : Stranded key gap name) (htriple : [key, gap, name] <:+: pieces text) :
    gap.start = key.stop ∧ name.start = gap.stop := by
  obtain ⟨hkey, hgap, hname⟩ := h.kinds
  have hchain := List.IsChain.infix (fallsInto_pieces text).touches.2 htriple
  obtain ⟨hfirst, hchain⟩ := List.isChain_cons_cons.mp hchain
  obtain ⟨hsecond, -⟩ := List.isChain_cons_cons.mp hchain
  exact ⟨hfirst (by rw [hkey]; rfl) (by rw [hgap]; rfl),
    hsecond (by rw [hgap]; rfl) (by rw [hname]; rfl)⟩

/-- A cursor on the name goes to a place on the glued chunk. -/
theorem Stranded.isTouched_moved (h : Stranded key gap name)
    (htriple : [key, gap, name] <:+: pieces text) (hstart : name.start ≤ position)
    (hstop : position ≤ name.stop) :
    (Piece.moved (strandedPositions text)
      ⟨.chunk, key.start, key.text ++ name.text⟩).isTouched
        (movedPosition (strandedPositions text) position) = true := by
  obtain ⟨hgapStart, hnameStart⟩ := h.touches htriple
  have hgone : ∀ k < byteLength gap.text.toList, gap.start + k ∈ strandedPositions text := by
    intro k hk
    refine mem_strandedPositions_iff.mpr ⟨key, gap, name, htriple, h, Nat.le_add_right _ _, ?_⟩
    exact Nat.add_lt_add_left hk _
  have hwidth : key.start ≤ position := by
    rw [hnameStart, Piece.stop, hgapStart, Piece.stop] at hstart
    omega
  refine Piece.isTouched_iff.mpr ⟨rfl, movedPosition_mono _ hwidth, ?_⟩
  calc movedPosition (strandedPositions text) position
      ≤ movedPosition (strandedPositions text) name.stop := movedPosition_mono _ hstop
    _ ≤ movedPosition (strandedPositions text) gap.stop + byteLength name.text.toList := by
      rw [Piece.stop, hnameStart]
      exact movedPosition_add_le
    _ = movedPosition (strandedPositions text) key.stop + byteLength name.text.toList := by
      rw [Piece.stop, movedPosition_add_of_removed hgone, hgapStart]
    _ ≤ movedPosition (strandedPositions text) key.start + byteLength key.text.toList +
          byteLength name.text.toList := Nat.add_le_add_right movedPosition_add_le _
    _ = _ := by simp [Piece.stop, Piece.moved, Nat.add_assoc]

/-- The repaired text falls into the glued pieces. -/
theorem pieces_repair (text : String) (selection : Selection) :
    pieces (repair text selection).1 =
      (glue (pieces text)).map (·.moved (strandedPositions text)) := by
  refine pieces_eq_of_reads ?_
  rw [repair_eq, String.toList_ofList]
  have hglues : Glues (strandedPositions text) true false 0 text.toList (pieces text) :=
    (reads_pieces text).glues fun _ _ => Iff.rfl
  have hreads := hglues.reads
  rwa [movedPosition_zero] at hreads

/-- A cursor on the name is on the glued term after the repair. -/
theorem Stranded.atCursor_repair (h : Stranded key gap name)
    (htriple : [key, gap, name] <:+: pieces text) (hstart : name.start ≤ position)
    (hstop : position ≤ name.stop) (selection : Selection) :
    Term.atCursor (repair text selection).1 (movedPosition (strandedPositions text) position) =
      Term.ofText (key.text ++ name.text) := by
  have hmem : Piece.moved (strandedPositions text)
      ⟨.chunk, key.start, key.text ++ name.text⟩ ∈ pieces (repair text selection).1 := by
    rw [pieces_repair]
    exact List.mem_map_of_mem (mem_glue htriple h)
  exact Term.atCursor_of_mem hmem (h.isTouched_moved htriple hstart hstop)

/-- **The repair glues names to their keys** and disturbs nothing else. The pieces are those of the
text before, but for the stranded gaps, which are glued; a glued chunk writes the key with the name
as its value, unless the name prolongs the comparison; and a selection on the name is on that term
after the repair. -/
theorem repair_glues (text : String) :
    (∀ selection, pieces (repair text selection).1 =
      (glue (pieces text)).map (·.moved (strandedPositions text))) ∧
    ∀ key gap name, [key, gap, name] <:+: pieces text → Stranded key gap name →
      (¬ProlongsKey key.text name.text → ∃ spelling c,
        (Term.ofText key.text).content = .keyed spelling (.complete c) (.bare "") ∧
        Term.ofText (key.text ++ name.text) = ⟨(Term.ofText key.text).negated,
          .keyed spelling (.complete c) (Text.ofChars name.text.toList),
          key.text ++ name.text⟩) ∧
      ∀ selection,
        (name.start ≤ selection.anchor → selection.anchor ≤ name.stop →
          Term.atCursor (repair text selection).1 (repair text selection).2.anchor =
            Term.ofText (key.text ++ name.text)) ∧
        (name.start ≤ selection.focus → selection.focus ≤ name.stop →
          Term.atCursor (repair text selection).1 (repair text selection).2.focus =
            Term.ofText (key.text ++ name.text)) := by
  refine ⟨pieces_repair text, fun key gap name htriple hstranded => ⟨?_, fun selection => ?_⟩⟩
  · exact Term.ofText_append_of_isDanglingKey hstranded.dangling
  · have hmoved : (repair text selection).2 =
        ⟨movedPosition (strandedPositions text) selection.anchor,
          movedPosition (strandedPositions text) selection.focus⟩ := by rw [repair_eq]
    rw [hmoved]
    exact ⟨fun hstart hstop => hstranded.atCursor_repair htriple hstart hstop selection,
      fun hstart hstop => hstranded.atCursor_repair htriple hstart hstop selection⟩

/-- Two gaps are taken out, the second one in front of a quote that is not closed. -/
theorem repair_glues_open_quote :
    let text := "f: a -t:  \"b"
    let key : Piece := ⟨.chunk, 5, "-t:"⟩
    let gap : Piece := ⟨.gap, 8, "  "⟩
    let name : Piece := ⟨.chunk, 10, "\"b"⟩
    ([key, gap, name] <:+: pieces text ∧ Stranded key gap name ∧
      ¬ProlongsKey key.text name.text) ∧
    pieces (repair text ⟨3, 11⟩).1 =
      [⟨.chunk, 0, "f:a"⟩, ⟨.gap, 3, " "⟩, ⟨.chunk, 4, "-t:\"b"⟩] ∧
    (∃ spelling c, (Term.ofText "-t:").content = .keyed spelling (.complete c) (.bare "") ∧
      Term.ofText "-t:\"b" = ⟨true, .keyed spelling (.complete c) (.unterminated .double "b"),
        "-t:\"b"⟩) ∧
    Term.atCursor (repair text ⟨3, 11⟩).1 (repair text ⟨3, 11⟩).2.focus =
      Term.ofText "-t:\"b" := by
  intro text key gap name
  have htriple : [key, gap, name] <:+: pieces text := by decide +kernel
  have hstranded : Stranded key gap name := by decide +kernel
  have hname : ¬ProlongsKey key.text name.text := by
    rintro ⟨h | h, -⟩
    · exact absurd h (by decide)
    · exact absurd h (by decide)
  obtain ⟨hpieces, hterms⟩ := repair_glues text
  obtain ⟨hvalue, hcursor⟩ := hterms key gap name htriple hstranded
  have hnegated : (Term.ofText key.text).negated = true := by decide +kernel
  have hchars : Text.ofChars name.text.toList = .unterminated .double "b" := by decide +kernel
  have happend : key.text ++ name.text = "-t:\"b" := by decide +kernel
  rw [happend, hnegated, hchars] at hvalue
  refine ⟨⟨htriple, hstranded, hname⟩, ?_, hvalue hname, ?_⟩
  · rw [hpieces]
    decide +kernel
  · exact (hcursor ⟨3, 11⟩).2 (by decide) (by decide)

end Repair

end CardFilter.Draft
