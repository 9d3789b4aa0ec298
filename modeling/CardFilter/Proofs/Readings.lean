import CardFilter.Proofs.PieceLayout

/-!
# How pieces are read

A text that is being typed is read from the left to the right, and every piece takes some characters
away from what is left. This file says what each kind of piece takes
(`CardFilter.Draft.PieceKind.CutsOff`) and puts the steps together to a relation
(`CardFilter.Draft.Reads`) that holds of a text and exactly its pieces
(`CardFilter.Draft.reads_iff`). It is made to read a text whose pieces are known inside another
one: the texts of the pieces are the same, and only what follows them is another.

What follows a piece has a say in it in three ways only: whether the word `or` ends there, which
characters end a chunk, and whether a last quote may stay open
(`CardFilter.Draft.cutChunk_append_congr`).
-/

namespace CardFilter.Draft

/-! ### Texts that begin alike -/

/-- The last letter of the word `or` stands here, with the end of the word behind it. -/
def finishesOr : List Char → Bool
  | [] => false
  | c :: rest => c.toLower == 'r' && endsWord rest

/-- **Two texts begin alike**: for a piece that stands before them they are the same, since it ends
or goes on in front of the one as in front of the other. -/
structure BeginAlike (cs cs' : List Char) : Prop where
  /-- A parenthesis opens. -/
  opens : cs.head? = some '(' ↔ cs'.head? = some '('
  /-- A parenthesis closes. -/
  closes : cs.head? = some ')' ↔ cs'.head? = some ')'
  /-- A word ends before the text. -/
  endsWord : endsWord cs = endsWord cs'
  /-- A negated group opens. -/
  negated : opensNegated cs = opensNegated cs'
  /-- The word `or` is finished. -/
  finishesOr : finishesOr cs = finishesOr cs'
  /-- The word `or` stands here. -/
  startsOr : startsWithOr true cs = startsWithOr true cs'

section Alike

variable {bounded : Bool} {c : Char} {front cs cs' : List Char}

theorem opensNegated_cons_iff {cs : List Char} :
    opensNegated (c :: cs) = true ↔ c = '-' ∧ cs.head? = some '(' := by
  rw [opensNegated_eq_true_iff]
  constructor
  · rintro ⟨rest, h⟩
    obtain ⟨rfl, rfl⟩ := List.cons.inj h
    exact ⟨rfl, rfl⟩
  · rintro ⟨rfl, hopen⟩
    obtain ⟨rest, rfl⟩ := List.head?_eq_some_iff.mp hopen
    exact ⟨rest, rfl⟩

theorem startsWithOr_cons :
    startsWithOr bounded (c :: cs) = (bounded && c.toLower == 'o' && finishesOr cs) := by
  rcases cs with _ | ⟨d, cs⟩
  · simp [startsWithOr, finishesOr]
  · simp only [startsWithOr, finishesOr, Bool.and_assoc]

/-- No blank is a capital letter. -/
theorem toLower_eq_of_isBlank (hc : isBlank c = true) : c.toLower = c := by
  refine dif_neg ?_
  rintro ⟨hlower, hupper⟩
  obtain ⟨b, hb, hlo, hhi⟩ := inRanges_eq_true.mp hc
  have hA : 65 ≤ c.toNat := UInt32.le_iff_toNat_le.mp hlower
  have hZ : c.toNat ≤ 90 := UInt32.le_iff_toNat_le.mp hupper
  rcases blankRanges_bounds b hb with hbound | hbound <;> omega

theorem startsWithOr_eq_and : startsWithOr bounded cs = (bounded && startsWithOr true cs) := by
  rcases cs with _ | ⟨c, cs⟩
  · simp [startsWithOr]
  · simp [startsWithOr_cons, Bool.and_assoc]

theorem BeginAlike.refl (cs : List Char) : BeginAlike cs cs :=
  ⟨.rfl, .rfl, rfl, rfl, rfl, rfl⟩

/-- The same character may stand before both. -/
theorem BeginAlike.cons (h : BeginAlike cs cs') : BeginAlike (c :: cs) (c :: cs') := by
  refine ⟨.rfl, .rfl, rfl, ?_, ?_, ?_⟩
  · rw [Bool.eq_iff_iff, opensNegated_cons_iff, opensNegated_cons_iff, h.opens]
  · rw [Draft.finishesOr, Draft.finishesOr, h.endsWord]
  · rw [startsWithOr_cons, startsWithOr_cons, h.finishesOr]

/-- And the same text. -/
theorem BeginAlike.append (front : List Char) (h : BeginAlike cs cs') :
    BeginAlike (front ++ cs) (front ++ cs') := by
  induction front with
  | nil => exact h
  | cons c front ih => exact ih.cons

/-- The symbol of an operator decides how the text begins. -/
theorem beginAlike_symbol (hc : c ∈ ['!', ':', '=', '<', '>']) :
    BeginAlike (c :: cs) (c :: cs') := by
  simp only [List.mem_cons, List.not_mem_nil, or_false] at hc
  refine ⟨.rfl, .rfl, rfl, ?_, ?_, ?_⟩
  · rw [Bool.eq_iff_iff, opensNegated_cons_iff, opensNegated_cons_iff]
    refine and_congr_right ?_
    rintro rfl
    simp at hc
  · rcases hc with rfl | rfl | rfl | rfl | rfl <;> rfl
  · rw [startsWithOr_cons, startsWithOr_cons]
    rcases hc with rfl | rfl | rfl | rfl | rfl <;> rfl

/-- A blank ends what stands before it as the end of the text does. -/
theorem beginAlike_blank (hc : isBlank c = true) : BeginAlike [] (c :: cs) := by
  have hne : ∀ d : Char, isBlank d = false → c ≠ d := by
    rintro d hd rfl
    rw [hd] at hc
    cases hc
  have hletter : ∀ d : Char, isBlank d = false → (c.toLower == d) = false := by
    intro d hd
    rw [toLower_eq_of_isBlank hc, beq_eq_false_iff_ne]
    exact hne d hd
  refine ⟨?_, ?_, ?_, ?_, ?_, ?_⟩
  · simpa using hne '(' (by decide)
  · simpa using hne ')' (by decide)
  · simp [Draft.endsWord, hc]
  · have hminus : opensNegated (c :: cs) = false := by
      rw [Bool.eq_false_iff, Ne, opensNegated_cons_iff]
      exact fun h => hne '-' (by decide) h.1
    rw [hminus]
    rfl
  · change false = (c.toLower == 'r' && Draft.endsWord cs)
    rw [hletter 'r' (by decide)]
    rfl
  · rw [startsWithOr_cons, hletter 'o' (by decide)]
    rfl

/-- **The same kind of piece** begins in both. -/
theorem BeginAlike.kindAt_eq (h : BeginAlike cs cs') : kindAt bounded cs = kindAt bounded cs' := by
  have hopens : (cs.head? == some '(') = (cs'.head? == some '(') := by
    rw [Bool.eq_iff_iff, beq_iff_eq, beq_iff_eq, h.opens]
  have hcloses : (cs.head? == some ')') = (cs'.head? == some ')') := by
    rw [Bool.eq_iff_iff, beq_iff_eq, beq_iff_eq, h.closes]
  rw [kindAt, kindAt, startsWithOr_eq_and, h.negated, hopens, hcloses, h.startsOr,
    ← startsWithOr_eq_and]

end Alike

/-! ### Chunks and what follows them -/

/-- **A chunk ends here**, outside of its quotes; `fresh` says that a quote was closed just
before. -/
def stopsChunk (fresh : Bool) (cs : List Char) : Bool :=
  endsWord cs || fresh && opensNegated cs

section Chunk

variable {mode : Mode} {within within' : Option (Quote × Nat)} {fresh : Bool}
  {position : Nat} {c : Char} {front text after after' : List Char}

/-- Where a chunk ends, nothing is cut off. -/
theorem cutChunk_none_eq_nil_iff {cs : List Char} :
    cutChunk mode none fresh position cs = .ok ([], cs) ↔ stopsChunk fresh cs = true := by
  rcases cs with _ | ⟨c, rest⟩
  · simp [cutChunk, stopsChunk, endsWord]
  · rw [cutChunk, stopsChunk, endsWord]
    split
    · rename_i hstop
      exact iff_of_true rfl hstop
    · rename_i hstop
      refine iff_of_false ?_ hstop
      split <;> simp

/-- A chunk goes on with a character that does not end it. -/
theorem cutChunk_none_cons_iff {cs : List Char} :
    cutChunk mode none fresh position (c :: cs) = .ok (c :: text, after) ↔
      stopsChunk fresh (c :: cs) = false ∧
        cutChunk mode ((Quote.ofChar? c).map fun q => (q, position)) false
          (position + c.utf8Size) cs = .ok (text, after) := by
  rw [cutChunk, stopsChunk, endsWord]
  split
  · rename_i hstop
    refine iff_of_false (by simp) fun h => ?_
    rw [hstop] at h
    cases h.1
  · rename_i hstop
    rw [Bool.not_eq_true] at hstop
    rw [and_iff_right hstop]
    split
    · rename_i hcut
      rw [hcut]
      simp
    · rename_i hcut
      rw [hcut]
      simp

/-- A quoted stretch goes on with any character. -/
theorem cutChunk_some_cons_iff {q : Quote} {start : Nat} {cs : List Char} :
    cutChunk mode (some (q, start)) fresh position (c :: cs) = .ok (c :: text, after) ↔
      cutChunk mode (if c = q.mark then none else some (q, start)) true
        (position + c.utf8Size) cs = .ok (text, after) := by
  rw [cutChunk]
  split
  · rename_i hcut
    rw [hcut]
    simp
  · rename_i hcut
    rw [hcut]
    simp

/-- **A chunk is the same in front of another text** that begins alike. Only a quote that is open at
the end of the text needs the end. -/
theorem cutChunk_append_congr (halike : BeginAlike after after')
    (hend : mode = .tolerant → after = [] → after' = []) (position' : Nat)
    (hwithin : within.map Prod.fst = within'.map Prod.fst)
    (h : cutChunk mode within fresh position (text ++ after) = .ok (text, after)) :
    cutChunk .tolerant within' fresh position' (text ++ after') = .ok (text, after') := by
  induction text generalizing within within' fresh position position' with
  | nil =>
    rcases within with _ | ⟨q, start⟩
    · obtain rfl := Option.map_eq_none_iff.mp hwithin.symm
      have hstops := cutChunk_none_eq_nil_iff.mp h
      rw [List.nil_append, stopsChunk, halike.endsWord, halike.negated] at hstops
      exact cutChunk_none_eq_nil_iff.mpr hstops
    · -- the quote is still open, so that the text ends
      obtain ⟨⟨r, start'⟩, rfl, rfl⟩ := Option.map_eq_some_iff.mp hwithin.symm
      rcases after with _ | ⟨c, rest⟩
      · cases mode with
        | strict => cases h
        | tolerant =>
          rw [hend rfl rfl]
          rfl
      · rw [List.nil_append, cutChunk] at h
        split at h <;> cases h
  | cons c text ih =>
    rw [List.cons_append] at h ⊢
    rcases within with _ | ⟨q, start⟩
    · obtain rfl := Option.map_eq_none_iff.mp hwithin.symm
      obtain ⟨hgoes, hrest⟩ := cutChunk_none_cons_iff.mp h
      have halike : BeginAlike (c :: (text ++ after)) (c :: (text ++ after')) :=
        (halike.append text).cons
      rw [stopsChunk, halike.endsWord, halike.negated] at hgoes
      refine cutChunk_none_cons_iff.mpr ⟨hgoes, ih _ ?_ hrest⟩
      rw [Option.map_map, Option.map_map]
      rfl
    · obtain ⟨⟨r, start'⟩, rfl, rfl⟩ := Option.map_eq_some_iff.mp hwithin.symm
      refine cutChunk_some_cons_iff.mpr (ih _ ?_ (cutChunk_some_cons_iff.mp h))
      split <;> rfl

/-- A chunk is the same at every position. -/
theorem cutChunk_tolerant_position (position' : Nat)
    (h : cutChunk .tolerant none fresh position (text ++ after) = .ok (text, after)) :
    cutChunk .tolerant none fresh position' (text ++ after) = .ok (text, after) :=
  cutChunk_append_congr (.refl after) (fun _ => id) position' rfl h

end Chunk

/-! ### Steps of the reader -/

/-- A word may begin behind the piece. -/
def PieceKind.bounds : PieceKind → Bool
  | or | chunk => false
  | openGroup | closeGroup | gap => true

/-- **What a piece of each kind takes** from a text that begins with one: a chunk all that is cut
off as one, and a gap all blanks. -/
def PieceKind.CutsOff : PieceKind → (text after : List Char) → Prop
  | openGroup, text, _ => text = ['('] ∨ text = ['-', '(']
  | closeGroup, text, _ => text = [')']
  | or, text, _ => Value.isOrWord (String.ofList text) = true
  | chunk, text, after =>
    text ≠ [] ∧ cutChunk .tolerant none true 0 (text ++ after) = .ok (text, after)
  | gap, text, after => text ≠ [] ∧ Blanks text ∧ ∀ d ∈ after.head?, isBlank d = false

section Steps

variable {mode : Mode} {kind : PieceKind} {bounded padded : Bool} {position : Nat} {c : Char}
  {rest text blanks after : List Char}

theorem PieceKind.CutsOff.ne_nil (h : kind.CutsOff text after) : text ≠ [] := by
  cases kind with
  | openGroup => rcases h with rfl | rfl <;> simp
  | closeGroup => simp [show text = [')'] from h]
  | or =>
    obtain ⟨o, r, rfl, -, -⟩ := isOrWord_iff.mp h
    simp
  | chunk => exact h.1
  | gap => exact h.1

/-- **Something is taken** wherever no blank stands. -/
theorem exists_cutsOff (bounded : Bool) (rest : List Char) (hc : isBlank c = false) :
    ∃ text after, c :: rest = text ++ after ∧
      (kindAt bounded (c :: rest)).CutsOff text after := by
  unfold kindAt
  split
  · rename_i hopen
    simp only [Bool.or_eq_true, beq_iff_eq] at hopen
    rcases hopen with hnegated | hopen
    · obtain ⟨after, hsplit⟩ := opensNegated_eq_true_iff.mp hnegated
      exact ⟨['-', '('], after, hsplit, .inr rfl⟩
    · obtain rfl := Option.some.inj hopen
      exact ⟨['('], rest, rfl, .inl rfl⟩
  rename_i hopen
  split
  · rename_i hclose
    simp only [beq_iff_eq] at hclose
    obtain rfl := Option.some.inj hclose
    exact ⟨[')'], rest, rfl, rfl⟩
  rename_i hclose
  split
  · rename_i hor
    exact exists_word_of_startsWithOr hor
  · rcases hcut : cutChunk .tolerant none true 0 (c :: rest) with e | ⟨text, after⟩
    · exact absurd hcut cutChunk_tolerant_ne_error
    · have hsplit := eq_append_of_cutChunk hcut
      have hbegins : beginsChunk (c :: rest) = true := by
        simp only [Bool.or_eq_true, not_or, Bool.not_eq_true, List.head?_cons, beq_iff_eq,
          Option.some.injEq] at hopen hclose
        simp [beginsChunk, isParenthesis, hc, hopen.1, hopen.2, hclose]
      exact ⟨text, after, hsplit, ne_nil_of_cutChunk hbegins hcut, hsplit ▸ hcut⟩

/-- **One piece is read off** a text, which goes on behind it. -/
theorem piecesFrom_append (hhead : ∀ d ∈ text.head?, isBlank d = false)
    (hkind : kindAt bounded (text ++ after) = kind) (h : kind.CutsOff text after) :
    piecesFrom .tolerant bounded padded position (text ++ after) =
      (piecesFrom .tolerant kind.bounds kind.padsRight (position + byteLength text) after).map
        (⟨kind, position, String.ofList text⟩ :: ·) := by
  obtain ⟨c, tail, rfl⟩ := List.exists_cons_of_ne_nil h.ne_nil
  rw [List.cons_append, piecesFrom_cons, if_neg (by simp [hhead c rfl])]
  rw [List.cons_append, kindAt] at hkind
  split at hkind
  · rename_i hopen
    subst hkind
    rcases h with hopens | hopens
    · obtain ⟨rfl, rfl⟩ := List.cons.inj hopens
      rw [if_neg (by simp [opensNegated]), if_pos rfl]
      rfl
    · obtain ⟨rfl, rfl⟩ := List.cons.inj hopens
      rw [if_pos (opensNegated_cons_iff.mpr ⟨rfl, rfl⟩)]
      rfl
  rename_i hopen
  simp only [Bool.or_eq_true, not_or, beq_iff_eq, List.head?_cons, Option.some.injEq] at hopen
  rw [if_neg hopen.1, if_neg hopen.2]
  split at hkind
  · rename_i hclose
    subst hkind
    obtain ⟨rfl, rfl⟩ := List.cons.inj h
    rw [if_pos rfl]
    rfl
  rename_i hclose
  rw [if_neg (by simpa using hclose)]
  split at hkind
  · rename_i hor
    subst hkind
    have hlength := byteLength_of_isOrWord h
    obtain ⟨o, r, hword, -, -⟩ := isOrWord_iff.mp h
    obtain ⟨rfl, rfl⟩ := List.cons.inj hword
    rw [if_pos hor, hlength]
    rfl
  · rename_i hor
    subst hkind
    have hcut := cutChunk_tolerant_position position h.2
    rw [List.cons_append] at hcut
    rw [if_neg hor, hcut]
    rfl

/-- **A run of blanks is read off** a text: it pads the piece before or the next one, or it is a
gap. -/
theorem piecesFrom_blanks (h : PieceKind.gap.CutsOff blanks after) :
    piecesFrom mode bounded padded position (blanks ++ after) =
      if padded || (kindAt true after).padsLeft then
        piecesFrom mode true padded (position + byteLength blanks) after
      else
        (piecesFrom mode true false (position + byteLength blanks) after).map
          (⟨.gap, position, String.ofList blanks⟩ :: ·) := by
  obtain ⟨hne, hblanks, hafter⟩ := h
  obtain ⟨c, tail, rfl⟩ := List.exists_cons_of_ne_nil hne
  obtain ⟨hc, htail⟩ := blanks_cons.mp hblanks
  rw [List.cons_append, piecesFrom_cons, if_pos hc, takeWhile_append_of_head? htail hafter,
    dropWhile_append_of_head? htail hafter, padsLeft_kindAt]
  simp only [Bool.or_assoc]

end Steps

/-! ### The pieces that a text reads as -/

/-- **A text reads as pieces.** The text starts at the byte position `position`; `bounded` says that
a word may begin there, and `padded` that the piece before it takes blanks in. -/
inductive Reads : (bounded padded : Bool) → (position : Nat) → List Char → List Piece → Prop
  /-- Nothing is left. -/
  | nil {bounded padded : Bool} {position : Nat} : Reads bounded padded position [] []
  /-- Blanks pad the piece before or the next one. -/
  | pad {bounded padded : Bool} {position : Nat} {blanks after : List Char} {ps : List Piece} :
    PieceKind.gap.CutsOff blanks after → (padded || (kindAt true after).padsLeft) = true →
    Reads true padded (position + byteLength blanks) after ps →
    Reads bounded padded position (blanks ++ after) ps
  /-- Blanks are a gap. -/
  | gap {bounded padded : Bool} {position : Nat} {blanks after : List Char} {ps : List Piece} :
    PieceKind.gap.CutsOff blanks after → (padded || (kindAt true after).padsLeft) = false →
    Reads true false (position + byteLength blanks) after ps →
    Reads bounded padded position (blanks ++ after) (⟨.gap, position, String.ofList blanks⟩ :: ps)
  /-- A piece begins here. -/
  | piece {bounded padded : Bool} {position : Nat} {kind : PieceKind} {text after : List Char}
      {ps : List Piece} :
    (∀ d ∈ text.head?, isBlank d = false) → kindAt bounded (text ++ after) = kind →
    kind.CutsOff text after →
    Reads kind.bounds kind.padsRight (position + byteLength text) after ps →
    Reads bounded padded position (text ++ after) (⟨kind, position, String.ofList text⟩ :: ps)

section Reads

variable {bounded padded : Bool} {position : Nat} {cs : List Char} {p : Piece} {ps : List Piece}

theorem reads_of_piecesFrom (h : piecesFrom .tolerant bounded padded position cs = .ok ps) :
    Reads bounded padded position cs ps := by
  -- A step takes a whole piece or a whole run of blanks off, so the induction is on the length of
  -- what is left.
  induction hlength : cs.length using Nat.strong_induction_on
    generalizing bounded padded position cs ps with
  | _ n ih =>
  rcases cs with _ | ⟨c, rest⟩
  · rw [piecesFrom] at h
    cases h
    exact .nil
  by_cases hc : isBlank c = true
  · have hcuts : PieceKind.gap.CutsOff (c :: rest.takeWhile isBlank) (rest.dropWhile isBlank) :=
      ⟨List.cons_ne_nil _ _, blanks_cons_takeWhile hc, fun d hd => eq_false_of_head?_dropWhile hd⟩
    have hsplit : c :: rest = (c :: rest.takeWhile isBlank) ++ rest.dropWhile isBlank := by simp
    have hshorter := hlength ▸ length_lt_of_eq_append hsplit hcuts.ne_nil
    rw [hsplit, piecesFrom_blanks hcuts] at h
    rw [hsplit]
    split at h
    · rename_i hpads
      exact .pad hcuts hpads (ih _ hshorter h rfl)
    · rename_i hpads
      obtain ⟨qs, hqs, rfl⟩ := exists_of_map_eq_ok h
      exact .gap hcuts (by simpa using hpads) (ih _ hshorter hqs rfl)
  · rw [Bool.not_eq_true] at hc
    obtain ⟨text, after, hsplit, hcuts⟩ := exists_cutsOff bounded rest hc
    have hshorter := hlength ▸ length_lt_of_eq_append hsplit hcuts.ne_nil
    have hhead : ∀ d ∈ text.head?, isBlank d = false := by
      intro d hd
      obtain ⟨tail, rfl⟩ := List.head?_eq_some_iff.mp hd
      rwa [← (List.cons.inj hsplit).1]
    rw [hsplit] at h hcuts ⊢
    rw [piecesFrom_append hhead rfl hcuts] at h
    obtain ⟨qs, hqs, rfl⟩ := exists_of_map_eq_ok h
    exact .piece hhead rfl hcuts (ih _ hshorter hqs rfl)

/-- **A text reads as its pieces** and as nothing else. -/
theorem reads_iff :
    Reads bounded padded position cs ps ↔
      piecesFrom .tolerant bounded padded position cs = .ok ps := by
  refine ⟨fun h => ?_, reads_of_piecesFrom⟩
  induction h with
  | nil => rw [piecesFrom]
  | pad hcuts hpads _ ih => rw [piecesFrom_blanks hcuts, if_pos hpads, ih]
  | gap hcuts hpads _ ih =>
    rw [piecesFrom_blanks hcuts, if_neg (by simp [hpads]), ih]
    rfl
  | piece hhead hkind hcuts _ ih =>
    rw [piecesFrom_append hhead hkind hcuts, ih]
    rfl

theorem reads_pieces (text : String) : Reads true false 0 text.toList (pieces text) :=
  reads_iff.mpr (piecesFrom_pieces text)

theorem pieces_eq_of_reads {text : String} (h : Reads true false 0 text.toList ps) :
    pieces text = ps :=
  Except.ok.inj ((piecesFrom_pieces text).symm.trans (reads_iff.mp h))

/-- **The piece that begins here**, where no blank does. -/
theorem Reads.exists_of_head (h : Reads bounded padded position cs (p :: ps))
    (hhead : ∀ d ∈ cs.head?, isBlank d = false) :
    ∃ text after, cs = text ++ after ∧ (kindAt bounded cs).CutsOff text after ∧
      p = ⟨kindAt bounded cs, position, String.ofList text⟩ ∧
      Reads (kindAt bounded cs).bounds (kindAt bounded cs).padsRight
        (position + byteLength text) after ps := by
  have hblank : ∀ {blanks after : List Char}, cs = blanks ++ after →
      ¬PieceKind.gap.CutsOff blanks after := by
    rintro blanks after rfl ⟨hne, hblanks, -⟩
    obtain ⟨c, tail, rfl⟩ := List.exists_cons_of_ne_nil hne
    have hc := hhead c rfl
    rw [hblanks c List.mem_cons_self] at hc
    cases hc
  generalize hqs : p :: ps = qs at h
  cases h with
  | nil => cases hqs
  | pad hcuts => exact absurd hcuts (hblank rfl)
  | gap hcuts => exact absurd hcuts (hblank rfl)
  | piece _ hkind hcuts hps =>
    obtain ⟨rfl, rfl⟩ := List.cons.inj hqs
    subst hkind
    exact ⟨_, _, rfl, hcuts, rfl, hps⟩

/-- **The gap that begins here.** -/
theorem Reads.exists_of_gap (h : Reads bounded padded position cs (p :: ps))
    (hgap : p.kind = .gap) :
    ∃ blanks after, cs = blanks ++ after ∧ PieceKind.gap.CutsOff blanks after ∧
      p = ⟨.gap, position, String.ofList blanks⟩ ∧
      Reads true false (position + byteLength blanks) after ps := by
  generalize hqs : p :: ps = qs at h
  cases h with
  | nil => cases hqs
  | pad hcuts hpads hps =>
    -- what the blanks pad is no gap
    subst hqs
    obtain ⟨text, after, -, -, rfl, -⟩ := hps.exists_of_head hcuts.2.2
    exact absurd hgap kindAt_ne_gap
  | gap hcuts hpads hps =>
    obtain ⟨rfl, rfl⟩ := List.cons.inj hqs
    exact ⟨_, _, rfl, hcuts, rfl, hps⟩
  | piece _ hkind =>
    obtain ⟨rfl, rfl⟩ := List.cons.inj hqs
    exact absurd (hkind.trans hgap) kindAt_ne_gap

/-- **The chunk that begins here.** Where no blanks are taken in on the left, none stand in front of
it. -/
theorem Reads.exists_of_chunk (h : Reads bounded false position cs (p :: ps))
    (hchunk : p.kind = .chunk) :
    ∃ text after, cs = text ++ after ∧ (∀ d ∈ text.head?, isBlank d = false) ∧
      kindAt bounded (text ++ after) = .chunk ∧ PieceKind.chunk.CutsOff text after ∧
      p = ⟨.chunk, position, String.ofList text⟩ ∧
      Reads false false (position + byteLength text) after ps := by
  generalize hqs : p :: ps = qs at h
  cases h with
  | nil => cases hqs
  | pad hcuts hpads hps =>
    -- blanks in front pad no chunk
    subst hqs
    obtain ⟨text, after, -, -, rfl, -⟩ := hps.exists_of_head hcuts.2.2
    exact absurd hchunk (kindAt_ne_chunk_of_padsLeft (by simpa using hpads))
  | gap =>
    obtain ⟨rfl, rfl⟩ := List.cons.inj hqs
    cases hchunk
  | piece hhead hkind hcuts hps =>
    obtain ⟨rfl, rfl⟩ := List.cons.inj hqs
    obtain rfl := hchunk
    exact ⟨_, _, rfl, hhead, hkind, hcuts, rfl, hps⟩

end Reads

end CardFilter.Draft
