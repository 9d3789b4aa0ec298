import CardFilter.Proofs.Readings

/-!
# The term under a cursor

The term under a cursor is that of the chunk which the cursor touches. A text can be put together
from chunks that are known, with blanks between them, and this file shows that it makes no
difference to a chunk where it stands: under a cursor on it is the term that its own text writes,
and under a cursor anywhere else is the empty one (`CardFilter.Draft.Term.atCursor_spread`).

* **A chunk is read in front of blanks as it is read alone** (`CardFilter.Draft.OneChunk.cutsOff`),
  provided that no quote is left open in it; only the last chunk may end with an open quote. So the
  text reads as the chunks and the blanks that it is put together from
  (`CardFilter.Draft.reads_spread`).
* **A cursor touches one chunk at most** (`CardFilter.Draft.length_touched_le_one`), in every text,
  because two chunks have another piece between them.
-/

namespace CardFilter.Draft

/-! ### The chunk that a cursor touches -/

/-- **The cursor touches the piece**, which is a chunk: it is in it or at one of its ends. -/
def Piece.isTouched (p : Piece) (position : Nat) : Bool :=
  p.kind == .chunk && p.start ≤ position && position ≤ p.stop

section Touched

variable {text : String} {position : Nat} {p q g : Piece} {ps : List Piece}

theorem Piece.isTouched_iff :
    p.isTouched position = true ↔ p.kind = .chunk ∧ p.start ≤ position ∧ position ≤ p.stop := by
  simp [isTouched, and_assoc]

/-- **Two chunks do not touch each other.** -/
theorem Tiles.apart {cs : List Char} (h : Tiles cs ps) :
    ps.Pairwise fun p q => p.kind = .chunk → q.kind = .chunk → p.stop < q.start := by
  obtain ⟨hnonempty, -, hordered, -, -, hneighbours⟩ := h
  induction ps with
  | nil => exact .nil
  | cons p ps ih =>
    obtain ⟨hp, hordered⟩ := List.pairwise_cons.mp hordered
    obtain ⟨-, hnonempty⟩ := List.forall_mem_cons.mp hnonempty
    refine .cons (fun q hq hpchunk hqchunk => ?_) (ih hnonempty hordered hneighbours.tail)
    rcases ps with _ | ⟨r, ps⟩
    · cases hq
    have hle := hp r List.mem_cons_self
    rcases List.mem_cons.mp hq with rfl | hq
    · -- the next piece is no chunk
      exact absurd hqchunk ((List.isChain_cons_cons.mp hneighbours).1.chunks hpchunk)
    · -- it stands between the two chunks, and it is not empty
      have hlt := hnonempty r List.mem_cons_self
      have hbefore := (List.pairwise_cons.mp hordered).1 q hq
      omega

theorem tiles_pieces_toList (text : String) : Tiles text.toList (pieces text) :=
  tiles_of_piecesFrom (piecesFrom_pieces text)

/-- **A cursor touches one chunk at most.** -/
theorem length_touched_le_one (text : String) (position : Nat) :
    ((pieces text).filter (·.isTouched position)).length ≤ 1 := by
  have hapart := (tiles_pieces_toList text).apart.filter (·.isTouched position)
  have htouched : ∀ p ∈ (pieces text).filter (·.isTouched position), p.kind = .chunk ∧
      p.start ≤ position ∧ position ≤ p.stop := fun p hp =>
    Piece.isTouched_iff.mp (List.mem_filter.mp hp).2
  generalize (pieces text).filter (·.isTouched position) = touched at *
  rcases touched with _ | ⟨p, _ | ⟨q, ps⟩⟩
  · exact Nat.zero_le 1
  · exact le_rfl
  · exfalso
    obtain ⟨hpchunk, -, hp⟩ := htouched p (by simp)
    obtain ⟨hqchunk, hq, -⟩ := htouched q (by simp)
    have hlt := (List.pairwise_cons.mp hapart).1 q List.mem_cons_self hpchunk hqchunk
    omega

theorem Term.atCursor_eq (text : String) (position : Nat) :
    atCursor text position = match (pieces text).find? (·.isTouched position) with
      | some p => ofText p.text
      | none => ofText "" :=
  rfl

/-- **On a chunk** there is the term of its text. -/
theorem Term.atCursor_of_mem (hp : p ∈ pieces text) (htouched : p.isTouched position = true) :
    atCursor text position = ofText p.text := by
  have hmem : p ∈ (pieces text).filter (·.isTouched position) := List.mem_filter.mpr ⟨hp, htouched⟩
  have hfound : ((pieces text).find? (·.isTouched position)).isSome = true :=
    List.find?_isSome.mpr ⟨p, hp, htouched⟩
  obtain ⟨q, hq⟩ := Option.isSome_iff_exists.mp hfound
  have hqtouched : q.isTouched position = true := by simpa using List.find?_some hq
  have hqmem : q ∈ (pieces text).filter (·.isTouched position) :=
    List.mem_filter.mpr ⟨List.mem_of_find?_eq_some hq, hqtouched⟩
  -- there is no room for two chunks
  have hle := length_touched_le_one text position
  obtain ⟨r, hr⟩ := List.length_eq_one_iff.mp (le_antisymm hle (List.length_pos_of_mem hmem))
  rw [hr, List.mem_singleton] at hmem hqmem
  rw [atCursor_eq, hq, hqmem, hmem]

/-- **Off the chunks** there is the empty term. -/
theorem Term.atCursor_of_forall (h : ∀ p ∈ pieces text, p.isTouched position = false) :
    atCursor text position = ofText "" := by
  rw [atCursor_eq, List.find?_eq_none.mpr fun p hp => by simp [h p hp]]

/-- Of two pieces that stand in order one is before the other, unless they are the same. -/
theorem eq_or_le_of_pairwise (h : ps.Pairwise fun p q => p.stop ≤ q.start) (hp : p ∈ ps)
    (hq : q ∈ ps) : p = q ∨ p.stop ≤ q.start ∨ q.stop ≤ p.start := by
  induction h with
  | nil => cases hp
  | cons hfirst _ ih =>
    rcases List.mem_cons.mp hp with rfl | hp' <;> rcases List.mem_cons.mp hq with rfl | hq'
    · exact .inl rfl
    · exact .inr (.inl (hfirst q hq'))
    · exact .inr (.inr (hfirst p hp'))
    · exact ih hp' hq'

/-- **Inside a gap** there is the empty term. -/
theorem Term.atCursor_of_gap (hg : g ∈ pieces text) (hgap : g.kind = .gap)
    (hstart : g.start < position) (hstop : position < g.stop) :
    atCursor text position = ofText "" := by
  refine atCursor_of_forall fun p hp => ?_
  rw [Bool.eq_false_iff, Ne, Piece.isTouched_iff]
  rintro ⟨hchunk, hle, hge⟩
  rcases eq_or_le_of_pairwise (laid_pieces text).pairwise hp hg with rfl | hbefore | hbehind
  · rw [hgap] at hchunk
    cases hchunk
  · omega
  · omega

/-- **Past the end** there is the empty term. -/
theorem Term.atCursor_of_byteLength_lt (h : byteLength text.toList < position) :
    atCursor text position = ofText "" := by
  refine atCursor_of_forall fun p hp => ?_
  rw [Bool.eq_false_iff, Ne, Piece.isTouched_iff]
  rintro ⟨-, -, hge⟩
  obtain ⟨before, after, happend, hstart⟩ := (laid_pieces text).exists_append hp
  rw [happend, byteLength_append, byteLength_append] at h
  rw [Piece.stop] at hge
  omega

end Touched

/-! ### A chunk on its own -/

/-- **The text reads as one chunk**, which is all of it. -/
def OneChunk (text : String) : Prop :=
  pieces text = [⟨.chunk, 0, text⟩]

instance : DecidablePred OneChunk := fun text =>
  inferInstanceAs (Decidable (pieces text = [⟨.chunk, 0, text⟩]))

instance : DecidablePred Blanks := fun cs =>
  decidable_of_iff (cs.all isBlank = true) List.all_eq_true

/-- No quote is left open in the text: a strict split has no fault. -/
def Closed (text : String) : Prop :=
  ∃ ps, piecesStrictly text = .ok ps

section OneChunk

variable {mode : Mode} {bounded padded : Bool} {position : Nat} {text : String}
  {cs after : List Char} {c : Char} {ps : List Piece}

/-- A split that has no fault has none in the chunk that begins here. -/
theorem exists_cutChunk_of_piecesFrom (hc : isBlank c = false)
    (hkind : kindAt bounded (c :: cs) = .chunk)
    (h : piecesFrom mode bounded padded position (c :: cs) = .ok ps) :
    ∃ chunk after, cutChunk mode none true position (c :: cs) = .ok (chunk, after) := by
  rw [kindAt] at hkind
  split at hkind
  · cases hkind
  rename_i hopen
  simp only [Bool.or_eq_true, not_or, beq_iff_eq, List.head?_cons, Option.some.injEq] at hopen
  split at hkind
  · cases hkind
  rename_i hclose
  split at hkind
  · cases hkind
  rename_i hor
  rw [piecesFrom_cons, if_neg (by simp [hc]), if_neg hopen.1, if_neg hopen.2,
    if_neg (by simpa using hclose), if_neg hor] at h
  rcases hcut : cutChunk mode none true position (c :: cs) with e | ⟨chunk, after⟩
  · rw [hcut] at h
    cases h
  · exact ⟨chunk, after, rfl⟩

/-- A chunk begins at the start of the text and takes all of it. -/
theorem OneChunk.begins (h : OneChunk text) :
    (∀ d ∈ text.toList.head?, isBlank d = false) ∧ kindAt true text.toList = .chunk ∧
      PieceKind.chunk.CutsOff text.toList [] := by
  have hreads := reads_pieces text
  rw [h] at hreads
  obtain ⟨chunk, after, htext, hhead, hkind, hcuts, hpiece, -⟩ := hreads.exists_of_chunk rfl
  obtain rfl : text = String.ofList chunk := (Piece.mk.inj hpiece).2.2
  rw [String.toList_ofList] at htext ⊢
  obtain rfl : after = [] := by simpa using htext
  rw [List.append_nil] at hkind
  exact ⟨hhead, hkind, hcuts⟩

/-- **A chunk in front of blanks** is what it is alone, if no quote is left open in it. -/
theorem OneChunk.cutsOff (h : OneChunk text) (hclosed : Closed text)
    (hafter : BeginAlike [] after) : PieceKind.chunk.CutsOff text.toList after := by
  obtain ⟨hhead, hkind, hne, hcut⟩ := h.begins
  obtain ⟨ps, hps⟩ := hclosed
  rw [piecesStrictly] at hps
  rw [List.append_nil] at hcut
  generalize text.toList = cs at *
  obtain ⟨c, rest, rfl⟩ := List.exists_cons_of_ne_nil hne
  obtain ⟨chunk, rear, hstrict⟩ := exists_cutChunk_of_piecesFrom (hhead c rfl) hkind hps
  -- a strict cut is a tolerant one
  have hsplit := eq_append_of_cutChunk hstrict
  have htolerant : cutChunk .tolerant none true 0 (chunk ++ rear) = .ok (chunk, rear) :=
    cutChunk_append_congr (.refl rear) (fun _ => id) 0 rfl (hsplit ▸ hstrict)
  rw [← hsplit, hcut] at htolerant
  cases htolerant
  have hstrict : cutChunk .strict none true 0 (c :: rest ++ []) = .ok (c :: rest, []) := by
    rwa [List.append_nil]
  refine ⟨hne, cutChunk_append_congr hafter ?_ 0 rfl hstrict⟩
  intro hmode
  cases hmode

end OneChunk

/-! ### Chunks with blanks between them -/

/-- Chunks, each with the blanks that follow it. -/
def spread (front : List (String × String)) : List Char :=
  front.flatMap fun (chunk, blanks) => chunk.toList ++ blanks.toList

/-- **A chunk and its blanks**: the first text reads as one chunk in which no quote is left open,
and the second one is nothing but blanks, and not empty. -/
structure IsMember (p : String × String) : Prop where
  /-- The first text reads as one chunk. -/
  chunk : OneChunk p.1
  /-- No quote is left open in it. -/
  closed : Closed p.1
  /-- Something separates it from what follows. -/
  ne_nil : p.2.toList ≠ []
  /-- What separates it is blank. -/
  blanks : Blanks p.2.toList

/-- The pieces of a text that is put together from chunks and blanks. -/
def spreadPieces (position : Nat) : List (String × String) → String → List Piece
  | [], last => [⟨.chunk, position, last⟩]
  | (chunk, blanks) :: front, last =>
    ⟨.chunk, position, chunk⟩ :: ⟨.gap, position + byteLength chunk.toList, blanks⟩ ::
      spreadPieces (position + byteLength chunk.toList + byteLength blanks.toList) front last

section Spread

variable {position : Nat} {chunk blanks last : String} {front before after : List (String × String)}

theorem spread_append : spread (before ++ after) = spread before ++ spread after := by
  simp [spread]

/-- What begins with a blank separates. -/
theorem beginAlike_append_of_blanks {bs rest : List Char} (hne : bs ≠ []) (hblanks : Blanks bs) :
    BeginAlike [] (bs ++ rest) := by
  obtain ⟨c, tail, rfl⟩ := List.exists_cons_of_ne_nil hne
  exact beginAlike_blank (hblanks c List.mem_cons_self)

/-- A chunk begins the text also in front of something else, if nothing runs on into it. -/
theorem OneChunk.begins_append {rest : List Char} (h : OneChunk chunk)
    (hrest : BeginAlike [] rest) :
    (∀ d ∈ (chunk.toList ++ rest).head?, isBlank d = false) ∧
      kindAt true (chunk.toList ++ rest) = .chunk := by
  obtain ⟨hhead, hkind, hne, -⟩ := h.begins
  refine ⟨?_, ?_⟩
  · rwa [List.head?_append_of_ne_nil _ hne]
  · rw [← (hrest.append chunk.toList).kindAt_eq, List.append_nil, hkind]

/-- What is put together begins with a chunk. -/
theorem begins_spread (hfront : ∀ p ∈ front, IsMember p) (hlast : OneChunk last) :
    (∀ d ∈ (spread front ++ last.toList).head?, isBlank d = false) ∧
      kindAt true (spread front ++ last.toList) = .chunk := by
  rcases front with _ | ⟨⟨chunk, blanks⟩, front⟩
  · exact ⟨hlast.begins.1, hlast.begins.2.1⟩
  · obtain ⟨⟨hchunk, -, hne, hblanks⟩, -⟩ := List.forall_mem_cons.mp hfront
    have happend : spread ((chunk, blanks) :: front) ++ last.toList =
        chunk.toList ++ (blanks.toList ++ (spread front ++ last.toList)) := by
      simp [spread]
    rw [happend]
    exact hchunk.begins_append (beginAlike_append_of_blanks hne hblanks)

/-- **Chunks with blanks between them** read as what they are. -/
theorem reads_spread (hfront : ∀ p ∈ front, IsMember p) (hlast : OneChunk last) (position : Nat) :
    Reads true false position (spread front ++ last.toList) (spreadPieces position front last) := by
  induction front generalizing position with
  | nil =>
    obtain ⟨hhead, hkind, hcuts⟩ := hlast.begins
    rw [← List.append_nil last.toList] at hkind
    have hreads : Reads true false position (last.toList ++ [])
        [⟨.chunk, position, String.ofList last.toList⟩] := .piece hhead hkind hcuts .nil
    rwa [List.append_nil, String.ofList_toList] at hreads
  | cons p front ih =>
    obtain ⟨⟨hchunk, hclosed, hne, hblanks⟩, hfront⟩ := List.forall_mem_cons.mp hfront
    obtain ⟨hhead, hkind⟩ := begins_spread hfront hlast
    have hgap : PieceKind.gap.CutsOff p.2.toList (spread front ++ last.toList) :=
      ⟨hne, hblanks, hhead⟩
    have hreads : Reads false false (position + byteLength p.1.toList)
        (p.2.toList ++ (spread front ++ last.toList))
        (⟨.gap, position + byteLength p.1.toList, String.ofList p.2.toList⟩ ::
          spreadPieces (position + byteLength p.1.toList + byteLength p.2.toList) front last) := by
      refine .gap hgap ?_ (ih hfront _)
      rw [hkind]
      rfl
    have halike : BeginAlike [] (p.2.toList ++ (spread front ++ last.toList)) :=
      beginAlike_append_of_blanks hne hblanks
    have happend : spread (p :: front) ++ last.toList =
        p.1.toList ++ (p.2.toList ++ (spread front ++ last.toList)) := by
      simp [spread]
    rw [happend]
    have hwhole : Reads true false position _ (⟨.chunk, position, String.ofList p.1.toList⟩ :: _) :=
      .piece hchunk.begins.1 (hchunk.begins_append halike).2 (hchunk.cutsOff hclosed halike) hreads
    rwa [String.ofList_toList, String.ofList_toList] at hwhole

/-- **A chunk stands behind what is put before it**, and its blanks behind it. -/
theorem mem_spreadPieces (position : Nat) (last : String)
    (h : front = before ++ (chunk, blanks) :: after) :
    ⟨.chunk, position + byteLength (spread before), chunk⟩ ∈ spreadPieces position front last ∧
      ⟨.gap, position + byteLength (spread before ++ chunk.toList), blanks⟩ ∈
        spreadPieces position front last := by
  subst h
  induction before generalizing position with
  | nil => simp [spreadPieces, spread]
  | cons p before ih =>
    have hlength : position + byteLength (spread (p :: before)) =
        position + byteLength p.1.toList + byteLength p.2.toList + byteLength (spread before) := by
      simp [spread, Nat.add_assoc]
    obtain ⟨hchunk, hgap⟩ := ih (position + byteLength p.1.toList + byteLength p.2.toList)
    rw [byteLength_append, ← Nat.add_assoc] at hgap ⊢
    rw [hlength]
    exact ⟨List.mem_cons_of_mem _ (List.mem_cons_of_mem _ hchunk),
      List.mem_cons_of_mem _ (List.mem_cons_of_mem _ hgap)⟩

/-- The last chunk stands behind all the others. -/
theorem last_mem_spreadPieces (position : Nat) (front : List (String × String)) (last : String) :
    ⟨.chunk, position + byteLength (spread front), last⟩ ∈ spreadPieces position front last := by
  induction front generalizing position with
  | nil => simp [spreadPieces, spread]
  | cons p front ih =>
    have hmem := ih (position + byteLength p.1.toList + byteLength p.2.toList)
    have hlength : position + byteLength (spread (p :: front)) =
        position + byteLength p.1.toList + byteLength p.2.toList + byteLength (spread front) := by
      simp [spread, Nat.add_assoc]
    rw [hlength]
    exact List.mem_cons_of_mem _ (List.mem_cons_of_mem _ hmem)

/-- A text that is put together falls into the chunks and the blanks. -/
theorem pieces_spread (hfront : ∀ p ∈ front, IsMember p) (hlast : OneChunk last) :
    pieces (String.ofList (spread front ++ last.toList)) = spreadPieces 0 front last := by
  refine pieces_eq_of_reads ?_
  rw [String.toList_ofList]
  exact reads_spread hfront hlast 0

/-- **Where a chunk stands makes no difference** to the term under a cursor on it. Between the
chunks and past the end there is the empty term. In no text are there two chunks to choose from. -/
theorem Term.atCursor_spread :
    (∀ (front : List (String × String)) (last : String), (∀ p ∈ front, IsMember p) →
      OneChunk last →
      let text := String.ofList (spread front ++ last.toList)
      (∀ before chunk blanks after, front = before ++ (chunk, blanks) :: after → ∀ position,
        (byteLength (spread before) ≤ position →
          position ≤ byteLength (spread before ++ chunk.toList) →
            atCursor text position = ofText chunk) ∧
        (byteLength (spread before ++ chunk.toList) < position →
          position < byteLength (spread (before ++ [(chunk, blanks)])) →
            atCursor text position = ofText "")) ∧
      (∀ position, byteLength (spread front) ≤ position → position ≤ byteLength text.toList →
        atCursor text position = ofText last) ∧
      ∀ position, byteLength text.toList < position → atCursor text position = ofText "") ∧
    ∀ text position, ((pieces text).filter (·.isTouched position)).length ≤ 1 := by
  refine ⟨fun front last hfront hlast => ⟨?_, ?_, fun _ => atCursor_of_byteLength_lt⟩,
    length_touched_le_one⟩
  · intro before chunk blanks after hsplit position
    obtain ⟨hchunk, hgap⟩ := mem_spreadPieces 0 last hsplit
    rw [← pieces_spread hfront hlast, Nat.zero_add] at hchunk hgap
    refine ⟨fun hstart hstop => ?_, fun hstart hstop => ?_⟩
    · refine atCursor_of_mem hchunk (Piece.isTouched_iff.mpr ⟨rfl, hstart, ?_⟩)
      rwa [byteLength_append] at hstop
    · refine atCursor_of_gap hgap rfl hstart ?_
      rw [spread_append, byteLength_append] at hstop
      simpa [Piece.stop, spread, Nat.add_assoc] using hstop
  · intro position hstart hstop
    have hmem := last_mem_spreadPieces 0 front last
    rw [← pieces_spread hfront hlast, Nat.zero_add] at hmem
    refine atCursor_of_mem hmem (Piece.isTouched_iff.mpr ⟨rfl, hstart, ?_⟩)
    rwa [String.toList_ofList, byteLength_append] at hstop

/-- Chunks with a closed quote, with a letter of two bytes, and with a quote that is left open at
the end. -/
theorem Term.atCursor_spread_open_quote :
    let front := [("t:\"a b\"", "  "), ("-é", "\t")]
    let text := "t:\"a b\"  -é\to:/x y"
    (∀ p ∈ front, IsMember p) ∧ OneChunk "o:/x y" ∧
      atCursor text 7 = ofText "t:\"a b\"" ∧ atCursor text 8 = ofText "" ∧
      atCursor text 12 = ofText "-é" ∧ atCursor text 17 = ofText "o:/x y" ∧
      atCursor text 20 = ofText "" := by
  intro front text
  have hfront : ∀ p ∈ front, IsMember p := by
    rw [List.forall_mem_cons, List.forall_mem_cons]
    refine ⟨⟨by decide +kernel, ⟨[⟨.chunk, 0, "t:\"a b\""⟩], by decide +kernel⟩, by decide, ?_⟩,
      ⟨by decide +kernel, ⟨[⟨.chunk, 0, "-é"⟩], by decide +kernel⟩, by decide, ?_⟩, by simp⟩
    · decide
    · decide
  have hlast : OneChunk "o:/x y" := by decide +kernel
  have htext : text = String.ofList (spread front ++ "o:/x y".toList) := by decide +kernel
  obtain ⟨hchunks, hend, hpast⟩ := atCursor_spread.1 front "o:/x y" hfront hlast
  rw [← htext] at hchunks hend hpast
  refine ⟨hfront, hlast, ?_, ?_, ?_, ?_, ?_⟩
  · exact (hchunks [] _ _ _ rfl 7).1 (by decide +kernel) (by decide +kernel)
  · exact (hchunks [] _ _ _ rfl 8).2 (by decide +kernel) (by decide +kernel)
  · exact (hchunks [("t:\"a b\"", "  ")] _ _ _ rfl 12).1 (by decide +kernel) (by decide +kernel)
  · exact hend 17 (by decide +kernel) (by decide +kernel)
  · exact hpast 20 (by decide +kernel)

end Spread

end CardFilter.Draft
