import CardFilter.Proofs.PieceLayout

/-!
# Quotes that are not closed

A text can be split into pieces in two ways: strictly, so that a quote which is never closed is a
fault, or tolerantly, so that it runs to the end. This file shows that the two differ in nothing
else, and that the fault is undone by the missing mark (`CardFilter.Draft.piecesStrictly_cases`).

Both come from comparing runs over texts that begin alike: the second text may go on where the
first ends. The reader looks ahead by a few characters only, for the word `or` and for what follows
blanks, and it never looks past a mark of a quote. So what comes after a text that still holds a
mark has no say in what is read before (`CardFilter.Draft.Screens`):

* a step that does not go into a chunk is the same, whatever the mode and whatever comes after
  (`CardFilter.Draft.piecesFrom_append_cases`);
* a chunk is cut off in the same way, or it holds a quote that is not closed and is the rest of the
  text (`CardFilter.Draft.cutChunk_append_cases`).
-/

namespace CardFilter.Draft

/-! ### What comes after a mark -/

/-- **The text hides what comes after it** from a look-ahead: it holds the mark of a quote, or
nothing comes after it. -/
def Screens (cs rear : List Char) : Prop :=
  rear = [] ∨ ∃ q : Quote, q.mark ∈ cs

section Screens

variable {bounded : Bool} {lead cs rear : List Char}

theorem screens_nil : Screens cs [] :=
  .inl rfl

theorem screens_of_mem {q : Quote} (h : q.mark ∈ cs) : Screens cs rear :=
  .inr ⟨q, h⟩

/-- Characters in front hide as much. -/
theorem Screens.append (h : Screens cs rear) : Screens (lead ++ cs) rear :=
  h.imp_right fun ⟨q, hq⟩ => ⟨q, List.mem_append_right _ hq⟩

/-- Characters other than marks hide nothing. -/
theorem Screens.of_append (hlead : ∀ q : Quote, q.mark ∉ lead) (h : Screens (lead ++ cs) rear) :
    Screens cs rear :=
  h.imp_right fun ⟨q, hq⟩ => ⟨q, (List.mem_append.mp hq).resolve_left (hlead q)⟩

/-- Where something is hidden there is something that hides it. -/
theorem Screens.head?_append (h : Screens cs rear) : (cs ++ rear).head? = cs.head? := by
  rcases h with rfl | ⟨q, hq⟩
  · rw [List.append_nil]
  · exact List.head?_append_of_ne_nil _ (List.ne_nil_of_mem hq)

theorem Screens.opensNegated_append (h : Screens cs rear) :
    opensNegated (cs ++ rear) = opensNegated cs := by
  rcases h with rfl | ⟨q, hq⟩
  · rw [List.append_nil]
  rcases cs with _ | ⟨c, _ | ⟨d, cs⟩⟩
  · cases hq
  · -- the only character is the mark, and that does not negate
    obtain rfl := List.mem_singleton.mp hq
    cases q <;> simp [opensNegated, Quote.mark]
  · rw [Bool.eq_iff_iff, opensNegated_eq_true_iff, opensNegated_eq_true_iff]
    simp

theorem Screens.startsWithOr_append (h : Screens cs rear) :
    startsWithOr bounded (cs ++ rear) = startsWithOr bounded cs := by
  rcases h with rfl | ⟨q, hq⟩
  · rw [List.append_nil]
  have hmark : q.mark.toLower ≠ 'o' ∧ q.mark.toLower ≠ 'r' := by cases q <;> decide
  rcases cs with _ | ⟨o, _ | ⟨r, _ | ⟨d, cs⟩⟩⟩
  · cases hq
  · obtain rfl := List.mem_singleton.mp hq
    exact startsWithOr_cons_eq_false hmark.1
  · -- one of two characters is the mark, and then they are no word `or`
    have hletters : ¬(o.toLower = 'o' ∧ r.toLower = 'r') := by
      rintro ⟨ho, hr⟩
      rcases List.mem_pair.mp hq with rfl | rfl
      · exact hmark.1 ho
      · exact hmark.2 hr
    rw [List.cons_append, List.cons_append, startsWithOr, startsWithOr]
    grind
  · rfl

/-- A run of blanks ends before a mark. -/
theorem Screens.dropWhile_append (h : Screens cs rear) :
    (cs ++ rear).takeWhile isBlank = cs.takeWhile isBlank ∧
      (cs ++ rear).dropWhile isBlank = cs.dropWhile isBlank ++ rear := by
  rcases h with rfl | ⟨q, hq⟩
  · simp
  have hne : cs.dropWhile isBlank ≠ [] := by
    intro hnil
    have hblank := List.dropWhile_eq_nil_iff.mp hnil _ hq
    rw [q.isBlank_mark] at hblank
    cases hblank
  have hblanks : ∀ c ∈ cs.takeWhile isBlank, isBlank c = true := fun c hc =>
    List.mem_takeWhile_imp hc
  have hhead : ∀ c ∈ (cs.dropWhile isBlank ++ rear).head?, isBlank c = false := by
    intro c hc
    rw [List.head?_append_of_ne_nil _ hne] at hc
    exact eq_false_of_head?_dropWhile hc
  have hsplit : cs ++ rear = cs.takeWhile isBlank ++ (cs.dropWhile isBlank ++ rear) := by
    rw [← List.append_assoc, List.takeWhile_append_dropWhile]
  rw [hsplit]
  exact ⟨takeWhile_append_of_head? hblanks hhead, dropWhile_append_of_head? hblanks hhead⟩

end Screens

/-! ### Chunks -/

section Chunk

variable {mode : Mode} {fresh : Bool} {q : Quote} {start position : Nat} {c : Char}
  {within : Option (Quote × Nat)} {cs rest rear : List Char}

/-- One character inside a quoted stretch. -/
theorem cutChunk_some_cons :
    cutChunk mode (some (q, start)) fresh position (c :: rest) =
      (cutChunk mode (if c = q.mark then none else some (q, start)) true (position + c.utf8Size)
        rest).map fun (chunk, after) => (c :: chunk, after) := by
  rw [cutChunk]
  cases cutChunk mode _ true (position + c.utf8Size) rest <;> rfl

/-- One character outside. -/
theorem cutChunk_none_cons
    (h : (isBlank c || isParenthesis c || (fresh && opensNegated (c :: rest))) = false) :
    cutChunk mode none fresh position (c :: rest) =
      (cutChunk mode ((Quote.ofChar? c).map fun q => (q, position)) false (position + c.utf8Size)
        rest).map fun (chunk, after) => (c :: chunk, after) := by
  rw [cutChunk, if_neg (by simp [h])]
  cases cutChunk mode _ false (position + c.utf8Size) rest <;> rfl

/-- **A quote stays open**: it was opened before, at the byte position `place`, or it is opened
there, and its mark does not occur any more. -/
def StaysOpen (within : Option (Quote × Nat)) (position : Nat) (cs : List Char) (q : Quote)
    (place : Nat) : Prop :=
  within = some (q, place) ∧ q.mark ∉ cs ∨
    ∃ before after, cs = before ++ q.mark :: after ∧ q.mark ∉ after ∧
      place = position + byteLength before

theorem StaysOpen.cons_some {r : Quote} {place : Nat}
    (h : StaysOpen (if c = q.mark then none else some (q, start)) (position + c.utf8Size) rest r
      place) : StaysOpen (some (q, start)) position (c :: rest) r place := by
  rcases h with ⟨hwithin, hrest⟩ | ⟨before, after, rfl, hafter, rfl⟩
  · split at hwithin
    · cases hwithin
    · rename_i hc
      cases hwithin
      exact .inl ⟨rfl, List.not_mem_cons_of_ne_of_not_mem (Ne.symm hc) hrest⟩
  · exact .inr ⟨c :: before, after, rfl, hafter, by rw [byteLength_cons, Nat.add_assoc]⟩

theorem StaysOpen.cons_none {place : Nat}
    (h : StaysOpen ((Quote.ofChar? c).map fun q => (q, position)) (position + c.utf8Size) rest q
      place) : StaysOpen none position (c :: rest) q place := by
  rcases h with ⟨hwithin, hrest⟩ | ⟨before, after, rfl, hafter, rfl⟩
  · obtain ⟨r, hquote, heq⟩ := Option.map_eq_some_iff.mp hwithin
    cases heq
    exact .inr ⟨[], rest, by rw [Quote.eq_mark_of_ofChar? hquote]; rfl, hrest, rfl⟩
  · exact .inr ⟨c :: before, after, rfl, hafter, by rw [byteLength_cons, Nat.add_assoc]⟩

/-- Where no quote was opened before, it is opened in the text. -/
theorem StaysOpen.exists_append {place : Nat} (h : StaysOpen none position cs q place) :
    ∃ before after, cs = before ++ q.mark :: after ∧ q.mark ∉ after ∧
      place = position + byteLength before :=
  h.resolve_left fun ⟨hwithin, _⟩ => by cases hwithin

/-- A quote that is opened in the text hides what comes after. -/
theorem StaysOpen.screens {place : Nat} (h : StaysOpen none position cs q place) :
    Screens cs rear := by
  obtain ⟨before, after, rfl, -, -⟩ := h.exists_append
  exact screens_of_mem (q := q) (by simp)

/-- **How a chunk is cut off**: the same in both modes, and whatever comes after what hides it; or
a quote in it stays open, and the missing mark closes it. -/
theorem cutChunk_append_cases (within : Option (Quote × Nat)) (fresh : Bool) (position : Nat)
    (cs : List Char) :
    (∃ chunk after, ∀ mode rear, Screens after rear →
      cutChunk mode within fresh position (cs ++ rear) = .ok (chunk, after ++ rear)) ∨
    ∃ q place, StaysOpen within position cs q place ∧
      cutChunk .strict within fresh position cs = .error ⟨unclosed q, place⟩ ∧
      cutChunk .tolerant within fresh position cs = .ok (cs, []) ∧
      cutChunk .strict within fresh position (cs ++ [q.mark]) = .ok (cs ++ [q.mark], []) := by
  induction cs generalizing within fresh position with
  | nil =>
    rcases within with _ | ⟨q, start⟩
    · refine .inl ⟨[], [], fun mode rear hrear => ?_⟩
      obtain rfl : rear = [] := hrear.resolve_right (by simp)
      cases mode <;> rfl
    · refine .inr ⟨q, start, .inl ⟨rfl, List.not_mem_nil⟩, rfl, rfl, ?_⟩
      rw [List.nil_append, cutChunk_some_cons, if_pos rfl]
      rfl
  | cons c rest ih =>
    rcases within with _ | ⟨q, start⟩
    · by_cases hstop : (isBlank c || isParenthesis c || (fresh && opensNegated (c :: rest))) = true
      · refine .inl ⟨[], c :: rest, fun mode rear hrear => ?_⟩
        rw [← hrear.opensNegated_append] at hstop
        rw [List.cons_append, cutChunk]
        exact if_pos hstop
      rw [Bool.not_eq_true] at hstop
      have hpass : ∀ {rear}, Screens (c :: rest) rear →
          (isBlank c || isParenthesis c || (fresh && opensNegated (c :: (rest ++ rear)))) =
            false := by
        intro rear hrear
        rw [← List.cons_append, hrear.opensNegated_append, hstop]
      rcases ih ((Quote.ofChar? c).map fun q => (q, position)) false (position + c.utf8Size) with
        ⟨chunk, after, hcut⟩ | ⟨q, place, hopen, hstrict, htolerant, hclosed⟩
      · refine .inl ⟨c :: chunk, after, fun mode rear hrear => ?_⟩
        have hrest : rest = chunk ++ after := by
          simpa using eq_append_of_cutChunk (hcut mode [] screens_nil)
        have hscreens : Screens (c :: rest) rear := by
          rw [hrest, ← List.cons_append]
          exact hrear.append
        rw [List.cons_append, cutChunk_none_cons (hpass hscreens), hcut mode rear hrear]
        rfl
      · have hscreens : Screens (c :: rest) [q.mark] := hopen.cons_none.screens
        refine .inr ⟨q, place, hopen.cons_none, ?_, ?_, ?_⟩
        · rw [cutChunk_none_cons hstop, hstrict]
          rfl
        · rw [cutChunk_none_cons hstop, htolerant]
          rfl
        · rw [List.cons_append, cutChunk_none_cons (hpass hscreens), hclosed]
          rfl
    · rcases ih (if c = q.mark then none else some (q, start)) true (position + c.utf8Size) with
        ⟨chunk, after, hcut⟩ | ⟨r, place, hopen, hstrict, htolerant, hclosed⟩
      · refine .inl ⟨c :: chunk, after, fun mode rear hrear => ?_⟩
        rw [List.cons_append, cutChunk_some_cons, hcut mode rear hrear]
        rfl
      · refine .inr ⟨r, place, hopen.cons_some, ?_, ?_, ?_⟩
        · rw [cutChunk_some_cons, hstrict]
          rfl
        · rw [cutChunk_some_cons, htolerant]
          rfl
        · rw [List.cons_append, cutChunk_some_cons, hclosed]
          rfl

end Chunk

/-! ### Texts -/

section Pieces

variable {mode : Mode} {bounded padded : Bool} {position : Nat} {c : Char} {cs rest : List Char}

/-- **Blanks are passed in the same way** before whatever the text hides: what comes after them is
not hidden. -/
theorem exists_piecesFrom_blanks (hc : isBlank c = true) :
    ∃ padded' front, ∀ mode rear, Screens (c :: rest) rear →
      piecesFrom mode bounded padded position (c :: rest ++ rear) =
        (piecesFrom mode true padded' (position + byteLength (c :: rest.takeWhile isBlank))
          (rest.dropWhile isBlank ++ rear)).map (front ++ ·) := by
  have hmark : ∀ q : Quote, q.mark ∉ c :: rest.takeWhile isBlank := fun q hq => by
    have hblank := blanks_cons_takeWhile hc _ hq
    rw [q.isBlank_mark] at hblank
    cases hblank
  have hfirst : ∀ q : Quote, q.mark ∉ [c] := fun q hq =>
    hmark q (List.mem_cons.mpr (.inl (List.mem_singleton.mp hq)))
  have hrest : ∀ {rear}, Screens (c :: rest) rear → Screens rest rear := fun hrear =>
    Screens.of_append hfirst hrear
  have hafter : ∀ {rear}, Screens (c :: rest) rear → Screens (rest.dropWhile isBlank) rear := by
    intro rear hrear
    refine Screens.of_append hmark ?_
    rwa [List.cons_append, List.takeWhile_append_dropWhile]
  simp only [List.cons_append, piecesFrom_cons, if_pos hc]
  by_cases hpads : (padded || (rest.dropWhile isBlank).head? == some ')' ||
      startsWithOr true (rest.dropWhile isBlank)) = true
  · refine ⟨padded, [], fun mode rear hrear => ?_⟩
    obtain ⟨htake, hdrop⟩ := (hrest hrear).dropWhile_append
    simp only [htake, hdrop, (hafter hrear).head?_append, (hafter hrear).startsWithOr_append,
      if_pos hpads]
    cases piecesFrom mode true padded _ (rest.dropWhile isBlank ++ rear) <;> rfl
  · refine ⟨false, [⟨.gap, position, String.ofList (c :: rest.takeWhile isBlank)⟩],
      fun mode rear hrear => ?_⟩
    obtain ⟨htake, hdrop⟩ := (hrest hrear).dropWhile_append
    simp only [htake, hdrop, (hafter hrear).head?_append, (hafter hrear).startsWithOr_append,
      if_neg hpads]
    rfl

/-- **One step of the reader of pieces**, in either mode and before whatever the text hides: it
passes some characters, with a piece or without one; or it goes into a chunk. -/
theorem piecesFrom_append_cases (bounded padded : Bool) (position : Nat) (c : Char)
    (rest : List Char) :
    (∃ lead after bounded' padded' front, c :: rest = lead ++ after ∧ lead ≠ [] ∧
      ∀ mode rear, Screens (c :: rest) rear →
        piecesFrom mode bounded padded position (c :: rest ++ rear) =
          (piecesFrom mode bounded' padded' (position + byteLength lead) (after ++ rear)).map
            (front ++ ·)) ∨
    beginsChunk (c :: rest) = true ∧ ∀ mode rear, Screens (c :: rest) rear →
      piecesFrom mode bounded padded position (c :: rest ++ rear) =
        (cutChunk mode none true position (c :: rest ++ rear)).bind fun (chunk, after) =>
          (piecesFrom mode false false (position + byteLength chunk) after).map
            (⟨.chunk, position, String.ofList chunk⟩ :: ·) := by
  by_cases hc : isBlank c = true
  · obtain ⟨padded', front, hstep⟩ := exists_piecesFrom_blanks hc
    have hsplit : c :: rest = (c :: rest.takeWhile isBlank) ++ rest.dropWhile isBlank := by simp
    exact .inl ⟨_, _, true, padded', front, hsplit, List.cons_ne_nil _ _, hstep⟩
  simp only [List.cons_append, piecesFrom_cons, if_neg hc]
  by_cases hnegated : opensNegated (c :: rest) = true
  · obtain ⟨after, hsplit⟩ := opensNegated_eq_true_iff.mp hnegated
    obtain ⟨rfl, rfl⟩ := List.cons.inj hsplit
    exact .inl ⟨['-', '('], after, true, true, [⟨.openGroup, position, "-("⟩], rfl,
      List.cons_ne_nil _ _, fun mode rear _ => rfl⟩
  have hsame : ∀ {rear}, Screens (c :: rest) rear → ¬opensNegated (c :: (rest ++ rear)) = true :=
    fun hrear => by rwa [← List.cons_append, hrear.opensNegated_append]
  by_cases hopen : c = '('
  · subst hopen
    exact .inl ⟨['('], rest, true, true, [⟨.openGroup, position, "("⟩], rfl,
      List.cons_ne_nil _ _, fun mode rear _ => rfl⟩
  by_cases hclose : c = ')'
  · subst hclose
    exact .inl ⟨[')'], rest, true, false, [⟨.closeGroup, position, ")"⟩], rfl,
      List.cons_ne_nil _ _, fun mode rear _ => rfl⟩
  by_cases hor : startsWithOr bounded (c :: rest) = true
  · obtain ⟨word, after, hsplit, hword⟩ := exists_word_of_startsWithOr hor
    have hlength := byteLength_of_isOrWord hword
    obtain ⟨o, r, rfl, ho, hr⟩ := isOrWord_iff.mp hword
    obtain ⟨rfl, rfl⟩ := List.cons.inj hsplit
    refine .inl ⟨[c, r], after, false, true, [⟨.or, position, String.ofList [c, r]⟩], rfl,
      List.cons_ne_nil _ _, fun mode rear hrear => ?_⟩
    rw [if_neg (hsame hrear), if_neg hopen, if_neg hclose, ← List.cons_append,
      hrear.startsWithOr_append, if_pos hor, hlength]
    rfl
  · refine .inr ⟨?_, fun mode rear hrear => ?_⟩
    · simp [beginsChunk, isParenthesis, hc, hnegated, hopen, hclose]
    · rw [if_neg (hsame hrear), if_neg hopen, if_neg hclose, ← List.cons_append,
        hrear.startsWithOr_append, if_neg hor]

end Pieces

/-! ### Two splits of a text -/

/-- The piece with the mark that closes its last stretch. -/
def Piece.close (p : Piece) (q : Quote) : Piece :=
  { p with text := p.text.push q.mark }

/-- A mark takes one byte. -/
theorem Piece.stop_close (p : Piece) (q : Quote) : (p.close q).stop = p.stop + 1 := by
  rw [close, stop, stop, String.toList_push, byteLength_append, ← Nat.add_assoc]
  cases q <;> rfl

/-- **The last piece is left open** by a quote at the byte position `place`: a strict split takes
this fault, a tolerant one ends with the piece, and with the mark behind the text the strict split
finds the same pieces, the last one closed. -/
structure LeavesOpen (bounded padded : Bool) (position : Nat) (cs : List Char) (q : Quote)
    (place : Nat) (init : List Piece) (last : Piece) : Prop where
  /-- The quote is opened in the text, for the last time. -/
  staysOpen : StaysOpen none position cs q place
  /-- The fault. -/
  strict : piecesFrom .strict bounded padded position cs = .error ⟨unclosed q, place⟩
  /-- The pieces. -/
  tolerant : piecesFrom .tolerant bounded padded position cs = .ok (init ++ [last])
  /-- The pieces of the text that goes on with the mark. -/
  closed : piecesFrom .strict bounded padded position (cs ++ [q.mark]) =
    .ok (init ++ [last.close q])
  /-- The last piece is a chunk. -/
  kind : last.kind = .chunk
  /-- It holds the quote. -/
  start_le : last.start ≤ place
  /-- It ends with the text. -/
  stop_eq : last.stop = position + byteLength cs

section Pieces

variable {bounded padded bounded' padded' : Bool} {position place : Nat} {q : Quote}
  {c : Char} {cs lead after rest : List Char} {init front : List Piece} {last : Piece}

/-- What is passed over before leaves the last piece as open as it is. -/
theorem LeavesOpen.of_step (hsplit : cs = lead ++ after)
    (hstep : ∀ mode rear, Screens after rear →
      piecesFrom mode bounded padded position (cs ++ rear) =
        (piecesFrom mode bounded' padded' (position + byteLength lead) (after ++ rear)).map
          (front ++ ·))
    (h : LeavesOpen bounded' padded' (position + byteLength lead) after q place init last) :
    LeavesOpen bounded padded position cs q place (front ++ init) last := by
  have hstrict := hstep .strict [] screens_nil
  have htolerant := hstep .tolerant [] screens_nil
  rw [List.append_nil, List.append_nil, h.strict] at hstrict
  rw [List.append_nil, List.append_nil, h.tolerant] at htolerant
  refine ⟨?_, hstrict, ?_, ?_, h.kind, h.start_le, ?_⟩
  · obtain ⟨before, behind, rfl, hbehind, rfl⟩ := h.staysOpen.exists_append
    refine .inr ⟨lead ++ before, behind, by rw [hsplit, List.append_assoc], hbehind, ?_⟩
    rw [byteLength_append, Nat.add_assoc]
  · rw [htolerant, List.append_assoc]
    rfl
  · rw [hstep .strict _ h.staysOpen.screens, h.closed, List.append_assoc]
    rfl
  · rw [h.stop_eq, hsplit, byteLength_append, Nat.add_assoc]

/-- **A chunk with an open quote** is the rest of the text. -/
theorem leavesOpen_of_chunk
    (hstep : ∀ mode rear, Screens cs rear →
      piecesFrom mode bounded padded position (cs ++ rear) =
        (cutChunk mode none true position (cs ++ rear)).bind fun (chunk, after) =>
          (piecesFrom mode false false (position + byteLength chunk) after).map
            (⟨.chunk, position, String.ofList chunk⟩ :: ·))
    (hopen : StaysOpen none position cs q place)
    (hstrict : cutChunk .strict none true position cs = .error ⟨unclosed q, place⟩)
    (htolerant : cutChunk .tolerant none true position cs = .ok (cs, []))
    (hclosed : cutChunk .strict none true position (cs ++ [q.mark]) = .ok (cs ++ [q.mark], [])) :
    LeavesOpen bounded padded position cs q place [] ⟨.chunk, position, String.ofList cs⟩ := by
  have hnil : ∀ mode at', piecesFrom mode false false at' [] = .ok [] := fun mode at' => by
    rw [piecesFrom]
  refine ⟨hopen, ?_, ?_, ?_, rfl, ?_, ?_⟩
  · have h := hstep .strict [] screens_nil
    rw [List.append_nil, hstrict] at h
    exact h
  · have h := hstep .tolerant [] screens_nil
    rw [List.append_nil, htolerant] at h
    simp only [Except.bind, hnil] at h
    exact h
  · rw [hstep .strict _ hopen.screens, hclosed]
    have hpush : String.ofList (cs ++ [q.mark]) = (String.ofList cs).push q.mark := by
      rw [← String.toList_inj, String.toList_push, String.toList_ofList, String.toList_ofList]
    simp only [Except.bind, hnil, hpush]
    rfl
  · obtain ⟨before, -, -, -, rfl⟩ := hopen.exists_append
    exact Nat.le_add_right _ _
  · rw [Piece.stop, String.toList_ofList]

/-- **Both splits of a text come out alike**: they find the same pieces, or the last piece is left
open. -/
def SplitsAlike (bounded padded : Bool) (position : Nat) (cs : List Char) : Prop :=
  (∃ ps, ∀ mode, piecesFrom mode bounded padded position cs = .ok ps) ∨
    ∃ q place init last, LeavesOpen bounded padded position cs q place init last

/-- After a step that goes by nothing but what it passes, the rest decides. -/
theorem SplitsAlike.of_step (front : List Piece) (hsplit : cs = lead ++ after)
    (hstep : ∀ mode rear, Screens after rear →
      piecesFrom mode bounded padded position (cs ++ rear) =
        (piecesFrom mode bounded' padded' (position + byteLength lead) (after ++ rear)).map
          (front ++ ·))
    (h : SplitsAlike bounded' padded' (position + byteLength lead) after) :
    SplitsAlike bounded padded position cs := by
  rcases h with ⟨ps, hps⟩ | ⟨q, place, init, last, hopen⟩
  · refine .inl ⟨front ++ ps, fun mode => ?_⟩
    have h := hstep mode [] screens_nil
    rw [List.append_nil, List.append_nil, hps mode] at h
    exact h
  · exact .inr ⟨q, place, front ++ init, last, hopen.of_step hsplit hstep⟩

/-- **The two splits of a text.** -/
theorem splitsAlike (bounded padded : Bool) (position : Nat) (cs : List Char) :
    SplitsAlike bounded padded position cs := by
  induction hlength : cs.length using Nat.strong_induction_on
    generalizing bounded padded position cs with
  | _ n ih =>
  rcases cs with _ | ⟨c, rest⟩
  · exact .inl ⟨[], fun mode => by rw [piecesFrom]⟩
  rcases piecesFrom_append_cases bounded padded position c rest with
    ⟨lead, after, bounded', padded', front, hsplit, hne, hstep⟩ | ⟨hbegins, hstep⟩
  · have hshorter : after.length < n := hlength ▸ length_lt_of_eq_append hsplit hne
    refine .of_step front hsplit (fun mode rear hrear => hstep mode rear ?_)
      (ih _ hshorter bounded' padded' _ after rfl)
    rw [hsplit]
    exact hrear.append
  rcases cutChunk_append_cases none true position (c :: rest) with
    ⟨chunk, after, hcut⟩ | ⟨q, place, hopen, hstrict, htolerant, hclosed⟩
  · have hwhole := hcut .strict [] screens_nil
    rw [List.append_nil, List.append_nil] at hwhole
    have hsplit : c :: rest = chunk ++ after := eq_append_of_cutChunk hwhole
    have hshorter : after.length < n :=
      hlength ▸ length_lt_of_eq_append hsplit (ne_nil_of_cutChunk hbegins hwhole)
    refine .of_step [⟨.chunk, position, String.ofList chunk⟩] hsplit
      (fun mode rear hrear => ?_) (ih _ hshorter false false _ after rfl)
    have hscreens : Screens (c :: rest) rear := by
      rw [hsplit]
      exact hrear.append
    rw [hstep mode rear hscreens, hcut mode rear hrear]
    rfl
  · exact .inr ⟨q, place, [], _, leavesOpen_of_chunk hstep hopen hstrict htolerant hclosed⟩

end Pieces

/-- **A strict split and a tolerant one differ in an open quote only.** Either the strict split
finds the pieces that the tolerant one does; or its fault is that of a quote whose mark does not
occur any more, the last piece of the tolerant split is a chunk that holds this place and ends with
the text, and with the mark behind the text the strict split finds the same pieces, the last of
them one byte longer. -/
theorem piecesStrictly_cases (text : String) :
    piecesStrictly text = .ok (pieces text) ∨
      ∃ q before after init last, text.toList = before ++ Quote.mark q :: after ∧ q.mark ∉ after ∧
        piecesStrictly text = .error ⟨unclosed q, byteLength before⟩ ∧
        pieces text = init ++ [last] ∧ last.kind = .chunk ∧ last.start ≤ byteLength before ∧
        byteLength before < last.stop ∧ last.stop = byteLength text.toList ∧
        piecesStrictly (text.push q.mark) = .ok (init ++ [last.close q]) ∧
        (last.close q).stop = last.stop + 1 := by
  have hpieces := piecesFrom_pieces text
  rcases splitsAlike true false 0 text.toList with ⟨ps, hps⟩ | ⟨q, place, init, last, hopen⟩
  · refine .inl ?_
    rw [hps .tolerant] at hpieces
    rw [piecesStrictly, hps .strict, hpieces]
  · obtain ⟨before, after, htext, hafter, hplace⟩ := hopen.staysOpen.exists_append
    rw [Nat.zero_add] at hplace
    have hstop : last.stop = byteLength text.toList := by rw [hopen.stop_eq, Nat.zero_add]
    have hclosed : piecesStrictly (text.push q.mark) = .ok (init ++ [last.close q]) := by
      rw [piecesStrictly, String.toList_push, hopen.closed]
    rw [hopen.tolerant] at hpieces
    refine .inr ⟨q, before, after, init, last, htext, hafter, hplace ▸ hopen.strict,
      (Except.ok.inj hpieces).symm, hopen.kind, hplace ▸ hopen.start_le, ?_, hstop, hclosed,
      last.stop_close q⟩
    rw [hstop, htext, byteLength_append, byteLength_cons]
    exact Nat.lt_add_of_pos_right (Nat.lt_of_lt_of_le q.mark.utf8Size_pos (Nat.le_add_right _ _))

/-- The slash, and not the blank before the term or the parenthesis behind it. -/
example : piecesStrictly "a o:/b)" = .error ⟨.unclosedRegex, 4⟩ := by decide +kernel

end CardFilter.Draft
