import CardFilter.Proofs.FaultPlaces

/-!
# How pieces tile a text

The pieces of a text that is being typed stand in it in order, and cover all of it but some blanks.
This file says of a text and its pieces, by positions only, what each of them covers, which
blanks belong to no piece, and which pieces stand side by side (`CardFilter.Draft.Tiles`). The main
statement is `CardFilter.Draft.tiles_pieces`: a tolerant split succeeds on every text, and its
pieces tile the text.

Every piece is read where the one before it ended, behind blanks that pad one of the two. The
relation `CardFilter.Draft.FallsInto` says so from the left to the right, with the kind of the
piece before; what is claimed of positions and neighbours follows from it by induction. That the
pieces which are read are in this relation rests on two things.

* **What begins at a place is known before it is read** (`CardFilter.Draft.kindAt`): blanks are
  passed over because of what comes after them, and that is the next piece
  (`CardFilter.Draft.exists_piece_of_piecesFrom`).
* **A chunk and a gap end where another piece begins**: a chunk at a blank or a parenthesis, and
  not in front of a further chunk (`CardFilter.Draft.beginsChunk_of_cutChunk`), a gap in front of
  something that is not blank and does not take the blanks in. So what has been read so far says
  what may come next (`CardFilter.Draft.Allows`).
-/

namespace CardFilter.Draft

/-! ### The text of a chunk -/

/-- **The text of a chunk**: no blank and no parenthesis stands in it outside its quoted stretches.
`isLast` says that the last stretch may be open. -/
inductive ChunkBody (isLast : Prop) : List Char → Prop
  /-- The empty text. -/
  | nil : ChunkBody isLast []
  /-- A character that is neither a blank nor a parenthesis nor a quote. -/
  | plain {c : Char} {cs : List Char} :
    IsPlain c → ChunkBody isLast cs → ChunkBody isLast (c :: cs)
  /-- A quoted stretch. -/
  | quoted {q : Quote} {body cs : List Char} :
    q.mark ∉ body → ChunkBody isLast cs → ChunkBody isLast (q.mark :: (body ++ q.mark :: cs))
  /-- A quoted stretch that is not closed. -/
  | unclosed {q : Quote} {body : List Char} :
    isLast → q.mark ∉ body → ChunkBody isLast (q.mark :: body)

theorem ChunkBody.mono {p p' : Prop} {cs : List Char} (hp : p → p') (h : ChunkBody p cs) :
    ChunkBody p' cs := by
  induction h with
  | nil => exact .nil
  | plain hc _ ih => exact .plain hc ih
  | quoted hbody _ ih => exact .quoted hbody ih
  | unclosed hlast hbody => exact .unclosed (hp hlast) hbody

/-- What is left of the text of a chunk, in the middle of a quoted stretch or outside. -/
def ChunkRest (isLast : Prop) : Option Quote → List Char → Prop
  | none, cs => ChunkBody isLast cs
  | some q, cs => (∃ inner rest, cs = inner ++ q.mark :: rest ∧ q.mark ∉ inner ∧
      ChunkBody isLast rest) ∨ isLast ∧ q.mark ∉ cs

section Chunk

variable {isLast : Prop} {mode : Mode} {q : Quote} {within : Option (Quote × Nat)} {fresh : Bool}
  {position : Nat} {c : Char} {cs chunk after : List Char}

/-- A character inside a quoted stretch stays there unless it closes the stretch. -/
theorem ChunkRest.cons_some (h : ChunkRest isLast (if c = q.mark then none else some q) cs) :
    ChunkRest isLast (some q) (c :: cs) := by
  by_cases hc : c = q.mark
  · rw [if_pos hc] at h
    exact .inl ⟨[], cs, by rw [hc]; rfl, List.not_mem_nil, h⟩
  · rw [if_neg hc] at h
    rcases h with ⟨inner, rest, rfl, hinner, hrest⟩ | ⟨hlast, hcs⟩
    · exact .inl ⟨c :: inner, rest, rfl,
        List.not_mem_cons_of_ne_of_not_mem (Ne.symm hc) hinner, hrest⟩
    · exact .inr ⟨hlast, List.not_mem_cons_of_ne_of_not_mem (Ne.symm hc) hcs⟩

/-- Outside the quotes a character may open one. -/
theorem ChunkRest.cons_none (hblank : isBlank c = false) (hparenthesis : isParenthesis c = false)
    (h : ChunkRest isLast (Quote.ofChar? c) cs) : ChunkRest isLast none (c :: cs) := by
  cases hquote : Quote.ofChar? c with
  | none =>
    rw [hquote] at h
    exact .plain ⟨hblank, hparenthesis, hquote⟩ h
  | some q =>
    rw [hquote] at h
    rw [Quote.eq_mark_of_ofChar? hquote]
    rcases h with ⟨inner, rest, rfl, hinner, hrest⟩ | ⟨hlast, hcs⟩
    · exact .quoted hinner hrest
    · exact .unclosed hlast hcs

/-- **What is cut off as a chunk** has the text of one; its last stretch is open only at the end
of the text. -/
theorem chunkRest_of_cutChunk (h : cutChunk mode within fresh position cs = .ok (chunk, after)) :
    ChunkRest (after = []) (within.map (·.1)) chunk := by
  fun_induction cutChunk mode within fresh position cs generalizing chunk with
  | case1 | case5 | case8 => cases h
  | case2 =>
    cases h
    exact .inr ⟨rfl, List.not_mem_nil⟩
  | case3 | case6 =>
    cases h
    exact .nil
  | case4 q start fresh position c rest tail rear hcut ih =>
    cases h
    refine ChunkRest.cons_some ?_
    have htail := ih hcut
    split at htail <;> simp_all
  | case7 fresh position c rest hstop tail rear hcut ih =>
    cases h
    have htail := ih hcut
    rw [Option.map_map, Function.comp_def, Option.map_id'] at htail
    simp only [Bool.or_eq_true, not_or, Bool.not_eq_true] at hstop
    exact .cons_none hstop.1.1 hstop.1.2 htail

/-- Where a chunk begins, something is cut off. -/
theorem ne_nil_of_cutChunk (hbegins : beginsChunk cs = true)
    (h : cutChunk mode none true position cs = .ok (chunk, after)) : chunk ≠ [] := by
  rcases cs with _ | ⟨c, rest⟩
  · cases hbegins
  · rintro rfl
    rw [beginsChunk, Bool.not_eq_true'] at hbegins
    have hshorter := length_lt_of_cutChunk hbegins h
    rw [eq_append_of_cutChunk h] at hshorter
    exact Nat.lt_irrefl _ hshorter

/-- **A chunk is not followed by another one.** -/
theorem beginsChunk_of_cutChunk
    (h : cutChunk mode within fresh position cs = .ok (chunk, after)) :
    beginsChunk after = false := by
  fun_induction cutChunk mode within fresh position cs generalizing chunk with
  | case1 | case5 | case8 => cases h
  | case2 | case3 =>
    cases h
    rfl
  | case4 | case7 =>
    rename_i hcut ih
    cases h
    exact ih hcut
  | case6 fresh position c rest hstop =>
    cases h
    simp only [Bool.or_eq_true, Bool.and_eq_true] at hstop
    simp only [beginsChunk, Bool.not_eq_false', Bool.or_eq_true]
    exact hstop.imp_right And.right

end Chunk

/-! ### Kinds of pieces -/

namespace PieceKind

/-- Blanks behind the piece pad it. -/
def padsRight : PieceKind → Bool
  | openGroup | or => true
  | _ => false

/-- Blanks in front of the piece pad it. -/
def padsLeft : PieceKind → Bool
  | closeGroup | or => true
  | _ => false

/-- **What a piece of each kind covers**; `isLast` says that the text ends with it. -/
def Covers (isLast : Prop) : PieceKind → List Char → Prop
  | openGroup, cs => cs = ['('] ∨ cs = ['-', '(']
  | closeGroup, cs => cs = [')']
  | or, cs => Value.isOrWord (String.ofList cs) = true
  | chunk, cs => ChunkBody isLast cs
  | gap, cs => Blanks cs

theorem Covers.mono {p p' : Prop} {k : PieceKind} {cs : List Char} (hp : p → p')
    (h : k.Covers p cs) : k.Covers p' cs := by
  cases k with
  | chunk => exact ChunkBody.mono hp h
  | _ => exact h

/-- **Which pieces stand side by side**: a gap not next to what it would pad, and neither two gaps
nor two chunks. -/
structure MayPrecede (k k' : PieceKind) : Prop where
  /-- Blanks behind the first piece would pad it. -/
  right : k' = gap → k.padsRight = false
  /-- Blanks in front of the second piece would pad it. -/
  left : k = gap → k'.padsLeft = false
  /-- Two gaps would be one. -/
  gaps : k = gap → k' ≠ gap
  /-- Two chunks would be one. -/
  chunks : k = chunk → k' ≠ chunk

end PieceKind

/-- **What begins here**, where no blank does. On the left `bounded` says whether a word may begin
here. -/
def kindAt (bounded : Bool) (cs : List Char) : PieceKind :=
  if opensNegated cs || cs.head? == some '(' then .openGroup
  else if cs.head? == some ')' then .closeGroup
  else if startsWithOr bounded cs then .or
  else .chunk

/-- After a piece of this kind, the text can go on like that. -/
def PieceKind.Allows (k : PieceKind) (bounded : Bool) (cs : List Char) : Prop :=
  ∀ c ∈ cs.head?, if isBlank c then k ≠ gap else k.MayPrecede (kindAt bounded cs)

section Kind

variable {mode : Mode} {k : PieceKind} {bounded padded : Bool} {position : Nat} {c : Char}
  {cs rest : List Char} {ps : List Piece}

theorem kindAt_ne_gap : kindAt bounded cs ≠ .gap := by
  unfold kindAt
  repeat' split
  all_goals simp

/-- What takes in the blanks before it is seen from its first characters. -/
theorem padsLeft_kindAt :
    (kindAt bounded cs).padsLeft = (cs.head? == some ')' || startsWithOr bounded cs) := by
  unfold kindAt
  split
  · rename_i hopen
    -- the word `or` does not begin with the marks of an opening parenthesis
    simp only [Bool.or_eq_true, beq_iff_eq] at hopen
    rcases hopen with hnegated | hopen
    · obtain ⟨rest, rfl⟩ := opensNegated_eq_true_iff.mp hnegated
      rw [startsWithOr_cons_eq_false (by decide)]
      rfl
    · obtain ⟨rest, rfl⟩ := List.head?_eq_some_iff.mp hopen
      rw [startsWithOr_cons_eq_false (by decide)]
      rfl
  split
  · rename_i hclose
    rw [hclose]
    rfl
  split
  · rename_i hor
    rw [hor, Bool.or_true]
    rfl
  · rename_i hclose hor
    simp only [Bool.not_eq_true] at hclose hor
    rw [hclose, hor]
    rfl

/-- **A piece that is no gap** goes with any piece after it, but for two chunks. -/
theorem PieceKind.mayPrecede_kindAt (hgap : k ≠ .gap)
    (hchunk : k = .chunk → kindAt bounded cs ≠ .chunk) : k.MayPrecede (kindAt bounded cs) :=
  ⟨fun h => absurd h kindAt_ne_gap, fun h => absurd h hgap, fun h => absurd h hgap, hchunk⟩

theorem kindAt_ne_chunk_of_padsLeft (h : (kindAt bounded cs).padsLeft = true) :
    kindAt bounded cs ≠ .chunk := by
  intro hchunk
  rw [hchunk] at h
  cases h

/-- Where no chunk begins and no blank, a parenthesis does. -/
theorem kindAt_ne_chunk_of_beginsChunk (hbegins : beginsChunk (c :: rest) = false)
    (hc : isBlank c = false) : kindAt bounded (c :: rest) ≠ .chunk := by
  simp only [beginsChunk, hc, Bool.false_or, Bool.not_eq_false', Bool.or_eq_true, isParenthesis,
    beq_iff_eq] at hbegins
  unfold kindAt
  rcases hbegins with (rfl | rfl) | hnegated
  · simp
  · simp [opensNegated]
  · simp [hnegated]

theorem exists_of_map_eq_ok {f : List Piece → List Piece} {x : Except LexError (List Piece)}
    (h : x.map f = .ok ps) : ∃ qs, x = .ok qs ∧ ps = f qs := by
  cases x <;> cases h
  exact ⟨_, rfl, rfl⟩

/-- **The piece that begins here**, where no blank does: it covers some of the text, and from there
the reader goes on. -/
theorem exists_piece_of_piecesFrom (hc : isBlank c = false)
    (h : piecesFrom mode bounded padded position (c :: rest) = .ok ps) :
    ∃ text after bounded' qs, c :: rest = text ++ after ∧ text ≠ [] ∧
      (kindAt bounded (c :: rest)).Covers (after = []) text ∧
      (kindAt bounded (c :: rest)).Allows bounded' after ∧
      piecesFrom mode bounded' (kindAt bounded (c :: rest)).padsRight
        (position + byteLength text) after = .ok qs ∧
      ps = ⟨kindAt bounded (c :: rest), position, String.ofList text⟩ :: qs := by
  -- only a chunk has a say in what comes after it
  have hallows : ∀ {k : PieceKind} {bounded' : Bool} {after : List Char}, k ≠ .gap → k ≠ .chunk →
      k.Allows bounded' after := by
    intro k bounded' after hgap hchunk d hd
    split
    · exact hgap
    · exact PieceKind.mayPrecede_kindAt hgap fun h => absurd h hchunk
  rw [piecesFrom_cons, if_neg (by simp [hc])] at h
  split at h
  · rename_i hnegated
    obtain ⟨after, hsplit⟩ := opensNegated_eq_true_iff.mp hnegated
    obtain ⟨rfl, rfl⟩ := List.cons.inj hsplit
    obtain ⟨qs, hqs, rfl⟩ := exists_of_map_eq_ok h
    have hkind : kindAt bounded ('-' :: '(' :: after) = .openGroup := by simp [kindAt, hnegated]
    rw [hkind]
    exact ⟨['-', '('], after, true, qs, rfl, by simp, .inr rfl, hallows (by simp) (by simp), hqs,
      rfl⟩
  rename_i hnegated
  split at h
  · rename_i hopen
    subst hopen
    obtain ⟨qs, hqs, rfl⟩ := exists_of_map_eq_ok h
    have hkind : kindAt bounded ('(' :: rest) = .openGroup := by simp [kindAt]
    rw [hkind]
    exact ⟨['('], rest, true, qs, rfl, by simp, .inl rfl, hallows (by simp) (by simp), hqs, rfl⟩
  rename_i hopen
  split at h
  · rename_i hclose
    subst hclose
    obtain ⟨qs, hqs, rfl⟩ := exists_of_map_eq_ok h
    have hkind : kindAt bounded (')' :: rest) = .closeGroup := by simp [kindAt, opensNegated]
    rw [hkind]
    exact ⟨[')'], rest, true, qs, rfl, by simp, rfl, hallows (by simp) (by simp), hqs, rfl⟩
  rename_i hclose
  have hother : kindAt bounded (c :: rest) =
      if startsWithOr bounded (c :: rest) then .or else .chunk := by
    simp [kindAt, hnegated, hopen, hclose]
  split at h
  · rename_i hor
    obtain ⟨word, after, hsplit, hword⟩ := exists_word_of_startsWithOr hor
    have hlength := byteLength_of_isOrWord hword
    obtain ⟨o, r, rfl, -, -⟩ := isOrWord_iff.mp hword
    obtain ⟨rfl, rfl⟩ := List.cons.inj hsplit
    obtain ⟨qs, hqs, rfl⟩ := exists_of_map_eq_ok h
    rw [hother, if_pos hor]
    exact ⟨[c, r], after, false, qs, rfl, by simp, hword, hallows (by simp) (by simp),
      hlength ▸ hqs, rfl⟩
  · rename_i hor
    rcases hcut : cutChunk mode none true position (c :: rest) with e | ⟨chunk, after⟩
    · rw [hcut] at h
      cases h
    rw [hcut] at h
    obtain ⟨qs, hqs, rfl⟩ := exists_of_map_eq_ok h
    have hsplit := eq_append_of_cutChunk hcut
    have hbegins : beginsChunk (c :: rest) = true := by
      simp [beginsChunk, isParenthesis, hc, hnegated, hopen, hclose]
    have hne : chunk ≠ [] := ne_nil_of_cutChunk hbegins hcut
    rw [hother, if_neg hor]
    refine ⟨chunk, after, false, qs, hsplit, hne, chunkRest_of_cutChunk hcut, ?_, hqs, rfl⟩
    intro d hd
    obtain ⟨tail, rfl⟩ := List.head?_eq_some_iff.mp hd
    split
    · simp
    · rename_i hblank
      refine PieceKind.mayPrecede_kindAt (by simp) fun _ => ?_
      exact kindAt_ne_chunk_of_beginsChunk (beginsChunk_of_cutChunk hcut) (by simpa using hblank)

end Kind

/-! ### The pieces of a text, from the left to the right -/

/-- **A text falls into pieces**: each stands behind blanks that pad it or the piece before. The
text starts at the byte position `position`, behind a piece of the kind `previous`. -/
inductive FallsInto :
    (previous : Option PieceKind) → (position : Nat) → List Char → List Piece → Prop
  /-- Blanks at the end pad the last piece. -/
  | nil {previous : Option PieceKind} {position : Nat} {pad : List Char} :
    Blanks pad → (pad ≠ [] → ∃ k ∈ previous, k.padsRight = true) →
    FallsInto previous position pad []
  /-- A piece stands behind some blanks. -/
  | cons {previous : Option PieceKind} {position : Nat} {pad text after : List Char}
      {kind : PieceKind} {ps : List Piece} :
    Blanks pad → (pad ≠ [] → (∃ k ∈ previous, k.padsRight = true) ∨ kind.padsLeft = true) →
    text ≠ [] → kind.Covers (after = []) text → (∀ k ∈ previous, k.MayPrecede kind) →
    FallsInto (some kind) (position + byteLength pad + byteLength text) after ps →
    FallsInto previous position (pad ++ (text ++ after))
      (⟨kind, position + byteLength pad, String.ofList text⟩ :: ps)

section FallsInto

variable {mode : Mode} {previous : Option PieceKind} {bounded : Bool} {position : Nat}
  {lead cs text after : List Char} {kind : PieceKind} {p : Piece} {ps : List Piece}

/-- A piece at the very start. -/
theorem FallsInto.cons_of_eq (hne : text ≠ []) (hcovers : kind.Covers (after = []) text)
    (hprevious : ∀ k ∈ previous, k.MayPrecede kind)
    (h : FallsInto (some kind) (position + byteLength text) after ps) :
    FallsInto previous position (text ++ after) (⟨kind, position, String.ofList text⟩ :: ps) :=
  .cons blanks_nil (absurd rfl) hne hcovers hprevious h

/-- More blanks in front pad the same piece. -/
theorem FallsInto.append_blanks (hlead : Blanks lead)
    (hpads : (∃ k ∈ previous, k.padsRight = true) ∨ ∃ p ∈ ps.head?, p.kind.padsLeft = true)
    (h : FallsInto previous (position + byteLength lead) cs ps) :
    FallsInto previous position (lead ++ cs) ps := by
  have happend : ∀ {pad : List Char}, Blanks pad → Blanks (lead ++ pad) := fun hpad c hc =>
    (List.mem_append.mp hc).elim (hlead c) (hpad c)
  cases h with
  | nil hpad _ =>
    exact .nil (happend hpad) fun _ => hpads.resolve_right (by simp)
  | @cons _ _ pad text after kind ps hpad _ hne hcovers hprevious hps =>
    have hwhole : FallsInto previous position ((lead ++ pad) ++ (text ++ after))
        (⟨kind, position + byteLength (lead ++ pad), String.ofList text⟩ :: ps) := by
      refine .cons (happend hpad) (fun _ => hpads.imp_right ?_) hne hcovers hprevious ?_
      · rintro ⟨p, hp, hpadsLeft⟩
        cases hp
        exact hpadsLeft
      · rwa [byteLength_append, ← Nat.add_assoc]
    rwa [List.append_assoc, byteLength_append, ← Nat.add_assoc] at hwhole

/-- After blanks that pad the piece before or the next one, the text goes on with the next one. -/
theorem PieceKind.allows_of_pads {k : PieceKind} (hgap : k ≠ .gap)
    (hhead : ∀ d ∈ after.head?, isBlank d = false)
    (hpads : k.padsRight = true ∨ (kindAt true after).padsLeft = true) : k.Allows true after := by
  intro d hd
  rw [if_neg (by simp [hhead d hd])]
  refine mayPrecede_kindAt hgap fun hchunk => ?_
  refine kindAt_ne_chunk_of_padsLeft (hpads.resolve_left fun hright => ?_)
  rw [hchunk] at hright
  cases hright

/-- After a gap the text goes on with a piece that it does not pad. -/
theorem PieceKind.gap_allows (hhead : ∀ d ∈ after.head?, isBlank d = false)
    (hpads : (kindAt true after).padsLeft = false) : PieceKind.gap.Allows true after := by
  intro d hd
  rw [if_neg (by simp [hhead d hd])]
  exact ⟨fun h => absurd h kindAt_ne_gap, fun _ => hpads, fun _ => kindAt_ne_gap,
    fun h => by cases h⟩

/-- **The pieces that are read** are those that the text falls into, where the text goes on as the
piece before it allows. -/
theorem fallsInto_of_piecesFrom (hprevious : ∀ k ∈ previous, k.Allows bounded cs)
    (h : piecesFrom mode bounded (previous.any PieceKind.padsRight) position cs = .ok ps) :
    FallsInto previous position cs ps := by
  induction hlength : cs.length using Nat.strong_induction_on
    generalizing previous bounded position cs ps with
  | _ n ih =>
  rcases cs with _ | ⟨c, rest⟩
  · rw [piecesFrom] at h
    cases h
    exact .nil blanks_nil (absurd rfl)
  by_cases hc : isBlank c = true
  · -- a run of blanks pads a piece or is a gap
    have hblanks : Blanks (c :: rest.takeWhile isBlank) := blanks_cons_takeWhile hc
    have hne : c :: rest.takeWhile isBlank ≠ [] := List.cons_ne_nil _ _
    have hsplit : c :: rest = (c :: rest.takeWhile isBlank) ++ rest.dropWhile isBlank := by simp
    have hhead : ∀ d ∈ (rest.dropWhile isBlank).head?, isBlank d = false := fun d hd =>
      eq_false_of_head?_dropWhile hd
    have hgap : ∀ k ∈ previous, k ≠ .gap := fun k hk => by
      have hallows := hprevious k hk c rfl
      rwa [if_pos hc] at hallows
    rw [piecesFrom_cons, if_pos hc] at h
    generalize c :: rest.takeWhile isBlank = blanks at *
    generalize rest.dropWhile isBlank = after at *
    have hshorter : after.length < n := hlength ▸ length_lt_of_eq_append hsplit hne
    simp only [Bool.or_assoc, ← padsLeft_kindAt] at h
    rw [hsplit]
    split at h
    · rename_i hpads
      rw [Bool.or_eq_true, Option.any_eq_true] at hpads
      have hnext : ∀ k ∈ previous, k.Allows true after := by
        intro k hk
        refine PieceKind.allows_of_pads (hgap k hk) hhead (hpads.imp_left ?_)
        rintro ⟨k', hk', hright⟩
        rwa [Option.some.inj (hk.symm.trans hk')]
      refine (ih _ hshorter hnext h rfl).append_blanks hblanks (hpads.imp_right fun hleft => ?_)
      rcases after with _ | ⟨d, after⟩
      · cases hleft
      obtain ⟨text, rear, bounded', qs, -, -, -, -, -, rfl⟩ :=
        exists_piece_of_piecesFrom (hhead d rfl) h
      exact ⟨_, rfl, hleft⟩
    · rename_i hpads
      simp only [Bool.or_eq_true, not_or, Bool.not_eq_true] at hpads
      obtain ⟨qs, hqs, rfl⟩ := exists_of_map_eq_ok h
      have hnext : ∀ k ∈ some PieceKind.gap, k.Allows true after := fun k hk => by
        obtain rfl := Option.some.inj hk
        exact PieceKind.gap_allows hhead hpads.2
      refine .cons_of_eq hne hblanks (fun k hk => ?_) (ih _ hshorter hnext hqs rfl)
      have hright := hpads.1
      rw [Option.mem_def.mp hk] at hright
      exact ⟨fun _ => hright, fun h => absurd h (hgap k hk), fun h => absurd h (hgap k hk),
        fun _ => by simp⟩
  · obtain ⟨text, after, bounded', qs, hsplit, hne, hcovers, hallows, hqs, rfl⟩ :=
      exists_piece_of_piecesFrom (by simpa using hc) h
    have hshorter : after.length < n := hlength ▸ length_lt_of_eq_append hsplit hne
    have hkind : ∀ k ∈ previous, k.MayPrecede (kindAt bounded (c :: rest)) := fun k hk => by
      have hallows := hprevious k hk c rfl
      rwa [if_neg hc] at hallows
    have hnext : ∀ k ∈ some (kindAt bounded (c :: rest)), k.Allows bounded' after :=
      fun k hk => by rwa [← Option.some.inj hk]
    have hafter := ih _ hshorter hnext hqs rfl
    generalize kindAt bounded (c :: rest) = kind at *
    rw [hsplit]
    exact .cons_of_eq hne hcovers hkind hafter

/-! ### What is left out -/

/-- The pieces stand where the text is, or behind it. -/
theorem FallsInto.le_start (h : FallsInto previous position cs ps) (hp : p ∈ ps) :
    position ≤ p.start := by
  induction h with
  | nil => cases hp
  | cons _ _ _ _ _ _ ih =>
    rcases List.mem_cons.mp hp with rfl | hp
    · exact Nat.le_add_right _ _
    · have hle := ih hp
      omega

/-- No piece is empty, and each covers what its kind does. -/
theorem FallsInto.covers (h : FallsInto previous position cs ps) (hp : p ∈ ps) :
    p.text.toList ≠ [] ∧
      p.kind.Covers (p.stop = position + byteLength cs) p.text.toList := by
  induction h with
  | nil => cases hp
  | @cons previous position pad text after kind ps _ _ hne hcovers _ _ ih =>
    rcases List.mem_cons.mp hp with rfl | hp
    · simp only [String.toList_ofList]
      refine ⟨hne, hcovers.mono ?_⟩
      rintro rfl
      simp [Piece.stop, Nat.add_assoc]
    · have hcovers := ih hp
      simpa only [byteLength_append, Nat.add_assoc] using hcovers

/-- Consecutive pieces may stand side by side, also the one before the text and the first one. -/
theorem FallsInto.isChain (h : FallsInto previous position cs ps) :
    (∀ k ∈ previous, ∀ p ∈ ps.head?, k.MayPrecede p.kind) ∧
      ps.IsChain fun p q => p.kind.MayPrecede q.kind := by
  induction h with
  | nil => exact ⟨fun _ _ _ hp => absurd hp (by simp), .nil⟩
  | cons _ _ _ _ hprevious _ ih =>
    refine ⟨fun k hk p hp => ?_, .cons ih.2 (ih.1 _ rfl)⟩
    cases hp
    exact hprevious k hk

/-- **The byte position lies in padding**: between two places where no piece stands, directly behind
a piece that is padded on the right or directly in front of one that is padded on the left. -/
def IsPadding (ps : List Piece) (position : Nat) : Prop :=
  ∃ start stop, start ≤ position ∧ position < stop ∧ (∀ p ∈ ps, p.stop ≤ start ∨ stop ≤ p.start) ∧
    ((∃ p ∈ ps, p.kind.padsRight = true ∧ p.stop = start) ∨
      ∃ p ∈ ps, p.kind.padsLeft = true ∧ p.start = stop)

/-- **Outside the pieces there is padding only**, some of it behind the piece before the text. -/
theorem FallsInto.padding (h : FallsInto previous position cs ps) {before rear : List Char}
    {c : Char} (hcs : cs = before ++ c :: rear)
    (houtside : ∀ p ∈ ps, position + byteLength before < p.start ∨
      p.stop ≤ position + byteLength before) :
    isBlank c = true ∧ ∃ start stop, position ≤ start ∧ start ≤ position + byteLength before ∧
      position + byteLength before < stop ∧ (∀ p ∈ ps, p.stop ≤ start ∨ stop ≤ p.start) ∧
      ((∃ k ∈ previous, k.padsRight = true ∧ start = position) ∨
        (∃ p ∈ ps, p.kind.padsRight = true ∧ p.stop = start) ∨
        ∃ p ∈ ps, p.kind.padsLeft = true ∧ p.start = stop) := by
  have hpos := c.utf8Size_pos
  induction h generalizing before with
  | @nil previous position pad hpad hpads =>
    subst hcs
    obtain ⟨k, hk, hright⟩ := hpads (by simp)
    refine ⟨hpad c (by simp), position, position + byteLength (before ++ c :: rear), Nat.le_refl _,
      Nat.le_add_right _ _, ?_, by simp, .inl ⟨k, hk, hright, rfl⟩⟩
    rw [byteLength_append, byteLength_cons]
    omega
  | @cons previous position pad text after kind ps hpad hpads _ _ _ hps ih =>
    obtain ⟨hfirst, hothers⟩ := List.forall_mem_cons.mp houtside
    have hstop : Piece.stop ⟨kind, position + byteLength pad, String.ofList text⟩ =
        position + byteLength pad + byteLength text := by simp [Piece.stop]
    rw [hstop] at hfirst
    change position + byteLength before < position + byteLength pad ∨ _ at hfirst
    rcases hfirst with hfirst | hfirst
    · -- the character stands in front of the first piece
      obtain ⟨mid, rfl, hmid⟩ := exists_append_of_byteLength_le hcs.symm (by omega)
      obtain ⟨tail, rfl⟩ : ∃ tail, mid = c :: tail := by
        rcases mid with _ | ⟨d, tail⟩
        · simp at hfirst
        · exact ⟨tail, by rw [(List.cons.inj hmid).1]⟩
      refine ⟨hpad c (by simp), position, position + byteLength (before ++ c :: tail),
        Nat.le_refl _, Nat.le_add_right _ _, hfirst, ?_, ?_⟩
      · rw [List.forall_mem_cons]
        refine ⟨.inr (Nat.le_refl _), fun p hp => .inr ?_⟩
        exact Nat.le_trans (Nat.le_add_right _ _) (hps.le_start hp)
      · rcases hpads (by simp) with ⟨k, hk, hright⟩ | hleft
        · exact .inl ⟨k, hk, hright, rfl⟩
        · exact .inr (.inr ⟨_, List.mem_cons_self, hleft, rfl⟩)
    · -- and here behind it
      rw [← List.append_assoc] at hcs
      obtain ⟨mid, rfl, hmid⟩ := exists_append_of_byteLength_le hcs
        (by rw [byteLength_append]; omega)
      have hplace : position + byteLength (pad ++ text ++ mid) =
          position + byteLength pad + byteLength text + byteLength mid := by
        rw [byteLength_append, byteLength_append, Nat.add_assoc, Nat.add_assoc, Nat.add_assoc]
      rw [hplace] at hothers ⊢
      obtain ⟨hblank, start, stop, hle, hstart, hlt, hapart, hpadded⟩ := ih hmid hothers
      refine ⟨hblank, start, stop, by omega, hstart, hlt, ?_, ?_⟩
      · exact List.forall_mem_cons.mpr ⟨.inl (hstop ▸ hle), hapart⟩
      · rcases hpadded with ⟨k, hk, hright, rfl⟩ | ⟨p, hp, hright⟩ | ⟨p, hp, hleft⟩
        · obtain rfl := Option.some.inj hk
          exact .inr (.inl ⟨_, List.mem_cons_self, hright, hstop⟩)
        · exact .inr (.inl ⟨p, List.mem_cons_of_mem _ hp, hright⟩)
        · exact .inr (.inr ⟨p, List.mem_cons_of_mem _ hp, hleft⟩)

end FallsInto

/-! ### What a text and its pieces have in common -/

/-- **The pieces tile the text.** -/
structure Tiles (cs : List Char) (ps : List Piece) : Prop where
  /-- Every piece takes a byte at least. -/
  nonempty : ∀ p ∈ ps, p.start < p.stop
  /-- It stands between two borders of the text. -/
  border : ∀ p ∈ ps, IsBorder 0 cs p.start ∧ IsBorder 0 cs p.stop
  /-- The pieces come in order and do not overlap. -/
  ordered : ps.Pairwise fun p q => p.stop ≤ q.start
  /-- The slice where a piece stands is what its kind covers. -/
  covers : ∀ p ∈ ps, ∃ slice, textBetween? p.start p.stop cs = some slice ∧
    p.kind.Covers (p.stop = byteLength cs) slice
  /-- A character outside all of them is blank, and pads one of them. -/
  padding (before : List Char) (c : Char) (after : List Char) : cs = before ++ c :: after →
    (∀ p ∈ ps, byteLength before < p.start ∨ p.stop ≤ byteLength before) →
      isBlank c = true ∧ IsPadding ps (byteLength before)
  /-- Neighbours may stand side by side. -/
  neighbours : ps.IsChain fun p q => p.kind.MayPrecede q.kind

/-- **A piece stands between two borders.** -/
theorem Laid.isBorder {position : Nat} {cs : List Char} {ps : List Piece} {p : Piece}
    (h : Laid position cs ps) (hp : p ∈ ps) :
    IsBorder position cs p.start ∧ IsBorder position cs p.stop := by
  obtain ⟨before, after, rfl, hstart⟩ := h.exists_append hp
  rw [Piece.stop, hstart]
  exact isBorder_slice

theorem tiles_of_piecesFrom {mode : Mode} {cs : List Char} {ps : List Piece}
    (h : piecesFrom mode true false 0 cs = .ok ps) : Tiles cs ps := by
  have hlaid := laid_of_piecesFrom h
  have hfalls : FallsInto none 0 cs ps :=
    fallsInto_of_piecesFrom (fun k hk => by cases hk) h
  refine ⟨fun p hp => ?_, fun p hp => ?_, hlaid.pairwise, fun p hp => ?_, ?_, hfalls.isChain.2⟩
  · exact Nat.lt_add_of_pos_right (byteLength_pos (hfalls.covers hp).1)
  · exact hlaid.isBorder hp
  · have hcovers := (hfalls.covers hp).2
    rw [Nat.zero_add] at hcovers
    exact ⟨p.text.toList, text?_stretch hlaid hp, hcovers⟩
  · intro before c after hcs houtside
    obtain ⟨hblank, start, stop, -, hstart, hstop, hapart, hpadded⟩ :=
      hfalls.padding hcs (by simpa using houtside)
    rw [Nat.zero_add] at hstart hstop
    refine ⟨hblank, start, stop, hstart, hstop, hapart, hpadded.resolve_left ?_⟩
    rintro ⟨k, hk, -⟩
    cases hk

/-- **A tolerant split tiles every text**: it takes no fault, and neither does the scanner on
bytes, which finds the same pieces. -/
theorem tiles_pieces (text : String) :
    piecesFrom .tolerant true false 0 text.toList = .ok (pieces text) ∧
      scan? .tolerant text.toList = some (.ok ((pieces text).map Piece.stretch)) ∧
      Tiles text.toList (pieces text) := by
  have hpieces := piecesFrom_pieces text
  refine ⟨hpieces, ?_, tiles_of_piecesFrom hpieces⟩
  rw [scan?_eq, hpieces]
  rfl

end CardFilter.Draft
