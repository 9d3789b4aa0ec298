import CardFilter.Proofs.DraftPieces
import CardFilter.Proofs.Scanner

/-!
# The pieces of a draft in slices

No slice of the scanner fails, and what it finds are the pieces of the text
(`CardFilter.Draft.scan?_eq`).

The scanner and the reader of pieces differ in how they go about a chunk. The reader cuts off the
whole of it; the scanner takes a quoted stretch or a run of plain characters at a time, starts over
after each, and joins. So the comparison has two levels:

* one step at the start of a chunk takes some characters of it, and what is left of the chunk is
  cut off from there as it would have been (`CardFilter.Draft.step?_chunk`);
* by induction on the rest of the text, the steps through a chunk come to what the cut gives
  (`CardFilter.Draft.run?_chunk`), and the steps through a text to its pieces
  (`CardFilter.Draft.run?_eq`).

The word `or` is looked for at every step, also in the middle of a chunk, where what comes before
it is a quote or a plain character; there it does not stand
(`CardFilter.Draft.Scanner.startsWithOrInBytes?_eq`).
-/

namespace CardFilter.Draft

/-! ### The word `or` and blanks -/

section Words

variable {before front rest cs word : List Char} {c : Char}

/-- A letter and its small letter take as many bytes. -/
theorem utf8Size_toLower (c : Char) : c.toLower.utf8Size = c.utf8Size := by
  by_cases hupper : c.val ≥ 'A'.val ∧ c.val ≤ 'Z'.val
  · have hsum : c.toLower.val = c.val + ('a'.val - 'A'.val) := congrArg Char.val (dif_pos hupper)
    have hle : c.val.toNat ≤ 90 := UInt32.le_iff_toNat_le.mp hupper.2
    have hsmall : c.toLower.val.toNat = c.val.toNat + 32 := by
      have hdistance : ('a'.val - 'A'.val).toNat = 32 := rfl
      rw [hsum, UInt32.toNat_add]
      omega
    have hone : ∀ d : Char, d.val.toNat ≤ 127 → d.utf8Size = 1 := fun d hd =>
      Char.utf8Size_eq_one_iff.mpr (UInt32.le_iff_toNat_le.mpr hd)
    rw [hone c (by omega), hone c.toLower (by omega)]
  · rw [show c.toLower = c from dif_neg hupper]

theorem isOrWord_iff :
    Value.isOrWord (String.ofList word) = true ↔
      ∃ o r, word = [o, r] ∧ o.toLower = 'o' ∧ r.toLower = 'r' := by
  have hor : asciiLower "or" = ['o', 'r'] := by decide
  rw [Value.isOrWord, sameAsciiIgnoringCase, beq_iff_eq, hor, asciiLower, String.toList_ofList,
    List.map_eq_cons_iff]
  simp only [List.map_eq_singleton_iff]
  constructor
  · rintro ⟨o, _, rfl, ho, r, rfl, hr⟩
    exact ⟨o, r, rfl, ho, hr⟩
  · rintro ⟨o, r, rfl, ho, hr⟩
    exact ⟨o, _, rfl, ho, r, rfl, hr⟩

theorem byteLength_of_isOrWord (h : Value.isOrWord (String.ofList word) = true) :
    byteLength word = 2 := by
  obtain ⟨o, r, rfl, ho, hr⟩ := isOrWord_iff.mp h
  have hsizes : o.utf8Size = 1 ∧ r.utf8Size = 1 := by
    rw [← utf8Size_toLower o, ← utf8Size_toLower r, ho, hr]
    exact ⟨rfl, rfl⟩
  simp [hsizes.1, hsizes.2]

theorem startsWithOr_append {bounded : Bool} (h : Value.isOrWord (String.ofList word) = true) :
    startsWithOr bounded (word ++ rest) = (bounded && endsWord rest) := by
  obtain ⟨o, r, rfl, ho, hr⟩ := isOrWord_iff.mp h
  simp [startsWithOr, ho, hr]

theorem exists_word_of_startsWithOr {bounded : Bool} (h : startsWithOr bounded cs = true) :
    ∃ word after, cs = word ++ after ∧ Value.isOrWord (String.ofList word) = true := by
  rcases cs with _ | ⟨o, _ | ⟨r, after⟩⟩
  · cases h
  · cases h
  · simp only [startsWithOr, Bool.and_eq_true, beq_iff_eq] at h
    exact ⟨[o, r], after, rfl, isOrWord_iff.mpr ⟨o, r, rfl, h.1.1.2, h.1.2⟩⟩

/-- **The word `or` by positions**: it stands at a border where the text begins with it and where
the character before does not continue it. -/
theorem startsWithOrInBytes?_append :
    startsWithOrInBytes? (before ++ rest) (byteLength before) =
      some (startsWithOr (endsWord before.reverse) rest) := by
  rw [startsWithOrInBytes?, textFrom?_append]
  simp only [Option.bind_eq_bind, Option.bind_some, textUpTo?_append]
  by_cases hor : ∃ word after, rest = word ++ after ∧ Value.isOrWord (String.ofList word) = true
  · obtain ⟨word, after, rfl, hword⟩ := hor
    rw [← byteLength_of_isOrWord hword, textUpTo?_append, startsWithOr_append hword]
    simp only [hword, if_true, textFrom?_append, Option.bind_some]
  · have hnone : startsWithOr (endsWord before.reverse) rest = false := by
      rw [Bool.eq_false_iff]
      exact fun h => hor (exists_word_of_startsWithOr h)
    rw [hnone]
    split
    · rfl
    · rename_i word hword
      obtain ⟨⟨front, after⟩, hcut, rfl⟩ := Option.map_eq_some_iff.mp hword
      rw [if_neg fun h => hor ⟨_, after, (cutAtByte?_eq_some_iff.mp hcut).1, h⟩]

theorem takesBlanks?_append :
    takesBlanks? (before ++ rest) (byteLength before) =
      some (rest.head? == some ')' || startsWithOr (endsWord before.reverse) rest) := by
  rw [takesBlanks?, textFrom?_append, startsWithOrInBytes?_append]
  simp only [Option.bind_eq_bind, Option.bind_some]
  cases rest.head? == some ')' <;> rfl

/-- Whether a word ends is seen from the last characters. -/
theorem endsWord_reverse_append (h : front ≠ []) :
    endsWord (before ++ front).reverse = endsWord front.reverse := by
  obtain ⟨init, last, rfl⟩ := (List.eq_nil_or_concat' front).resolve_left h
  simp [endsWord]

theorem endsWord_reverse_concat :
    endsWord (cs ++ [c]).reverse = (isBlank c || isParenthesis c) := by
  rw [List.reverse_append, List.reverse_singleton, List.singleton_append, endsWord]

/-- Blanks end a word. -/
theorem endsWord_reverse_blanks (h : Blanks cs) (hne : cs ≠ []) : endsWord cs.reverse = true := by
  obtain ⟨init, last, rfl⟩ := (List.eq_nil_or_concat' cs).resolve_left hne
  rw [endsWord_reverse_concat, h last (by simp)]
  rfl

end Words

/-! ### Steps through a chunk -/

/-- A chunk begins here, unless it is the word `or`. -/
def beginsChunk : List Char → Bool
  | [] => false
  | c :: rest => !(isBlank c || isParenthesis c || opensNegated (c :: rest))

section Chunk

variable {before run after rest cs : List Char} {c : Char} {mode : Mode} {q : Quote}
  {position start : Nat} {fresh : Bool} {s : Scanner}

/-- Where no chunk begins, none is cut off. -/
theorem cutChunk_of_not_beginsChunk (h : beginsChunk cs = false) :
    cutChunk mode none true position cs = .ok ([], cs) := by
  rcases cs with _ | ⟨c, rest⟩
  · rfl
  · rw [beginsChunk, Bool.not_eq_false'] at h
    rw [cutChunk, Bool.true_and, if_pos h]

/-- Where no negated group opens, it does not matter whether a quote has just been closed. -/
theorem cutChunk_fresh (h : opensNegated cs = false) :
    cutChunk mode none fresh position cs = cutChunk mode none false position cs := by
  rcases cs with _ | ⟨c, rest⟩
  · rfl
  · rw [cutChunk, cutChunk, h, Bool.and_false, Bool.and_false]

/-- **Through a quoted stretch**: it is passed as a whole, or is never closed. -/
theorem cutChunk_quoted :
    cutChunk mode (some (q, start)) fresh position cs =
      match cutAtMark? q.mark cs with
      | some (body, after) =>
        (cutChunk mode none true (position + byteLength (body ++ [q.mark])) after).map
          fun (chunk, rear) => (body ++ q.mark :: chunk, rear)
      | none =>
        match mode with
        | .strict => .error ⟨unclosed q, start⟩
        | .tolerant => .ok (cs, []) := by
  induction cs generalizing fresh position with
  | nil => cases mode <;> rfl
  | cons c rest ih =>
    rw [cutChunk, cutAtMark?]
    by_cases hc : c = q.mark
    · rw [if_pos hc, if_pos hc, hc]
      change _ = (cutChunk mode none true (position + q.mark.utf8Size) rest).map _
      cases cutChunk mode none true (position + q.mark.utf8Size) rest <;> rfl
    · rw [if_neg hc, if_neg hc, ih]
      rcases cutAtMark? q.mark rest with _ | ⟨body, after⟩
      · cases mode <;> rfl
      · simp only [Option.map_some, List.cons_append, byteLength_cons, ← Nat.add_assoc]
        cases cutChunk mode none true (position + c.utf8Size + byteLength (body ++ [q.mark])) after
          <;> rfl

/-- A run ends where a negated group does not open. -/
theorem opensNegated_of_isBoundary (h : ∀ d ∈ cs.head?, isBoundary d = true) :
    opensNegated cs = false := by
  rw [Bool.eq_false_iff, Ne, opensNegated_eq_true_iff]
  rintro ⟨rest, rfl⟩
  exact absurd (h '-' rfl) (by decide)

/-- **Through a run of plain characters**: it is passed as a whole. -/
theorem cutChunk_run (hrun : ∀ d ∈ run, isBoundary d = false)
    (hafter : ∀ d ∈ after.head?, isBoundary d = true) :
    cutChunk mode none false position (run ++ after) =
      (cutChunk mode none true (position + byteLength run) after).map
        fun (chunk, rear) => (run ++ chunk, rear) := by
  induction run generalizing position with
  | nil =>
    rw [List.nil_append, ← cutChunk_fresh (opensNegated_of_isBoundary hafter)]
    change _ = (cutChunk mode none true position after).map id
    cases cutChunk mode none true position after <;> rfl
  | cons d run ih =>
    obtain ⟨hd, hrun⟩ := List.forall_mem_cons.mp hrun
    simp only [isBoundary, Bool.or_eq_false_iff, Option.isSome_eq_false_iff,
      Option.isNone_iff_eq_none] at hd
    rw [List.cons_append, cutChunk, hd.1.1, hd.1.2, hd.2, Option.map_none, if_neg (by simp),
      ih hrun, byteLength_cons, ← Nat.add_assoc]
    cases cutChunk mode none true (position + d.utf8Size + byteLength run) after <;> rfl

theorem utf8Size_mark (q : Quote) : q.mark.utf8Size = 1 := by
  cases q <;> rfl

/-- The slice after the opening quote succeeds, and the closing one is found where it stands. -/
theorem passQuoted?_eq (hposition : s.position = byteLength before) :
    s.passQuoted? mode (before ++ q.mark :: rest) q =
      some (match cutAtMark? q.mark rest with
        | some (body, _) =>
          .ok (s.push .chunk (s.position + byteLength (q.mark :: (body ++ [q.mark]))))
        | none =>
          match mode with
          | .strict => .error ⟨unclosed q, s.position⟩
          | .tolerant => .ok (s.push .chunk (s.position + byteLength (q.mark :: rest)))) := by
  have hbody : textFrom? 1 (q.mark :: rest) = some rest := by
    rw [textFrom?_eq_some_iff]
    exact ⟨[q.mark], rfl, by simp [utf8Size_mark]⟩
  unfold Scanner.passQuoted?
  rw [hposition, textFrom?_append]
  simp only [Option.bind_eq_bind, Option.bind_some, hbody, findByte?_mark]
  rcases cutAtMark? q.mark rest with _ | ⟨body, after⟩
  · cases mode
    · rfl
    · simp
  · simp only [Option.map_some, byteLength_cons, byteLength_append, byteLength_nil, utf8Size_mark]
    congr 3
    omega

/-- What comes after the first part, if anything does, continues a word. -/
def Continues (before after : List Char) : Prop :=
  after ≠ [] → endsWord before.reverse = false

theorem Continues.startsWithOr_eq_false (h : Continues before after) :
    startsWithOr (endsWord before.reverse) after = false := by
  rcases after with _ | ⟨o, _ | ⟨r, after⟩⟩
  · rfl
  · rfl
  · rw [h (List.cons_ne_nil _ _)]
    rfl

theorem Continues.piecesFrom_eq {padded : Bool} (h : Continues before after) :
    piecesFrom mode (endsWord before.reverse) padded position after =
      piecesFrom mode false padded position after := by
  rcases after with _ | ⟨d, after⟩
  · rw [piecesFrom, piecesFrom]
  · rw [h (List.cons_ne_nil _ _)]

/-- The cut at an opening quote. -/
theorem cutChunk_mark :
    cutChunk mode none false position (q.mark :: rest) =
      (cutChunk mode (some (q, position)) false (position + 1) rest).map
        fun (chunk, rear) => (q.mark :: chunk, rear) := by
  have hplain : isBlank q.mark = false ∧ isParenthesis q.mark = false := by cases q <;> decide
  rw [cutChunk, hplain.1, hplain.2, Quote.ofChar?_mark, if_neg (by simp), Option.map_some,
    utf8Size_mark]
  cases cutChunk mode (some (q, position)) false (position + 1) rest <;> rfl

/-- **One step into a chunk at a quote**: the quoted stretch becomes a piece, or is never closed. -/
theorem passQuoted?_chunk (mode : Mode) (hposition : s.position = byteLength before) :
    (∃ e, s.passQuoted? mode (before ++ q.mark :: rest) q = some (.error e) ∧
      cutChunk mode none false s.position (q.mark :: rest) = .error e) ∨
    ∃ front after, q.mark :: rest = front ++ after ∧ front ≠ [] ∧
      Continues (before ++ front) after ∧
      s.passQuoted? mode (before ++ q.mark :: rest) q =
        some (.ok (s.push .chunk (s.position + byteLength front))) ∧
      cutChunk mode none false s.position (q.mark :: rest) =
        (cutChunk mode none true (s.position + byteLength front) after).map
          fun (chunk, rear) => (front ++ chunk, rear) := by
  rw [passQuoted?_eq hposition, cutChunk_mark, cutChunk_quoted]
  rcases hmark : cutAtMark? q.mark rest with _ | ⟨body, after⟩
  · cases mode with
    | strict => exact .inl ⟨_, rfl, rfl⟩
    | tolerant =>
      exact .inr ⟨q.mark :: rest, [], (List.append_nil _).symm, List.cons_ne_nil _ _,
        absurd rfl, rfl, by rw [cutChunk]; simp [Except.map]⟩
  · refine .inr ⟨q.mark :: (body ++ [q.mark]), after, ?_, List.cons_ne_nil _ _, ?_, rfl, ?_⟩
    · rw [eq_append_of_cutAtMark? hmark]
      simp
    · intro _
      rw [← List.cons_append, ← List.append_assoc, endsWord_reverse_concat]
      cases q <;> decide
    · have hlength : s.position + 1 + byteLength (body ++ [q.mark]) =
          s.position + byteLength (q.mark :: (body ++ [q.mark])) := by
        rw [byteLength_cons, utf8Size_mark, Nat.add_assoc]
      simp only [hlength]
      cases cutChunk mode none true (s.position + byteLength (q.mark :: (body ++ [q.mark]))) after
      · rfl
      · simp [Except.map]

/-- **One step into a chunk at a plain character**: the run of plain characters becomes a piece. -/
theorem exists_run (mode : Mode) (before : List Char) (position : Nat)
    (hc : isBoundary c = false) :
    ∃ front after, c :: rest = front ++ after ∧ front ≠ [] ∧ Continues (before ++ front) after ∧
      (findByte? isBoundary (c :: rest)).getD (byteLength (c :: rest)) = byteLength front ∧
      cutChunk mode none false position (c :: rest) =
        (cutChunk mode none true (position + byteLength front) after).map
          fun (chunk, rear) => (front ++ chunk, rear) := by
  let run := (c :: rest).takeWhile fun d => !isBoundary d
  let after := (c :: rest).dropWhile fun d => !isBoundary d
  have hsplit : c :: rest = run ++ after := List.takeWhile_append_dropWhile.symm
  have hrun : ∀ d ∈ run, isBoundary d = false := fun d hd => by
    simpa using List.mem_takeWhile_imp hd
  have hafter : ∀ d ∈ after.head?, isBoundary d = true := fun d hd => by
    simpa using eq_false_of_head?_dropWhile hd
  have hne : run ≠ [] := by
    simp only [run, List.takeWhile_cons, hc, Bool.not_false, if_true]
    exact List.cons_ne_nil _ _
  refine ⟨run, after, hsplit, hne, ?_, findByte?_getD, ?_⟩
  · obtain ⟨init, last, hinit⟩ := (List.eq_nil_or_concat' run).resolve_left hne
    have hlast : isBoundary last = false := hrun last (by simp [hinit])
    rw [isBoundary, Bool.or_eq_false_iff, Bool.or_eq_false_iff] at hlast
    intro _
    rw [hinit, ← List.append_assoc, endsWord_reverse_concat, hlast.1.1, hlast.1.2]
    rfl
  · rw [hsplit]
    exact cutChunk_run hrun hafter

/-- **One step into a chunk**: some characters of it become a piece, and what is left of it is cut
off from there; or the step ends with the fault of the cut. -/
theorem step?_chunk (mode : Mode) (hposition : s.position = byteLength before)
    (hbegins : beginsChunk (c :: rest) = true)
    (hor : startsWithOr (endsWord before.reverse) (c :: rest) = false) :
    (∃ e, s.step? mode (before ++ c :: rest) c rest = some (.error e) ∧
      cutChunk mode none true s.position (c :: rest) = .error e) ∨
    ∃ front after, c :: rest = front ++ after ∧ front ≠ [] ∧
      Continues (before ++ front) after ∧
      s.step? mode (before ++ c :: rest) c rest =
        some (.ok (s.push .chunk (s.position + byteLength front))) ∧
      cutChunk mode none true s.position (c :: rest) =
        (cutChunk mode none true (s.position + byteLength front) after).map
          fun (chunk, rear) => (front ++ chunk, rear) := by
  rw [beginsChunk, Bool.not_eq_true', Bool.or_eq_false_iff, Bool.or_eq_false_iff] at hbegins
  obtain ⟨⟨hblank, hparenthesis⟩, hnegated⟩ := hbegins
  have hopen : c ≠ '(' := by rintro rfl; cases hparenthesis
  have hclose : c ≠ ')' := by rintro rfl; cases hparenthesis
  have hfound : startsWithOrInBytes? (before ++ c :: rest) s.position = some false := by
    rw [hposition, startsWithOrInBytes?_append, hor]
  rw [Scanner.step?, if_neg (by simp [hblank]), if_neg (by simp [hnegated]), if_neg hopen,
    if_neg hclose, hfound, Option.bind_some, if_neg Bool.false_ne_true, cutChunk_fresh hnegated]
  cases hquote : Quote.ofChar? c with
  | some q =>
    obtain rfl := Quote.eq_mark_of_ofChar? hquote
    exact passQuoted?_chunk mode hposition
  | none =>
    have hplain : isBoundary c = false := by simp [isBoundary, hblank, hparenthesis, hquote]
    obtain ⟨front, after, hsplit, hne, hafter, hlength, hcut⟩ :=
      exists_run mode before s.position hplain
    exact .inr ⟨front, after, hsplit, hne, hafter, by rw [← hlength], hcut⟩

end Chunk

/-! ### Steps through a text -/

section Run

variable {before rest cs : List Char} {c : Char} {mode : Mode} {start : Nat} {s : Scanner}
  {older : List Stretch} {bounded padded : Bool} {position : Nat}

/-- **The steps through a chunk**, from the middle of it: they end where the chunk is cut off, or
with the fault of the cut. -/
theorem run?_chunk (hrest : Continues before rest) :
    (∃ e, cutChunk mode none true (byteLength before) rest = .error e ∧
      Scanner.run? mode (before ++ rest)
        ⟨byteLength before, ⟨.chunk, start, byteLength before⟩ :: older⟩ = some (.error e)) ∨
    ∃ chunk after, cutChunk mode none true (byteLength before) rest = .ok (chunk, after) ∧
      rest = chunk ++ after ∧ beginsChunk after = false ∧ Continues (before ++ chunk) after ∧
      Scanner.run? mode (before ++ rest)
          ⟨byteLength before, ⟨.chunk, start, byteLength before⟩ :: older⟩ =
        Scanner.run? mode (before ++ rest)
          ⟨byteLength (before ++ chunk),
            ⟨.chunk, start, byteLength (before ++ chunk)⟩ :: older⟩ := by
  induction hlength : rest.length using Nat.strong_induction_on generalizing before rest with
  | _ n ih =>
    cases hbegins : beginsChunk rest with
    | false =>
      refine .inr ⟨[], rest, cutChunk_of_not_beginsChunk hbegins, rfl, hbegins, ?_, ?_⟩
      · rwa [List.append_nil]
      · rw [List.append_nil]
    | true =>
      rcases rest with _ | ⟨c, rest⟩
      · cases hbegins
      rcases step?_chunk (s := ⟨byteLength before, ⟨.chunk, start, byteLength before⟩ :: older⟩)
        mode rfl hbegins hrest.startsWithOr_eq_false with
        ⟨e, hstep, hcut⟩ | ⟨front, after, hsplit, hne, hafter, hstep, hcut⟩
      · exact .inl ⟨e, hcut, run?_of_step?_error rfl hstep⟩
      rw [push_chunk, ← byteLength_append] at hstep
      simp only [← byteLength_append] at hcut
      have hshorter : after.length < n := hlength ▸ length_lt_of_eq_append hsplit hne
      have htext : before ++ c :: rest = (before ++ front) ++ after := by
        rw [hsplit, List.append_assoc]
      rw [run?_of_step?_ok rfl hstep, htext, hcut]
      rcases ih after.length hshorter hafter rfl with
        ⟨e, hcut', hrun⟩ | ⟨chunk, rear, hcut', hsplit', hbegins', hrear, hrun⟩
      · exact .inl ⟨e, by rw [hcut']; rfl, hrun⟩
      · rw [List.append_assoc before front chunk] at hrear hrun
        refine .inr ⟨front ++ chunk, rear, ?_, ?_, hbegins', hrear, hrun⟩
        · rw [hcut']
          rfl
        · rw [hsplit, hsplit', List.append_assoc]

/-- What follows is put behind what was found. -/
theorem map_stretch_cons (found : List Stretch) (p : Piece) (x : Except LexError (List Piece)) :
    (x.map (p :: ·)).map (fun ps => found.reverse ++ ps.map Piece.stretch) =
      x.map fun ps => (p.stretch :: found).reverse ++ ps.map Piece.stretch := by
  cases x <;> simp [Except.map]

/-- One step of the reader of pieces. -/
theorem piecesFrom_cons :
    piecesFrom mode bounded padded position (c :: rest) =
      if isBlank c then
        let blanks := c :: rest.takeWhile isBlank
        let after := rest.dropWhile isBlank
        if padded || after.head? == some ')' || startsWithOr true after then
          piecesFrom mode true padded (position + byteLength blanks) after
        else
          (piecesFrom mode true false (position + byteLength blanks) after).map
            (⟨.gap, position, String.ofList blanks⟩ :: ·)
      else if opensNegated (c :: rest) then
        (piecesFrom mode true true (position + 2) (rest.drop 1)).map
          (⟨.openGroup, position, "-("⟩ :: ·)
      else if c = '(' then
        (piecesFrom mode true true (position + 1) rest).map (⟨.openGroup, position, "("⟩ :: ·)
      else if c = ')' then
        (piecesFrom mode true false (position + 1) rest).map (⟨.closeGroup, position, ")"⟩ :: ·)
      else if startsWithOr bounded (c :: rest) then
        (piecesFrom mode false true (position + 2) (rest.drop 1)).map
          (⟨.or, position, String.ofList (c :: rest.take 1)⟩ :: ·)
      else
        (cutChunk mode none true position (c :: rest)).bind fun (chunk, after) =>
          (piecesFrom mode false false (position + byteLength chunk) after).map
            (⟨.chunk, position, String.ofList chunk⟩ :: ·) := by
  rw [piecesFrom]
  split
  · simp only
    split
    · rfl
    · split <;> rename_i heq <;> rw [heq] <;> rfl
  split
  · split <;> rename_i heq <;> rw [heq] <;> rfl
  split
  · split <;> rename_i heq <;> rw [heq] <;> rfl
  split
  · split <;> rename_i heq <;> rw [heq] <;> rfl
  split
  · split <;> rename_i heq <;> rw [heq] <;> rfl
  · split
    · rename_i hcut
      rw [hcut]
      rfl
    · rename_i hcut
      rw [hcut]
      change _ = (piecesFrom mode false false _ _).map _
      split <;> rename_i heq <;> rw [heq] <;> rfl

theorem blanks_cons_takeWhile (hc : isBlank c = true) : Blanks (c :: rest.takeWhile isBlank) :=
  blanks_cons.mpr ⟨hc, fun _ hd => List.mem_takeWhile_imp hd⟩

/-- **Through a run of blanks**: it becomes a gap, unless the piece before or what follows takes it
in. -/
theorem passBlanks?_eq (hposition : s.position = byteLength before) (hc : isBlank c = true) :
    let blanks := c :: rest.takeWhile isBlank
    let after := rest.dropWhile isBlank
    s.passBlanks? (before ++ c :: rest) =
      some (if s.isPadded || after.head? == some ')' || startsWithOr true after then
        ⟨s.position + byteLength blanks, s.found⟩
      else s.push .gap (s.position + byteLength blanks)) := by
  intro blanks after
  have hblanks : ((c :: rest).takeWhile fun d => !!isBlank d) = blanks := by
    simp [blanks, hc]
  have hends : endsWord (before ++ blanks).reverse = true := by
    rw [endsWord_reverse_append (List.cons_ne_nil _ _)]
    exact endsWord_reverse_blanks (blanks_cons_takeWhile hc) (List.cons_ne_nil _ _)
  have htext : before ++ c :: rest = (before ++ blanks) ++ after := by
    simp [blanks, after]
  have htaken : takesBlanks? (before ++ c :: rest) (s.position + byteLength blanks) =
      some (after.head? == some ')' || startsWithOr true after) := by
    rw [hposition, htext, ← byteLength_append, takesBlanks?_append, hends]
  unfold Scanner.passBlanks?
  have hrest : textFrom? s.position (before ++ c :: rest) = some (c :: rest) := by
    rw [hposition, textFrom?_append]
  rw [hrest]
  simp only [Option.bind_eq_bind, Option.bind_some, findByte?_getD, hblanks, htaken, Bool.or_assoc]

/-- **What one step does**: it passes blanks that are taken in, it adds a piece that is no chunk,
or it goes into a chunk; and the reader of pieces does the same. -/
theorem step?_cases (mode : Mode) (c : Char) (rest : List Char)
    (hposition : s.position = byteLength before) :
    (∃ lead after, c :: rest = lead ++ after ∧ lead ≠ [] ∧ endsWord lead.reverse = true ∧
      s.step? mode (before ++ c :: rest) c rest =
        some (.ok ⟨s.position + byteLength lead, s.found⟩) ∧
      piecesFrom mode (endsWord before.reverse) s.isPadded s.position (c :: rest) =
        piecesFrom mode true s.isPadded (s.position + byteLength lead) after) ∨
    (∃ kind lead after, kind ≠ .chunk ∧ c :: rest = lead ++ after ∧ lead ≠ [] ∧
      s.step? mode (before ++ c :: rest) c rest =
        some (.ok (s.push kind (s.position + byteLength lead))) ∧
      piecesFrom mode (endsWord before.reverse) s.isPadded s.position (c :: rest) =
        (piecesFrom mode (endsWord lead.reverse) (kind == .openGroup || kind == .or)
          (s.position + byteLength lead) after).map (⟨kind, s.position, String.ofList lead⟩ :: ·)) ∨
    (beginsChunk (c :: rest) = true ∧
      startsWithOr (endsWord before.reverse) (c :: rest) = false ∧
      piecesFrom mode (endsWord before.reverse) s.isPadded s.position (c :: rest) =
        (cutChunk mode none true s.position (c :: rest)).bind fun (chunk, after) =>
          (piecesFrom mode false false (s.position + byteLength chunk) after).map
            (⟨.chunk, s.position, String.ofList chunk⟩ :: ·)) := by
  rw [Scanner.step?, piecesFrom_cons]
  by_cases hblank : isBlank c = true
  · have hblanks : Blanks (c :: rest.takeWhile isBlank) := blanks_cons_takeWhile hblank
    have hends := endsWord_reverse_blanks hblanks (List.cons_ne_nil _ _)
    rw [if_pos hblank, if_pos hblank, passBlanks?_eq hposition hblank]
    by_cases htaken : (s.isPadded || (rest.dropWhile isBlank).head? == some ')' ||
        startsWithOr true (rest.dropWhile isBlank)) = true
    · refine .inl ⟨c :: rest.takeWhile isBlank, rest.dropWhile isBlank, by simp,
        List.cons_ne_nil _ _, hends, ?_, ?_⟩
      · rw [if_pos htaken]
        rfl
      · exact if_pos htaken
    · refine .inr (.inl ⟨.gap, c :: rest.takeWhile isBlank, rest.dropWhile isBlank, by decide,
        by simp, List.cons_ne_nil _ _, ?_, ?_⟩)
      · rw [if_neg htaken]
        rfl
      · rw [hends]
        exact if_neg htaken
  rw [if_neg hblank, if_neg hblank]
  by_cases hnegated : opensNegated (c :: rest) = true
  · obtain ⟨tail, hsplit⟩ := opensNegated_eq_true_iff.mp hnegated
    obtain ⟨rfl, rfl⟩ := List.cons.inj hsplit
    rw [if_pos hnegated, if_pos hnegated]
    exact .inr (.inl ⟨.openGroup, ['-', '('], tail, by decide, rfl, List.cons_ne_nil _ _, rfl, rfl⟩)
  rw [if_neg hnegated, if_neg hnegated]
  by_cases hopen : c = '('
  · subst hopen
    rw [if_pos rfl, if_pos rfl]
    exact .inr (.inl ⟨.openGroup, ['('], rest, by decide, rfl, List.cons_ne_nil _ _, rfl, rfl⟩)
  rw [if_neg hopen, if_neg hopen]
  by_cases hclose : c = ')'
  · subst hclose
    rw [if_pos rfl, if_pos rfl]
    exact .inr (.inl ⟨.closeGroup, [')'], rest, by decide, rfl, List.cons_ne_nil _ _, rfl, rfl⟩)
  rw [if_neg hclose, if_neg hclose]
  have hfound : startsWithOrInBytes? (before ++ c :: rest) s.position =
      some (startsWithOr (endsWord before.reverse) (c :: rest)) := by
    rw [hposition, startsWithOrInBytes?_append]
  by_cases hor : startsWithOr (endsWord before.reverse) (c :: rest) = true
  · obtain ⟨word, after, hsplit, hword⟩ := exists_word_of_startsWithOr hor
    have hlength := byteLength_of_isOrWord hword
    obtain ⟨o, r, rfl, -, hr⟩ := isOrWord_iff.mp hword
    have hends : endsWord [o, r].reverse = false := by
      have hplain := isPlain_of_isWordChar (isWordChar_of_toLower hr)
      simp [endsWord, hplain.1, hplain.2.1]
    refine .inr (.inl ⟨.or, [o, r], after, by decide, hsplit, List.cons_ne_nil _ _, ?_, ?_⟩)
    · rw [hfound, hor, hlength]
      rfl
    · obtain ⟨rfl, rfl⟩ := List.cons.inj hsplit
      rw [if_pos hor, hends, hlength]
      rfl
  · refine .inr (.inr ⟨?_, Bool.eq_false_iff.mpr hor, if_neg hor⟩)
    simp [beginsChunk, isParenthesis, hblank, hnegated, hopen, hclose]

/-- **The steps through a text**: they find its pieces, or the fault in it. -/
theorem run?_eq (hposition : s.position = byteLength before)
    (hstop : ∀ last ∈ s.found.head?, last.stop ≤ s.position)
    (hchunk : s.isInChunk = true → beginsChunk cs = false) :
    Scanner.run? mode (before ++ cs) s =
      some ((piecesFrom mode (endsWord before.reverse) s.isPadded s.position cs).map
        fun ps => s.found.reverse ++ ps.map Piece.stretch) := by
  induction hlength : cs.length using Nat.strong_induction_on generalizing before s cs with
  | _ n ih =>
  rcases cs with _ | ⟨c, rest⟩
  · rw [List.append_nil, run?_end hposition, piecesFrom]
    simp [Except.map]
  have hshorter : ∀ {lead after : List Char}, c :: rest = lead ++ after → lead ≠ [] →
      after.length < n := fun hsplit hne => hlength ▸ length_lt_of_eq_append hsplit hne
  have hend : ∀ lead, byteLength (before ++ lead) = s.position + byteLength lead := by
    intro lead
    rw [byteLength_append, hposition]
  rcases step?_cases mode c rest hposition with
    ⟨lead, after, hsplit, hne, hends, hstep, hpieces⟩ |
    ⟨kind, lead, after, hkind, hsplit, hne, hstep, hpieces⟩ | ⟨hbegins, hor, hpieces⟩
  · let s' : Scanner := ⟨s.position + byteLength lead, s.found⟩
    have hstop' : ∀ last ∈ s'.found.head?, last.stop < s'.position := fun last hlast =>
      Nat.lt_of_le_of_lt (hstop last hlast) (Nat.lt_add_of_pos_right (byteLength_pos hne))
    have hrun := @ih after.length (hshorter hsplit hne) (before ++ lead) after s' (hend lead).symm
      (fun last hlast => Nat.le_of_lt (hstop' last hlast))
      (fun hin => absurd hin (isInChunk_eq_false hstop' ▸ Bool.false_ne_true)) rfl
    rw [endsWord_reverse_append hne, hends] at hrun
    rw [run?_of_step?_ok hposition hstep, hpieces, hsplit, ← List.append_assoc]
    exact hrun
  · rw [push_eq (absurd · hkind)] at hstep
    rw [run?_of_step?_ok hposition hstep, hpieces, hsplit, ← List.append_assoc,
      ih after.length (hshorter hsplit hne) (hend lead).symm
        (fun last hlast => by cases hlast; exact Nat.le_refl _)
        (fun hin => by simp [Scanner.isInChunk, hkind] at hin) rfl,
      endsWord_reverse_append hne, map_stretch_cons]
    simp only [Scanner.isPadded, Piece.stretch, Piece.stop, String.toList_ofList]
  · have hapart : s.isInChunk = false := by
      rw [Bool.eq_false_iff]
      intro hin
      rw [hchunk hin] at hbegins
      cases hbegins
    rcases step?_chunk mode hposition hbegins hor with
      ⟨e, hstep, hcut⟩ | ⟨front, after, hsplit, hne, hafter, hstep, hcut⟩
    · rw [run?_of_step?_error hposition hstep, hpieces, hcut]
      rfl
    rw [push_eq fun _ => hapart, ← hend front] at hstep
    rw [run?_of_step?_ok hposition hstep, hpieces, hcut, hsplit, ← List.append_assoc, ← hend front]
    rcases run?_chunk hafter with
      ⟨e, hcut', hrun⟩ | ⟨chunk, rear, hcut', hsplit', hbegins', hrear, hrun⟩
    · rw [hrun, hcut']
      rfl
    · have hwhole : c :: rest = (front ++ chunk) ++ rear := by
        rw [hsplit, hsplit', List.append_assoc]
      rw [List.append_assoc before front chunk] at hrear hrun
      rw [hrun, hcut', List.append_assoc, ← hsplit, hwhole, ← List.append_assoc,
        ih rear.length (hshorter hwhole (List.append_ne_nil_of_left_ne_nil hne _)) rfl
          (fun last hlast => by cases hlast; exact Nat.le_refl _) (fun _ => hbegins') rfl,
        hrear.piecesFrom_eq, hend]
      change _ = some (((piecesFrom mode false false (s.position + byteLength (front ++ chunk))
        rear).map (⟨.chunk, s.position, String.ofList (front ++ chunk)⟩ :: ·)).map _)
      rw [map_stretch_cons]
      simp only [Scanner.isPadded, Piece.stretch, Piece.stop, String.toList_ofList]
      rfl

/-- **The pieces in slices**: none of them fails, and the pieces and faults are the same. -/
theorem scan?_eq (mode : Mode) (text : List Char) :
    scan? mode text = some ((piecesFrom mode true false 0 text).map (·.map Piece.stretch)) := by
  have hrun : Scanner.run? mode ([] ++ text) ⟨0, []⟩ = _ :=
    run?_eq rfl (fun last h => by cases h) (fun h => by cases h)
  exact hrun

end Run

end CardFilter.Draft
