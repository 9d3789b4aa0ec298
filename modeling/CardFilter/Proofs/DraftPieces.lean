import CardFilter.Proofs.Agreement

/-!
# The pieces of a canonical text

While a text is typed, nothing but its parentheses, its words `or` and its blanks are looked at:
what stands between them is a chunk, and only later is a chunk read as a term. This file shows that
the canonical text of a filter falls into the pieces that it was put together from
(`CardFilter.Filter.pieces`), and that every chunk completes to the term that it was written for:
the main statement is `CardFilter.Filter.pieces_render`.

## Chunks

The text of a term may hold blanks, parentheses and the word `or` between its quotes, so it cannot
be told from its characters alone that it is a chunk. `CardFilter.Draft.IsChunk` says what is
needed of it: wherever it stands, before a blank, a closing parenthesis or the end of the text, it
is cut off as a whole. Characters that begin nothing else may be put before such a text
(`CardFilter.Draft.IsChunk.append`), and a quoted stretch is one
(`CardFilter.Draft.isChunk_enclose`); a term is made of the two.

A chunk is looked for only where the word `or` does not stand
(`CardFilter.Framed.startsWithOr_eq_false`): the canonical text of a term begins with these two
letters only as part of a longer word, or as a key that a comparison follows.
-/

namespace CardFilter

namespace Draft

/-! ### Chunks -/

/-- A chunk ends here: with the text, or before a blank or a closing parenthesis. -/
def EndsChunk (after : List Char) : Prop :=
  ∀ d ∈ after.head?, isBlank d = true ∨ d = ')'

/-- The character begins nothing but a chunk, and stands unquoted in it. -/
def IsPlain (c : Char) : Prop :=
  isBlank c = false ∧ isParenthesis c = false ∧ Quote.ofChar? c = none

instance : DecidablePred IsPlain := fun c =>
  inferInstanceAs (Decidable (isBlank c = false ∧ isParenthesis c = false ∧
    Quote.ofChar? c = none))

/-- **The text of a chunk**: it is cut off as a whole, whatever comes before it, and wherever a
chunk may end. -/
def IsChunk (cs : List Char) : Prop :=
  ∀ (fresh : Bool) (position : Nat) (after : List Char), EndsChunk after →
    cutChunk .tolerant none fresh position (cs ++ after) = .ok (cs, after)

section Chunk

variable {c : Char} {cs front after : List Char} {fresh : Bool} {position : Nat}

theorem isPlain_of_isWordChar (h : isWordChar c = true) : IsPlain c := by
  have hopen : c ≠ '(' := ne_of_isWordChar h (by decide)
  have hclose : c ≠ ')' := ne_of_isWordChar h (by decide)
  refine ⟨isBlank_eq_false_of_isWordChar h, ?_, Quote.ofChar?_of_isWordChar h⟩
  simp [isParenthesis, hopen, hclose]

/-- The marks before a content and the symbols of comparisons are plain. -/
theorem isPlain_of_mem_marks (h : c ∈ ['-', '!', ':', '=', '<', '>']) : IsPlain c := by
  simp only [List.mem_cons, List.not_mem_nil, or_false] at h
  rcases h with rfl | rfl | rfl | rfl | rfl | rfl <;> decide

/-- Nothing is cut off where a chunk ends. -/
theorem isChunk_nil : IsChunk [] := by
  intro fresh position after hafter
  rcases after with _ | ⟨d, after⟩
  · rfl
  · have hend : (isBlank d || isParenthesis d || (fresh && opensNegated (d :: after))) = true := by
      rcases hafter d rfl with hblank | rfl
      · simp [hblank]
      · rfl
    rw [List.nil_append, cutChunk, if_pos hend]

/-- What begins a chunk is no blank and no parenthesis, and opens no negated group. -/
theorem IsChunk.begins (h : IsChunk (c :: cs)) (hafter : EndsChunk after) :
    (isBlank c || isParenthesis c || opensNegated (c :: (cs ++ after))) = false := by
  rw [Bool.eq_false_iff]
  intro hother
  have hcut := h true 0 after hafter
  rw [List.cons_append, cutChunk, Bool.true_and, if_pos hother] at hcut
  cases hcut

/-- No parenthesis opens after a chunk or after what goes before one. -/
theorem IsChunk.ne_open (h : IsChunk cs) (hafter : EndsChunk after) :
    ∀ d ∈ (cs ++ after).head?, d ≠ '(' := by
  rintro d hd rfl
  rcases cs with _ | ⟨e, cs⟩
  · rcases hafter '(' hd with hblank | hclose
    · exact absurd hblank (by decide)
    · exact absurd hclose (by decide)
  · obtain rfl : e = '(' := by simpa using hd
    have hbegins := h.begins hafter
    rw [Bool.or_eq_false_iff, Bool.or_eq_false_iff] at hbegins
    exact absurd hbegins.1.2 (by decide)

/-- A plain character may be put before a chunk. -/
theorem IsChunk.cons (hc : IsPlain c) (h : IsChunk cs) : IsChunk (c :: cs) := by
  intro fresh position after hafter
  obtain ⟨hblank, hparenthesis, hquote⟩ := hc
  have hnegated : opensNegated (c :: (cs ++ after)) = false := by
    rw [Bool.eq_false_iff, Ne, opensNegated_eq_true_iff]
    rintro ⟨rest, heq⟩
    refine h.ne_open hafter '(' ?_ rfl
    rw [(List.cons.inj heq).2]
    rfl
  have hbegins : (isBlank c || isParenthesis c ||
      (fresh && opensNegated (c :: (cs ++ after)))) = false := by
    simp [hblank, hparenthesis, hnegated]
  have hcut := h false (position + c.utf8Size) after hafter
  rw [List.cons_append, cutChunk, if_neg (by rw [hbegins]; exact Bool.false_ne_true), hquote,
    Option.map_none, hcut]

/-- **Plain characters may be put before a chunk.** -/
theorem IsChunk.append (hfront : ∀ d ∈ front, IsPlain d) (h : IsChunk cs) :
    IsChunk (front ++ cs) := by
  induction front with
  | nil => exact h
  | cons d front ih =>
    rw [List.forall_mem_cons] at hfront
    exact .cons hfront.1 (ih hfront.2)

theorem isChunk_of_isWord (h : IsWord cs) : IsChunk cs := by
  have happend : IsChunk (cs ++ []) :=
    .append (fun d hd => isPlain_of_isWordChar (h.2 d hd)) isChunk_nil
  rwa [List.append_nil] at happend

/-- Between the quotes everything belongs to the chunk, and after them it may end. -/
theorem cutChunk_within {q : Quote} {start : Nat} (h : q.mark ∉ cs) (hafter : EndsChunk after) :
    cutChunk .tolerant (some (q, start)) fresh position (cs ++ q.mark :: after) =
      .ok (cs ++ [q.mark], after) := by
  induction cs generalizing fresh position with
  | nil =>
    have hcut := isChunk_nil true (position + q.mark.utf8Size) after hafter
    rw [List.nil_append] at hcut
    rw [List.nil_append, cutChunk, if_pos rfl, hcut]
    rfl
  | cons d cs ih =>
    rw [List.mem_cons, not_or] at h
    rw [List.cons_append, cutChunk, if_neg (Ne.symm h.1), ih h.2]
    rfl

/-- **A quoted stretch is a chunk.** -/
theorem isChunk_enclose {q : Quote} (h : q.mark ∉ cs) : IsChunk (q.enclose cs) := by
  intro fresh position after hafter
  have hbegins : (isBlank q.mark || isParenthesis q.mark ||
      (fresh && opensNegated (q.mark :: (cs ++ q.mark :: after)))) = false := by
    cases q <;> simp [Quote.mark, opensNegated] <;> decide
  rw [Quote.enclose_append, cutChunk, if_neg (by rw [hbegins]; exact Bool.false_ne_true),
    Quote.ofChar?_mark, Option.map_some, cutChunk_within h hafter]
  rfl

end Chunk

/-! ### The word `or` -/

section Or

variable {bounded : Bool} {cs after : List Char}

/-- The two letters of the word are letters in either case. -/
theorem isWordChar_of_toLower {c : Char} (h : c.toLower = 'r') : isWordChar c = true := by
  by_cases hupper : c.val ≥ 'A'.val ∧ c.val ≤ 'Z'.val
  · have hsum : c.toLower.val = c.val + ('a'.val - 'A'.val) := congrArg Char.val (dif_pos hupper)
    rw [h] at hsum
    have hval : c.val = 'R'.val := by
      rw [← UInt32.add_sub_cancel c.val ('a'.val - 'A'.val), ← hsum]
      rfl
    rw [Char.ext hval]
    decide
  · have hsame : c.toLower = c := dif_neg hupper
    rw [← hsame, h]
    decide

/-- Where a word is followed by something else, it is the word `or` only as a whole. -/
theorem of_startsWithOr (hcs : IsWord cs) (hafter : ∀ d ∈ after.head?, isWordChar d = false)
    (h : startsWithOr bounded (cs ++ after) = true) :
    Value.isOrWord (String.ofList cs) = true ∧ endsWord after = true := by
  obtain ⟨hne, hword⟩ := hcs
  obtain ⟨o, cs, rfl⟩ := List.exists_cons_of_ne_nil hne
  rcases cs with _ | ⟨r, cs⟩
  · -- the second letter would have to stand after the word
    rcases after with _ | ⟨d, after⟩
    · cases h
    · simp only [List.cons_append, List.nil_append, startsWithOr, Bool.and_eq_true,
        beq_iff_eq] at h
      have hletter := isWordChar_of_toLower h.1.2
      rw [hafter d rfl] at hletter
      cases hletter
  · simp only [List.cons_append, startsWithOr, Bool.and_eq_true, beq_iff_eq] at h
    obtain ⟨⟨⟨-, ho⟩, hr⟩, hend⟩ := h
    rcases cs with _ | ⟨d, cs⟩
    · refine ⟨?_, hend⟩
      simp [Value.isOrWord, sameAsciiIgnoringCase, asciiLower, ho, hr]
    · -- a third letter belongs to the word
      have hplain := isPlain_of_isWordChar (hword d (by simp))
      rw [List.cons_append, endsWord, hplain.1, hplain.2.1] at hend
      cases hend

/-- The word does not begin with a mark. -/
theorem startsWithOr_cons_eq_false {c : Char} (h : c.toLower ≠ 'o') :
    startsWithOr bounded (c :: cs) = false := by
  rcases cs with _ | ⟨d, cs⟩
  · rfl
  · simp [startsWithOr, h]

end Or

end Draft

open Draft

/-! ### The text of a term -/

section Framed

variable {cs word after : List Char} {term : Value → Term}

/-- **A term is a chunk when its value is.** -/
theorem Framed.isChunk (h : Framed cs term word) (hcs : IsChunk cs) : IsChunk word := by
  have hminus : ∀ negated, ∀ d ∈ negationChars negated, IsPlain d := by
    intro negated d hd
    refine isPlain_of_mem_marks ?_
    cases negated <;> simp_all [negationChars]
  cases h with
  | @name negated literal =>
    have hbang : ∀ d ∈ literalChars literal, IsPlain d := by
      intro d hd
      refine isPlain_of_mem_marks ?_
      cases literal <;> simp_all [literalChars]
    exact .append (hminus negated) (.append hbang hcs)
  | @keyed negated key c hkey haccepts =>
    have hkeyPlain : ∀ d ∈ key, IsPlain d := fun d hd => isPlain_of_isWordChar (hkey.2 d hd)
    have hsymbol : ∀ d ∈ c.chars, IsPlain d := by
      have hmarks : c.chars ⊆ ['-', '!', ':', '=', '<', '>'] := by
        cases c <;> simp [Comparison.chars]
      exact fun d hd => isPlain_of_mem_marks (hmarks hd)
    exact .append (hminus negated) (.append hkeyPlain (.append hsymbol hcs))

theorem Value.Written.isChunk {value : Value} (h : value.Written cs) : IsChunk cs := by
  cases h with
  | word hword => exact isChunk_of_isWord hword
  | enclosed hbody => exact isChunk_enclose hbody

/-- **No term is taken for the word `or`.** -/
theorem Framed.startsWithOr_eq_false {value : Value} (h : Framed value.chars term word)
    (hafter : EndsChunk after) (bounded : Bool) :
    startsWithOr bounded (word ++ after) = false := by
  have hend : ∀ d ∈ after.head?, isWordChar d = false := by
    intro d hd
    rcases hafter d hd with hblank | rfl
    · exact isWordChar_eq_false_of_isBlank hblank
    · decide
  cases h with
  | @name negated literal =>
    cases negated with
    | true => exact startsWithOr_cons_eq_false (by decide)
    | false =>
      cases literal with
      | true => exact startsWithOr_cons_eq_false (by decide)
      | false =>
        change startsWithOr bounded (value.chars ++ after) = false
        rcases value.isWord_or_eq_enclose with ⟨hword, hor, -⟩ | ⟨q, hchars, -⟩
        · rw [Bool.eq_false_iff]
          intro hstarts
          rw [(of_startsWithOr hword hend hstarts).1] at hor
          cases hor
        · rw [hchars, Quote.enclose_append]
          exact startsWithOr_cons_eq_false (by cases q <;> decide)
  | @keyed negated key c hkey haccepts =>
    cases negated with
    | true => exact startsWithOr_cons_eq_false (by decide)
    | false =>
      change startsWithOr bounded (key ++ (c.chars ++ value.chars) ++ after) = false
      rw [Bool.eq_false_iff, List.append_assoc, List.append_assoc]
      intro hstarts
      -- a comparison does not end a word
      have hsymbol := (of_startsWithOr hkey c.isWordChar_of_mem_head? hstarts).2
      revert hsymbol
      cases c <;> simp [Comparison.chars, endsWord] <;> decide

end Framed

/-! ### The pieces of a filter -/

namespace Filter

/-- The pieces of the members of a group and of its closing parenthesis, from a byte position
on. -/
def memberPieces : Nat → List Term → List Piece
  | position, [] => [⟨.closeGroup, position, ")"⟩]
  | position, [m] =>
    [⟨.chunk, position, m.render⟩, ⟨.closeGroup, position + byteLength m.chars, ")"⟩]
  | position, m :: n :: rest =>
    ⟨.chunk, position, m.render⟩ :: ⟨.or, position + byteLength m.chars + 1, "or"⟩ ::
      memberPieces (position + byteLength m.chars + 4) (n :: rest)

/-- **The pieces that the canonical text of a filter is put together from**: one chunk for a term;
for a group its parentheses, and between them a chunk for every member, with the word `or` between
each two. -/
def pieces : Filter → List Piece
  | term t => [⟨.chunk, 0, t.render⟩]
  | anyOf negated ms =>
    let opening := negationChars negated ++ ['(']
    ⟨.openGroup, 0, String.ofList opening⟩ :: memberPieces (byteLength opening) ms

end Filter

section Pieces

variable {bounded padded : Bool} {position : Nat} {cs after : List Char} {ps : List Piece}

/-- **A chunk at the start of a text** is its first piece. -/
theorem Draft.IsChunk.piecesFrom_append (h : IsChunk cs) (hne : cs ≠ [])
    (hafter : EndsChunk after) (hor : startsWithOr bounded (cs ++ after) = false)
    (hps : piecesFrom .tolerant false false (position + byteLength cs) after = .ok ps) :
    piecesFrom .tolerant bounded padded position (cs ++ after) =
      .ok (⟨.chunk, position, String.ofList cs⟩ :: ps) := by
  obtain ⟨c, cs, rfl⟩ := List.exists_cons_of_ne_nil hne
  have hbegins := h.begins hafter
  rw [Bool.or_eq_false_iff, Bool.or_eq_false_iff] at hbegins
  obtain ⟨⟨hblank, hparenthesis⟩, hnegated⟩ := hbegins
  have hopen : c ≠ '(' := by rintro rfl; cases hparenthesis
  have hclose : c ≠ ')' := by rintro rfl; cases hparenthesis
  have hcut := h true position after hafter
  rw [List.cons_append] at hor hcut ⊢
  rw [piecesFrom, if_neg (by simp [hblank]), dif_neg (by simp [hnegated]), dif_neg hopen,
    dif_neg hclose, if_neg (by simp [hor])]
  split
  · rename_i hfault
    rw [hcut] at hfault
    cases hfault
  · rename_i hchunk
    rw [hcut] at hchunk
    cases hchunk
    rw [hps]

/-- The closing parenthesis of a group. -/
theorem Draft.piecesFrom_close :
    piecesFrom .tolerant bounded padded position [')'] =
      .ok [⟨.closeGroup, position, ")"⟩] := by
  rw [piecesFrom, if_neg (by decide), dif_neg (by decide), dif_neg (by decide), dif_pos rfl,
    piecesFrom]

/-- One blank where the piece before it takes it in. -/
theorem Draft.piecesFrom_blank_padded (h : ∀ d ∈ cs.head?, isBlank d = false) :
    piecesFrom .tolerant bounded true position (' ' :: cs) =
      piecesFrom .tolerant true true (position + 1) cs := by
  have htake : cs.takeWhile isBlank = [] :=
    takeWhile_append_of_head? (fun d hd => absurd hd List.not_mem_nil) h
  have hdrop : cs.dropWhile isBlank = cs :=
    dropWhile_append_of_head? (fun d hd => absurd hd List.not_mem_nil) h
  rw [piecesFrom, if_pos (by decide), if_pos (by simp), htake, hdrop]
  rfl

/-- **The word `or` between two members**, with the blanks around it. -/
theorem Draft.piecesFrom_or (h : ∀ d ∈ cs.head?, isBlank d = false)
    (hps : piecesFrom .tolerant true true (position + 4) cs = .ok ps) :
    piecesFrom .tolerant bounded false position ([' ', 'o', 'r', ' '] ++ cs) =
      .ok (⟨.or, position + 1, "or"⟩ :: ps) := by
  have hor : startsWithOr true ('o' :: 'r' :: ' ' :: cs) = true := rfl
  have htake : ('o' :: 'r' :: ' ' :: cs).takeWhile isBlank = [] := by
    rw [List.takeWhile_cons_of_neg (by decide)]
  have hdrop : ('o' :: 'r' :: ' ' :: cs).dropWhile isBlank = 'o' :: 'r' :: ' ' :: cs := by
    rw [List.dropWhile_cons_of_neg (by decide)]
  change piecesFrom .tolerant bounded false position (' ' :: 'o' :: 'r' :: ' ' :: cs) = _
  rw [piecesFrom, if_pos (by decide), htake, hdrop, if_pos (by simp [hor]), piecesFrom,
    if_neg (by decide), dif_neg (by simp [opensNegated]), dif_neg (by decide), dif_neg (by decide),
    if_pos hor]
  have hword : ('r' :: ' ' :: cs).drop 1 = ' ' :: cs := rfl
  have hblank : byteLength [' '] = 1 := rfl
  rw [hword, piecesFrom_blank_padded h, hblank, hps]
  rfl

end Pieces

namespace Filter

variable {ms : List Term}

theorem chars_ne_nil_of_wellFormed {t : Term} (h : t.WellFormed) : t.chars ≠ [] := by
  obtain ⟨term, -, hframed⟩ := (Term.wellFormed_iff.mp h).1.exists_framed
  obtain ⟨negated, d, rest, hcons, -, -⟩ := hframed.exists_negation t.value.beginsValue_chars
  rw [hcons]
  exact List.append_ne_nil_of_right_ne_nil _ (List.cons_ne_nil d rest)

/-- The canonical text of a term at the start of a text. -/
theorem piecesFrom_term {t : Term} (h : t.WellFormed) {bounded padded : Bool} {position : Nat}
    {after : List Char} {ps : List Piece} (hafter : EndsChunk after)
    (hps : piecesFrom .tolerant false false (position + byteLength t.chars) after = .ok ps) :
    piecesFrom .tolerant bounded padded position (t.chars ++ after) =
      .ok (⟨.chunk, position, t.render⟩ :: ps) := by
  obtain ⟨hkey, hvalue⟩ := Term.wellFormed_iff.mp h
  obtain ⟨term, -, hframed⟩ := hkey.exists_framed
  have hchunk : IsChunk t.chars := hframed.isChunk hvalue.written_chars.isChunk
  exact hchunk.piecesFrom_append (chars_ne_nil_of_wellFormed h) hafter
    (hframed.startsWithOr_eq_false hafter bounded) hps

/-- The members of a group begin with no blank. -/
theorem isBlank_of_mem_memberChars (hne : ms ≠ []) (h : ∀ m ∈ ms, m.WellFormed)
    (after : List Char) : ∀ d ∈ (memberChars ms ++ after).head?, isBlank d = false := by
  obtain ⟨m, rest, rfl⟩ := List.exists_cons_of_ne_nil hne
  have hm : m.WellFormed := h m List.mem_cons_self
  obtain ⟨tail, htail⟩ : ∃ tail, memberChars (m :: rest) ++ after = m.chars ++ tail := by
    rcases rest with _ | ⟨n, rest⟩
    · exact ⟨after, rfl⟩
    · exact ⟨_, by rw [memberChars, List.append_assoc, List.append_assoc]⟩
  rw [htail, List.head?_append_of_ne_nil _ (chars_ne_nil_of_wellFormed hm)]
  exact hm.written_chars.trimmed.head

/-- **The members of a group** are its chunks. -/
theorem piecesFrom_memberChars {bounded : Bool} {position : Nat} (hne : ms ≠ [])
    (h : ∀ m ∈ ms, m.WellFormed) :
    piecesFrom .tolerant bounded true position (memberChars ms ++ [')']) =
      .ok (memberPieces position ms) := by
  have hclose : EndsChunk [')'] := fun d hd => .inr (by simpa using hd.symm)
  induction ms generalizing bounded position with
  | nil => exact absurd rfl hne
  | cons m ms ih =>
    rw [List.forall_mem_cons] at h
    rcases ms with _ | ⟨n, rest⟩
    · exact piecesFrom_term h.1 hclose piecesFrom_close
    · have hblank : EndsChunk ([' ', 'o', 'r', ' '] ++ (memberChars (n :: rest) ++ [')'])) :=
        fun d hd => by
          obtain rfl : ' ' = d := by simpa using hd
          exact .inl (by decide)
      have hrest : piecesFrom .tolerant true true (position + byteLength m.chars + 4)
          (memberChars (n :: rest) ++ [')']) = .ok _ := ih (List.cons_ne_nil n rest) h.2
      have hhead := isBlank_of_mem_memberChars (List.cons_ne_nil n rest) h.2 [')']
      rw [memberChars, List.append_assoc, List.append_assoc]
      exact piecesFrom_term h.1 hblank (piecesFrom_or hhead hrest)

/-- The opening parenthesis of a group, with its mark. -/
theorem piecesFrom_open {negated : Bool} {cs : List Char} {ps : List Piece}
    (hps : piecesFrom .tolerant true true (byteLength (negationChars negated ++ ['('])) cs =
      .ok ps) :
    piecesFrom .tolerant true false 0 (negationChars negated ++ '(' :: cs) =
      .ok (⟨.openGroup, 0, String.ofList (negationChars negated ++ ['('])⟩ :: ps) := by
  cases negated with
  | true =>
    change piecesFrom .tolerant true false 0 ('-' :: '(' :: cs) = _
    change piecesFrom .tolerant true true (0 + 2) cs = _ at hps
    rw [piecesFrom, if_neg (by decide), dif_pos (by rfl), List.drop_one, List.tail_cons, hps]
    rfl
  | false =>
    change piecesFrom .tolerant true false 0 ('(' :: cs) = _
    change piecesFrom .tolerant true true (0 + 1) cs = _ at hps
    rw [piecesFrom, if_neg (by decide), dif_neg (by simp [opensNegated]), dif_pos rfl, hps]
    rfl

/-- A canonical text falls into the pieces that it is put together from. -/
theorem pieces_render_eq {f : Filter} (h : f.WellFormed) : Draft.pieces f.render = f.pieces := by
  have hpieces := piecesFrom_pieces f.render
  rw [render, String.toList_ofList] at hpieces
  refine Except.ok.inj (hpieces.symm.trans ?_)
  cases f with
  | term t =>
    have hterm : piecesFrom .tolerant true false 0 (t.chars ++ []) = .ok [⟨.chunk, 0, t.render⟩] :=
      piecesFrom_term h (by simp [EndsChunk]) (by rw [piecesFrom])
    rwa [List.append_nil] at hterm
  | anyOf negated ms =>
    rw [chars, List.append_assoc, List.cons_append]
    exact piecesFrom_open (piecesFrom_memberChars h.1 h.2)

/-- The chunks of a group are the canonical texts of its members. -/
theorem chunks_memberPieces (position : Nat) (hne : ms ≠ []) :
    ((memberPieces position ms).filter (·.kind == .chunk)).map (·.text) = ms.map Term.render := by
  fun_induction memberPieces position ms with
  | case1 => exact absurd rfl hne
  | case2 => rfl
  | case3 position m n rest ih =>
    rw [List.map_cons, ← ih (List.cons_ne_nil n rest)]
    rfl

theorem chunks_pieces {f : Filter} (h : f.WellFormed) :
    (f.pieces.filter (·.kind == .chunk)).map (·.text) = f.terms.map Term.render := by
  cases f with
  | term t => rfl
  | anyOf negated ms => exact chunks_memberPieces _ h.1

/-- **The canonical text of a term completes to the term.** -/
theorem complete?_render {t : Term} (h : t.WellFormed) :
    (Draft.Term.ofText t.render).complete? = some t := by
  obtain ⟨hkey, hvalue⟩ := Term.wellFormed_iff.mp h
  obtain ⟨term, ht, hframed⟩ := hkey.exists_framed
  rw [Term.render, hframed.complete?_ofText t.value.beginsValue_chars,
    Text.value?_chars_iff.mpr hvalue, Option.map_some, ht]

/-- **What is read while a canonical text is typed**: the text of a well-formed filter falls into
exactly the pieces that it is put together from, and its chunks complete to the terms of the
filter, in order. -/
theorem pieces_render {f : Filter} (h : f.WellFormed) :
    Draft.pieces f.render = f.pieces ∧
      ((Draft.pieces f.render).filter (·.kind == .chunk)).map
          (fun p => (Draft.Term.ofText p.text).complete?) = f.terms.map some := by
  have hpieces := pieces_render_eq h
  refine ⟨hpieces, ?_⟩
  calc ((Draft.pieces f.render).filter (·.kind == .chunk)).map
        (fun p => (Draft.Term.ofText p.text).complete?)
      = ((f.pieces.filter (·.kind == .chunk)).map (·.text)).map
          (fun text => (Draft.Term.ofText text).complete?) := by
        rw [hpieces, List.map_map]
        rfl
    _ = f.terms.map (fun t => (Draft.Term.ofText t.render).complete?) := by
        rw [chunks_pieces h, List.map_map]
        rfl
    _ = f.terms.map some :=
        List.map_congr_left fun t ht => complete?_render (h.of_mem_terms ht)

/-- A negated group whose members hold parentheses, blanks and the word `or`. -/
theorem pieces_render_negated_group :
    let f : Filter := .anyOf true
      [.keyed false "t" .including (.text "a) or (b"), .name true true (.regex "x y")]
    f.WellFormed ∧
      Draft.pieces "-(t:\"a) or (b\" or -!/x y/)" =
        [⟨.openGroup, 0, "-("⟩, ⟨.chunk, 2, "t:\"a) or (b\""⟩, ⟨.or, 15, "or"⟩,
          ⟨.chunk, 18, "-!/x y/"⟩, ⟨.closeGroup, 25, ")"⟩] := by
  intro f
  have hwellFormed : f.WellFormed := by decide +kernel
  have hrender : f.render = "-(t:\"a) or (b\" or -!/x y/)" := by decide +kernel
  refine ⟨hwellFormed, ?_⟩
  rw [← hrender, (pieces_render hwellFormed).1]
  decide +kernel

end Filter

end CardFilter
