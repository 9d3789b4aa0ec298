import CardFilter.Proofs.PieceSlices
import CardFilter.Proofs.TokenSlices

/-!
# Drafts, outcomes and repairs in slices

What is done with the text of a search box takes slices of three kinds: the text of a piece is
what stands between its positions; a term is taken apart at the end of its key, behind its
comparison and at its quotes; and the repair takes the stretches of stranded gaps out of the
text, the last one first, and moves the two positions of the selection by what was taken out
before them.

* That the text of a piece is there is a fact about all pieces of a text: they stand in it one
  after another (`CardFilter.Draft.Laid`), so each lies between two borders, and the earlier ends
  before the later begins.
* That the stretches of the gaps are there when their turn comes follows from their order: what
  is taken out stands to the right of the gaps that are still to come, and leaves them where they
  were (`CardFilter.Draft.foldrM_takeOut?_eq`).
-/

namespace CardFilter.Draft

/-! ### The places of pieces -/

/-- **The pieces stand in the text** one after another, each with its text at its position. The
text starts at the byte position `position`. -/
inductive Laid : (position : Nat) → List Char → List Piece → Prop
  /-- There are no further pieces. -/
  | nil {position : Nat} {cs : List Char} : Laid position cs []
  /-- A piece stands behind some characters that belong to none. -/
  | cons {position : Nat} {lead after : List Char} {p : Piece} {ps : List Piece} :
    p.start = position + byteLength lead → Laid p.stop after ps →
    Laid position (lead ++ (p.text.toList ++ after)) (p :: ps)

section Laid

variable {mode : Mode} {bounded padded : Bool} {position : Nat} {lead cs chunk after : List Char}
  {p : Piece} {ps : List Piece}

/-- Characters before the pieces belong to none. -/
theorem Laid.append (h : Laid (position + byteLength lead) cs ps) :
    Laid position (lead ++ cs) ps := by
  cases h with
  | nil => exact .nil
  | @cons _ front after p ps hstart hps =>
    rw [← List.append_assoc]
    refine .cons ?_ hps
    rw [hstart, byteLength_append, Nat.add_assoc]

/-- A piece at the very start. -/
theorem Laid.cons_of_eq {kind : PieceKind} {text : String} (htext : text.toList = lead)
    (h : Laid (position + byteLength lead) after ps) :
    Laid position (lead ++ after) (⟨kind, position, text⟩ :: ps) := by
  subst htext
  exact @Laid.cons position [] after ⟨kind, position, text⟩ ps rfl h

/-- What is cut off as a chunk and what follows are the text. -/
theorem eq_append_of_cutChunk {within : Option (Quote × Nat)} {fresh : Bool}
    (h : cutChunk mode within fresh position cs = .ok (chunk, after)) : cs = chunk ++ after := by
  fun_induction cutChunk mode within fresh position cs generalizing chunk with
  | case1 | case5 | case8 => cases h
  | case2 | case3 | case6 =>
    cases h
    rfl
  | case4 | case7 =>
    rename_i hcut ih
    cases h
    rw [ih hcut]
    rfl

/-- **What the reader of pieces does next**: it passes some characters, and they become a piece or
belong to none; or the chunk that begins here is at fault. -/
theorem piecesFrom_cases (mode : Mode) (bounded padded : Bool) (position : Nat) (c : Char)
    (rest : List Char) :
    (∃ e, cutChunk mode none true position (c :: rest) = .error e ∧
      piecesFrom mode bounded padded position (c :: rest) = .error e) ∨
    ∃ lead after bounded' padded', c :: rest = lead ++ after ∧ after.length < (c :: rest).length ∧
      (piecesFrom mode bounded padded position (c :: rest) =
        piecesFrom mode bounded' padded' (position + byteLength lead) after ∨
      ∃ kind text, text.toList = lead ∧ piecesFrom mode bounded padded position (c :: rest) =
        (piecesFrom mode bounded' padded' (position + byteLength lead) after).map
          (⟨kind, position, text⟩ :: ·)) := by
  rw [piecesFrom_cons]
  split
  · have hsplit : c :: rest = (c :: rest.takeWhile isBlank) ++ rest.dropWhile isBlank := by simp
    have hlength := Nat.lt_succ_of_le (List.dropWhile_sublist (p := isBlank) (l := rest)).length_le
    simp only
    split
    · exact .inr ⟨_, _, _, _, hsplit, hlength, .inl rfl⟩
    · exact .inr ⟨_, _, _, _, hsplit, hlength, .inr ⟨_, _, String.toList_ofList, rfl⟩⟩
  rename_i hblank
  split
  · rename_i hnegated
    obtain ⟨tail, hsplit⟩ := opensNegated_eq_true_iff.mp hnegated
    obtain ⟨rfl, rfl⟩ := List.cons.inj hsplit
    exact .inr ⟨['-', '('], tail, _, _, rfl, Nat.lt_add_of_pos_right Nat.two_pos,
      .inr ⟨_, _, rfl, rfl⟩⟩
  rename_i hnegated
  split
  · rename_i hopen
    subst hopen
    exact .inr ⟨['('], rest, _, _, rfl, by simp, .inr ⟨_, _, rfl, rfl⟩⟩
  rename_i hopen
  split
  · rename_i hclose
    subst hclose
    exact .inr ⟨[')'], rest, _, _, rfl, by simp, .inr ⟨_, _, rfl, rfl⟩⟩
  rename_i hclose
  split
  · rename_i hor
    obtain ⟨word, after, hsplit, hword⟩ := exists_word_of_startsWithOr hor
    have hlength := byteLength_of_isOrWord hword
    obtain ⟨o, r, rfl, -, -⟩ := isOrWord_iff.mp hword
    obtain ⟨rfl, rfl⟩ := List.cons.inj hsplit
    rw [← hlength]
    exact .inr ⟨[c, r], after, _, _, rfl, Nat.lt_add_of_pos_right Nat.two_pos,
      .inr ⟨_, _, String.toList_ofList, rfl⟩⟩
  · rcases hcut : cutChunk mode none true position (c :: rest) with e | ⟨chunk, after⟩
    · exact .inl ⟨e, rfl, rfl⟩
    · have hlength := length_lt_of_cutChunk
        (by simp [isParenthesis, hblank, hnegated, hopen, hclose]) hcut
      exact .inr ⟨chunk, after, _, _, eq_append_of_cutChunk hcut, hlength,
        .inr ⟨_, _, String.toList_ofList, rfl⟩⟩

/-- **Induction over the reading of pieces**: what holds of an empty text and of a chunk at fault,
and is kept when some characters before the text are passed, holds of every reading. -/
theorem piecesFrom_induction {motive : Nat → List Char → Except LexError (List Piece) → Prop}
    (nil : ∀ position, motive position [] (.ok []))
    (fault : ∀ position cs e, cutChunk mode none true position cs = .error e →
      motive position cs (.error e))
    (pass : ∀ position lead after x, motive (position + byteLength lead) after x →
      motive position (lead ++ after) x)
    (piece : ∀ position lead after kind text x, text.toList = lead →
      motive (position + byteLength lead) after x →
      motive position (lead ++ after) (x.map (⟨kind, position, text⟩ :: ·)))
    (bounded padded : Bool) (position : Nat) (cs : List Char) :
    motive position cs (piecesFrom mode bounded padded position cs) := by
  induction hlength : cs.length using Nat.strong_induction_on
    generalizing bounded padded position cs with
  | _ n ih =>
  rcases cs with _ | ⟨c, rest⟩
  · rw [piecesFrom]
    exact nil position
  rcases piecesFrom_cases mode bounded padded position c rest with
    ⟨e, hcut, hpieces⟩ | ⟨lead, after, bounded', padded', hsplit, hshorter, hpieces⟩
  · rw [hpieces]
    exact fault position _ e hcut
  have hafter := ih after.length (hlength ▸ hshorter) bounded' padded'
    (position + byteLength lead) after rfl
  rcases hpieces with hpieces | ⟨kind, text, htext, hpieces⟩
  · rw [hpieces, hsplit]
    exact pass position lead after _ hafter
  · rw [hpieces, hsplit]
    exact piece position lead after kind text _ htext hafter

/-- **The pieces that are read** stand in the text. -/
theorem laid_of_piecesFrom (h : piecesFrom mode bounded padded position cs = .ok ps) :
    Laid position cs ps := by
  refine piecesFrom_induction
    (motive := fun position cs x => ∀ ps, x = .ok ps → Laid position cs ps)
    ?nil ?fault ?pass ?piece bounded padded position cs ps h
  case nil =>
    rintro position ps ⟨⟩
    exact .nil
  case fault =>
    rintro position cs e - ps ⟨⟩
  case pass =>
    exact fun position lead after x hafter ps hx => (hafter ps hx).append
  case piece =>
    rintro position lead after kind text (_ | qs) htext hafter ps ⟨⟩
    exact .cons_of_eq htext (hafter qs rfl)

/-- **A piece stands in the text** at its position. -/
theorem Laid.exists_append (h : Laid position cs ps) (hp : p ∈ ps) :
    ∃ before after, cs = before ++ (p.text.toList ++ after) ∧
      p.start = position + byteLength before := by
  induction h with
  | nil => cases hp
  | @cons position lead after q qs hstart _ ih =>
    rcases List.mem_cons.mp hp with rfl | hp
    · exact ⟨lead, after, rfl, hstart⟩
    · obtain ⟨before, rear, rfl, hposition⟩ := ih hp
      refine ⟨lead ++ (q.text.toList ++ before), rear, by simp, ?_⟩
      rw [hposition, Piece.stop, hstart, byteLength_append, byteLength_append]
      omega

/-- **The pieces come in order** and do not overlap. -/
theorem Laid.pairwise (h : Laid position cs ps) : ps.Pairwise fun p q => p.stop ≤ q.start := by
  induction h with
  | nil => exact .nil
  | cons _ hps ih =>
    refine .cons (fun q hq => ?_) ih
    obtain ⟨before, -, -, hposition⟩ := hps.exists_append hq
    omega

theorem laid_pieces (text : String) : Laid 0 text.toList (pieces text) :=
  laid_of_piecesFrom (piecesFrom_pieces text)

/-- **The text of a piece** is what stands between its positions. -/
theorem text?_stretch (h : Laid 0 cs ps) (hp : p ∈ ps) :
    p.stretch.text? cs = some p.text.toList := by
  obtain ⟨before, after, rfl, hstart⟩ := h.exists_append hp
  rw [Nat.zero_add] at hstart
  rw [Stretch.text?, Piece.stretch, Piece.stop, hstart, textBetween?_append]

end Laid

/-! ### Terms -/

/-- The state of the quotes of a text. -/
def Text.ofCharsInBytes? (cs : List Char) : Option Text :=
  match cs.head?.bind Quote.ofChar? with
  | none => some (bare (String.ofList cs))
  | some q => do
    let body ← textFrom? 1 cs
    match findByte? (· == q.mark) body with
    | none => some (unterminated q (String.ofList body))
    | some close =>
      if close + 1 = byteLength body then do
        let inner ← textUpTo? close body
        some (balanced q (String.ofList inner))
      else some (bare (String.ofList cs))

namespace Term

/-- The operator and the value behind a key. -/
def readValueInBytes? (key : List Char) (after : List Char) : Option (Option Content) :=
  match Comparison.read? after with
  | some (c, _) => do
    let value ← textFrom? (byteLength c.chars) after
    let text ← Text.ofCharsInBytes? value
    some (some (.keyed (lowercase (String.ofList key)) (.complete c) text))
  | none =>
    match after with
    | '!' :: value => do
      let text ← Text.ofCharsInBytes? value
      some (some (.keyed (lowercase (String.ofList key)) .bang text))
    | _ => some none

/-- The key, operator and value that a text begins with. -/
def readKeyedInBytes? (cs : List Char) : Option (Option Content) :=
  let keyLength := (findByte? (fun c => !isWordChar c) cs).getD (byteLength cs)
  if keyLength = 0 then some none
  else do
    let (key, after) ← cutAtByte? keyLength cs
    match Vocabulary.standard.lookupIgnoringCase? (String.ofList key) with
    | none => some none
    | some _ => readValueInBytes? key after

/-- What a text is after its negation mark. -/
def readContentInBytes? (cs : List Char) : Option Content :=
  match cs with
  | '!' :: name => do
    let text ← Text.ofCharsInBytes? name
    some (.name true text)
  | _ => do
    match ← readKeyedInBytes? cs with
    | some content => some content
    | none => do
      let text ← Text.ofCharsInBytes? cs
      some (.name false text)

/-- The draft term that a text writes. -/
def ofTextInBytes? (text : String) : Option Term :=
  match text.toList with
  | '-' :: rest => do
    let content ← readContentInBytes? rest
    some ⟨true, content, text⟩
  | cs => do
    let content ← readContentInBytes? cs
    some ⟨false, content, text⟩

end Term

section Terms

variable {cs key after : List Char} {text : String}

/-- **The quotes in slices.** -/
theorem Text.ofCharsInBytes?_eq (cs : List Char) : ofCharsInBytes? cs = some (ofChars cs) := by
  rcases cs with _ | ⟨c, body⟩
  · rfl
  rw [ofCharsInBytes?, ofChars]
  cases hquote : Quote.ofChar? c with
  | none => simp [hquote]
  | some q =>
    obtain rfl := Quote.eq_mark_of_ofChar? hquote
    have hbody : textFrom? 1 (q.mark :: body) = some body := by
      rw [textFrom?_eq_some_iff]
      exact ⟨[q.mark], rfl, by simp [utf8Size_mark]⟩
    simp only [List.head?_cons, Option.bind_some, hquote, Option.bind_eq_bind, hbody,
      findByte?_mark]
    rcases hmark : cutAtMark? q.mark body with _ | ⟨before, after⟩
    · rfl
    · obtain rfl := eq_append_of_cutAtMark? hmark
      have hlength : byteLength (before ++ q.mark :: after) =
          byteLength before + 1 + byteLength after := by
        rw [byteLength_append, byteLength_cons, utf8Size_mark, Nat.add_assoc]
      rcases after with _ | ⟨d, after⟩
      · simp [hlength]
      · have hpos : 0 < byteLength (d :: after) := byteLength_pos (List.cons_ne_nil _ _)
        simp only [Option.map_some]
        rw [if_neg (by omega)]

theorem Term.readValueInBytes?_eq (key after : List Char) :
    readValueInBytes? key after = some ((readOperator? after).map fun (operator, value) =>
      .keyed (lowercase (String.ofList key)) operator (Text.ofChars value)) := by
  unfold readValueInBytes? readOperator?
  rcases hread : Comparison.read? after with _ | ⟨c, value⟩
  · simp only
    split <;> simp [Text.ofCharsInBytes?_eq]
  · rw [Comparison.eq_append_of_read? hread]
    simp [Text.ofCharsInBytes?_eq]

/-- **Key, operator and value in slices.** -/
theorem Term.readKeyedInBytes?_eq (cs : List Char) :
    readKeyedInBytes? cs = some (readKeyed? cs) := by
  have hclass : (fun c => !!isWordChar c) = isWordChar := funext fun c => Bool.not_not _
  have hlength : (findByte? (fun c => !isWordChar c) cs).getD (byteLength cs) =
      byteLength (cs.takeWhile isWordChar) := by
    rw [findByte?_getD, hclass]
  have hcut : cutAtByte? (byteLength (cs.takeWhile isWordChar)) cs =
      some (cs.takeWhile isWordChar, cs.dropWhile isWordChar) :=
    cutAtByte?_eq_some_iff.mpr ⟨List.takeWhile_append_dropWhile.symm, rfl⟩
  rw [readKeyedInBytes?, readKeyed?, hlength]
  simp only [String.toList_ofList]
  by_cases hkey : cs.takeWhile isWordChar = []
  · simp [hkey]
  · have hpos := byteLength_pos hkey
    rw [if_neg (by omega), if_neg (by simpa using hkey), hcut]
    simp only [Option.bind_eq_bind, Option.bind_some, readValueInBytes?_eq]
    cases Vocabulary.standard.lookupIgnoringCase? (String.ofList (cs.takeWhile isWordChar)) <;> rfl

theorem Term.readContentInBytes?_eq (cs : List Char) :
    readContentInBytes? cs = some (readContent cs) := by
  unfold readContentInBytes? readContent
  split
  · simp [Text.ofCharsInBytes?_eq]
  · rw [readKeyedInBytes?_eq]
    cases readKeyed? cs <;> simp [Text.ofCharsInBytes?_eq]

/-- **A term in slices.** -/
theorem Term.ofTextInBytes?_eq (text : String) : ofTextInBytes? text = some (ofText text) := by
  unfold ofTextInBytes? ofText
  generalize text.toList = cs
  split <;> simp [readContentInBytes?_eq]

end Terms

/-! ### Search boxes -/

/-- The pieces of a text that is being typed, by their positions. A tolerant scan has no faults;
if it had, there would be no pieces. -/
def stretches? (text : List Char) : Option (List Stretch) := do
  match ← scan? .tolerant text with
  | .ok found => some found
  | .error _ => some []

theorem stretches?_eq (text : String) :
    stretches? text.toList = some ((pieces text).map Piece.stretch) := by
  rw [stretches?, scan?_eq, piecesFrom_pieces]
  rfl

/-- The draft term under a cursor. -/
def Term.atCursorInBytes? (text : String) (position : Nat) : Option Term := do
  let found ← stretches? text.toList
  match found.find? fun s => s.kind == .chunk && s.start ≤ position && position ≤ s.stop with
  | some s => do
    let chunk ← s.text? text.toList
    ofTextInBytes? (String.ofList chunk)
  | none => ofTextInBytes? ""

/-- **The term under a cursor in slices**, wherever the cursor is. -/
theorem Term.atCursorInBytes?_eq (text : String) (position : Nat) :
    atCursorInBytes? text position = some (atCursor text position) := by
  rw [atCursorInBytes?, atCursor, stretches?_eq]
  simp only [Option.bind_eq_bind, Option.bind_some, List.find?_map]
  change (match Option.map Piece.stretch ((pieces text).find? fun p =>
    p.kind == .chunk && p.start ≤ position && position ≤ p.stop) with
    | some s => _ | none => _) = _
  cases hfind : (pieces text).find? fun p =>
      p.kind == .chunk && p.start ≤ position && position ≤ p.stop with
  | none => exact ofTextInBytes?_eq ""
  | some p =>
    have hp := List.mem_of_find?_eq_some hfind
    simp only [Option.map_some, text?_stretch (laid_pieces text) hp, Option.bind_some,
      String.ofList_toList]
    exact ofTextInBytes?_eq p.text

end CardFilter.Draft

namespace CardFilter.Outcome

open Draft

/-- The text begins with a group. -/
def startsGroupInBytes? (text : String) : Option Bool := do
  match ← stretches? text.toList with
  | s :: _ => some (s.kind == .openGroup)
  | [] => some false

/-- What becomes of a text that has no blanks around it. -/
def ofTrimmedInBytes? (text : String) : Option Outcome :=
  if text.toList.isEmpty then some empty
  else do
    if ← startsGroupInBytes? text then
      match ← Filter.parseInBytes? .standard text with
      | .ok f => some (valid f)
      | .error _ => some (fallback (.nameSearch text))
    else
      let draft ← Draft.Term.ofTextInBytes? text
      match draft.complete? with
      | some t => some (valid (.term t))
      | none =>
        match draft.completeClosing? with
        | some t => some (autoTerminated (.term t))
        | none => some (fallback (.nameSearch text))

/-- What becomes of a text. -/
def ofTextInBytes? (text : String) : Option Outcome :=
  ofTrimmedInBytes? (trim text)

theorem startsGroupInBytes?_eq (text : String) :
    startsGroupInBytes? text = some (startsGroup text) := by
  rw [startsGroupInBytes?, startsGroup, stretches?_eq]
  cases pieces text <;> rfl

/-- **What becomes of a text, in slices.** -/
theorem ofTextInBytes?_eq (text : String) : ofTextInBytes? text = some (ofText text) := by
  rw [ofTextInBytes?, ofText]
  generalize trim text = text
  rw [ofTrimmedInBytes?, ofTrimmed]
  split
  · rfl
  rw [startsGroupInBytes?_eq]
  simp only [Option.bind_eq_bind, Option.bind_some]
  split
  · rw [Filter.parseInBytes?_eq, Filter.parse]
    cases Filter.parseWith .standard text <;> rfl
  · rw [Draft.Term.ofTextInBytes?_eq]
    simp only [Option.bind_some]
    cases (Draft.Term.ofText text).complete? <;>
      cases (Draft.Term.ofText text).completeClosing? <;> rfl

end CardFilter.Outcome
