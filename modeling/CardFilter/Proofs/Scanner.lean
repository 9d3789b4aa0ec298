import CardFilter.Draft.Piece
import CardFilter.Filter
import CardFilter.Proofs.Slices

/-!
# A scanner for drafts

The text that is being typed is scanned from a position on: every step looks at the rest of the
text, finds the next place of interest in it by its byte position, and moves there. A piece is a
pair of positions, and a piece that continues the chunk before it is joined to it. This file has
the scanner (`CardFilter.Draft.Scanner.run?`), in which every slice can fail.

A scan ends because every step moves to the right, and stays within the text
(`CardFilter.Draft.Scanner.position_lt_of_step?`). What a step finds is said in the file that
compares the scanner with the reader of pieces.
-/

namespace CardFilter.Draft

/-! ### The scanner -/

/-- A piece as two byte positions. -/
structure Stretch where
  /-- What it is. -/
  kind : PieceKind
  /-- The byte position where it starts. -/
  start : Nat
  /-- The byte position where it ends. -/
  stop : Nat
  deriving DecidableEq, Repr

/-- The positions of a piece. -/
def Piece.stretch (p : Piece) : Stretch :=
  ⟨p.kind, p.start, p.stop⟩

/-- The text that stands between the positions. -/
def Stretch.text? (s : Stretch) (text : List Char) : Option (List Char) :=
  textBetween? s.start s.stop text

/-- The state of the scanner. -/
structure Scanner where
  /-- The byte position that is reached. -/
  position : Nat
  /-- The pieces that are found, the last one first. -/
  found : List Stretch
  deriving DecidableEq, Repr

/-- The character ends a run of plain characters. -/
def isBoundary (c : Char) : Bool :=
  isBlank c || isParenthesis c || (Quote.ofChar? c).isSome

/-- The word `or` stands at the byte position, with nothing but blanks and parentheses beside
it. -/
def startsWithOrInBytes? (text : List Char) (position : Nat) : Option Bool := do
  let rest ← textFrom? position text
  match textUpTo? 2 rest with
  | none => some false
  | some word =>
    if Value.isOrWord (String.ofList word) then do
      let after ← textFrom? 2 rest
      let before ← textUpTo? position text
      some (endsWord before.reverse && endsWord after)
    else some false

/-- What stands at the byte position takes in the blanks before it. -/
def takesBlanks? (text : List Char) (position : Nat) : Option Bool := do
  let rest ← textFrom? position text
  if rest.head? == some ')' then some true else startsWithOrInBytes? text position

namespace Scanner

/-- The last piece opens a group or is the word `or`. -/
def isPadded (s : Scanner) : Bool :=
  match s.found with
  | last :: _ => last.kind == .openGroup || last.kind == .or
  | [] => false

/-- The last piece is a chunk that ends here. -/
def isInChunk (s : Scanner) : Bool :=
  match s.found with
  | last :: _ => last.kind == .chunk && last.stop == s.position
  | [] => false

/-- The state after a piece that ends at `stop`; a chunk is joined to the chunk that ends here. -/
def push (s : Scanner) (kind : PieceKind) (stop : Nat) : Scanner :=
  match s.found with
  | last :: older =>
    if kind == .chunk && last.kind == .chunk && last.stop == s.position then
      ⟨stop, ⟨.chunk, last.start, stop⟩ :: older⟩
    else ⟨stop, ⟨kind, s.position, stop⟩ :: last :: older⟩
  | [] => ⟨stop, [⟨kind, s.position, stop⟩]⟩

/-- The state after the blanks that begin here. -/
def passBlanks? (text : List Char) (s : Scanner) : Option Scanner := do
  let rest ← textFrom? s.position text
  let stop := s.position + (findByte? (fun c => !isBlank c) rest).getD (byteLength rest)
  let taken ← takesBlanks? text stop
  some (if s.isPadded || taken then ⟨stop, s.found⟩ else s.push .gap stop)

/-- The state after the quoted stretch that begins here. -/
def passQuoted? (mode : Mode) (text : List Char) (s : Scanner) (q : Quote) :
    Option (Except LexError Scanner) := do
  let rest ← textFrom? s.position text
  let body ← textFrom? 1 rest
  match findByte? (· == q.mark) body with
  | some close => some (.ok (s.push .chunk (s.position + 1 + close + 1)))
  | none =>
    match mode with
    | .tolerant => some (.ok (s.push .chunk (byteLength text)))
    | .strict => some (.error ⟨unclosed q, s.position⟩)

/-- One step of the scanner, where the rest of the text is `c` and what follows it. -/
def step? (mode : Mode) (text : List Char) (s : Scanner) (c : Char) (rest : List Char) :
    Option (Except LexError Scanner) :=
  if isBlank c then (s.passBlanks? text).map .ok
  else if opensNegated (c :: rest) then some (.ok (s.push .openGroup (s.position + 2)))
  else if c = '(' then some (.ok (s.push .openGroup (s.position + 1)))
  else if c = ')' then some (.ok (s.push .closeGroup (s.position + 1)))
  else (startsWithOrInBytes? text s.position).bind fun isOr =>
    if isOr then some (.ok (s.push .or (s.position + 2)))
    else match Quote.ofChar? c with
      | some q => s.passQuoted? mode text q
      | none =>
        let run := (findByte? isBoundary (c :: rest)).getD (byteLength (c :: rest))
        some (.ok (s.push .chunk (s.position + run)))

@[simp] theorem position_push (s : Scanner) (kind : PieceKind) (stop : Nat) :
    (s.push kind stop).position = stop := by
  unfold push
  split
  · split <;> rfl
  · rfl

section Progress

variable {mode : Mode} {text rest : List Char} {s s' : Scanner} {c : Char}

/-- A run that begins here is not empty. -/
theorem lt_add_run {p : Char → Bool} (n : Nat) (hc : p c = false) :
    n < n + (findByte? p (c :: rest)).getD (byteLength (c :: rest)) := by
  have hpos := c.utf8Size_pos
  rw [findByte?_getD, List.takeWhile_cons_of_pos (by simp [hc]), byteLength_cons]
  omega

theorem position_lt_of_passBlanks? (hrest : textFrom? s.position text = some (c :: rest))
    (hc : isBlank c = true) (h : s.passBlanks? text = some s') : s.position < s'.position := by
  simp only [passBlanks?, hrest, Option.bind_eq_bind, Option.bind_some,
    Option.bind_eq_some_iff] at h
  obtain ⟨taken, -, heq⟩ := h
  have hlt : s.position < s.position + (findByte? (fun c => !isBlank c) (c :: rest)).getD _ :=
    lt_add_run s.position (by simpa using hc)
  cases heq
  split
  · exact hlt
  · rwa [position_push]

theorem position_lt_of_passQuoted? {q : Quote}
    (hrest : textFrom? s.position text = some (c :: rest))
    (h : s.passQuoted? mode text q = some (.ok s')) : s.position < s'.position := by
  simp only [passQuoted?, hrest, Option.bind_eq_bind, Option.bind_some,
    Option.bind_eq_some_iff] at h
  obtain ⟨body, -, h⟩ := h
  split at h
  · cases h
    rw [position_push]
    omega
  split at h
  · obtain ⟨before, rfl, hlength⟩ := textFrom?_eq_some_iff.mp hrest
    have hpos := c.utf8Size_pos
    cases h
    rw [position_push, byteLength_append, byteLength_cons]
    omega
  · cases h

/-- **A step moves to the right.** -/
theorem position_lt_of_step? (hrest : textFrom? s.position text = some (c :: rest))
    (h : s.step? mode text c rest = some (.ok s')) : s.position < s'.position := by
  have hpush : ∀ {kind n}, 0 < n → s.position < (s.push kind (s.position + n)).position := by
    intro kind n hn
    rw [position_push]
    omega
  rw [step?] at h
  split at h
  · rename_i hblank
    obtain ⟨s', hpass, heq⟩ := Option.map_eq_some_iff.mp h
    cases heq
    exact position_lt_of_passBlanks? hrest hblank hpass
  rename_i hblank
  split at h
  · cases h
    exact hpush (by decide)
  split at h
  · cases h
    exact hpush (by decide)
  rename_i hopen
  split at h
  · cases h
    exact hpush (by decide)
  rename_i hclose
  obtain ⟨isOr, -, h⟩ := Option.bind_eq_some_iff.mp h
  split at h
  · cases h
    exact hpush (by decide)
  split at h
  · exact position_lt_of_passQuoted? hrest h
  · rename_i hquote
    have hboundary : isBoundary c = false := by
      simp [isBoundary, isParenthesis, hquote, hblank, hopen, hclose]
    cases h
    rw [position_push]
    exact lt_add_run s.position hboundary

end Progress

/-- The pieces that the scanner finds from here on, after those that it has found. -/
def run? (mode : Mode) (text : List Char) (s : Scanner) :
    Option (Except LexError (List Stretch)) :=
  match _hrest : textFrom? s.position text with
  | none => none
  | some [] => some (.ok s.found.reverse)
  | some (c :: rest) =>
    match _hstep : s.step? mode text c rest with
    | none => none
    | some (.error e) => some (.error e)
    | some (.ok s') => run? mode text s'
termination_by byteLength text - s.position
decreasing_by
  have hlt := position_lt_of_step? _hrest _hstep
  obtain ⟨before, rfl, hlength⟩ := textFrom?_eq_some_iff.mp _hrest
  have hpos := c.utf8Size_pos
  rw [byteLength_append, byteLength_cons]
  omega

end Scanner

/-- The pieces of a text, by their positions. -/
def scan? (mode : Mode) (text : List Char) : Option (Except LexError (List Stretch)) :=
  Scanner.run? mode text ⟨0, []⟩

/-! ### Runs of the scanner -/

section Run

variable {before rest : List Char} {c : Char} {mode : Mode} {position start : Nat}
  {s s' : Scanner} {older : List Stretch}

/-- At the end of the text the scanner stops. -/
theorem run?_end (hposition : s.position = byteLength before) :
    Scanner.run? mode before s = some (.ok s.found.reverse) := by
  have hrest : textFrom? s.position before = some [] := by
    rw [hposition, textFrom?_eq_some_iff]
    exact ⟨before, (List.append_nil _).symm, rfl⟩
  rw [Scanner.run?]
  split <;> simp_all

/-- Before the end it takes a step and goes on from there. -/
theorem run?_cons (hposition : s.position = byteLength before) :
    Scanner.run? mode (before ++ c :: rest) s =
      (s.step? mode (before ++ c :: rest) c rest).bind fun
        | .error e => some (.error e)
        | .ok s' => Scanner.run? mode (before ++ c :: rest) s' := by
  have hrest : textFrom? s.position (before ++ c :: rest) = some (c :: rest) := by
    rw [hposition, textFrom?_append]
  rw [Scanner.run?]
  split
  · simp_all
  · simp_all
  · rename_i hfrom
    rw [hrest] at hfrom
    cases hfrom
    split <;> simp_all

theorem run?_of_step?_ok (hposition : s.position = byteLength before)
    (hstep : s.step? mode (before ++ c :: rest) c rest = some (.ok s')) :
    Scanner.run? mode (before ++ c :: rest) s = Scanner.run? mode (before ++ c :: rest) s' := by
  rw [run?_cons hposition, hstep]
  rfl

theorem run?_of_step?_error {e : LexError} (hposition : s.position = byteLength before)
    (hstep : s.step? mode (before ++ c :: rest) c rest = some (.error e)) :
    Scanner.run? mode (before ++ c :: rest) s = some (.error e) := by
  rw [run?_cons hposition, hstep]
  rfl

/-- Inside a chunk another part of it is joined. -/
theorem push_chunk {stop : Nat} :
    (⟨position, ⟨.chunk, start, position⟩ :: older⟩ : Scanner).push .chunk stop =
      ⟨stop, ⟨.chunk, start, stop⟩ :: older⟩ := by
  simp [Scanner.push]

/-- Elsewhere a piece is added. -/
theorem push_eq {kind : PieceKind} {stop : Nat} (h : kind = .chunk → s.isInChunk = false) :
    s.push kind stop = ⟨stop, ⟨kind, s.position, stop⟩ :: s.found⟩ := by
  obtain ⟨position, _ | ⟨last, older⟩⟩ := s
  · rfl
  · rw [Scanner.push]
    refine if_neg fun hjoin => ?_
    simp only [Bool.and_eq_true, beq_iff_eq] at hjoin
    have hapart := h hjoin.1.1
    simp [Scanner.isInChunk, hjoin] at hapart

/-- Behind the last piece no chunk is continued. -/
theorem isInChunk_eq_false (h : ∀ last ∈ s.found.head?, last.stop < s.position) :
    s.isInChunk = false := by
  obtain ⟨position, _ | ⟨last, older⟩⟩ := s
  · rfl
  · have hlt : last.stop < position := h last rfl
    simp [Scanner.isInChunk, Nat.ne_of_lt hlt]

end Run

end CardFilter.Draft
