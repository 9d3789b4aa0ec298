import CardFilter.Fault
import CardFilter.Quote
import CardFilter.Text.Blank
import CardFilter.Text.Bytes

/-!
# Pieces of a text that is still being typed

While a text is typed it is split without a look at keys and comparisons: into parentheses, the
word `or`, gaps of blanks, and chunks of anything else. A chunk is a run of characters and quoted
stretches that touch. A gap next to the word `or`, after an opening or before a closing parenthesis
only pads it, and is no piece.

A quote that is opened and not closed runs to the end of the text. The same text can also be split
strictly, and then such a quote is a fault.
-/

namespace CardFilter.Draft

/-- What becomes of a quote that is never closed. -/
inductive Mode
  /-- It is a fault. -/
  | strict
  /-- It runs to the end of the text. -/
  | tolerant
  deriving DecidableEq, Repr

/-- What a piece is. -/
inductive PieceKind
  /-- An opening parenthesis, with the `-` before it if there is one. -/
  | openGroup
  /-- A closing parenthesis. -/
  | closeGroup
  /-- The word `or` between filters. -/
  | or
  /-- Text that is read as a term later. -/
  | chunk
  /-- Blanks that separate two filters. -/
  | gap
  deriving DecidableEq, Repr

/-- A piece of a text. -/
structure Piece where
  /-- What it is. -/
  kind : PieceKind
  /-- The byte position where it starts. -/
  start : Nat
  /-- The text it covers. -/
  text : String
  deriving DecidableEq, Repr

/-- The byte position where the piece ends. -/
def Piece.stop (p : Piece) : Nat :=
  p.start + byteLength p.text.toList

/-- The character is a parenthesis. -/
def isParenthesis (c : Char) : Bool :=
  c == '(' || c == ')'

/-- The text ends here, or goes on with a blank or a parenthesis. -/
def endsWord : List Char → Bool
  | [] => true
  | c :: _ => isBlank c || isParenthesis c

/-- **The word `or` stands here**: its two letters in any case, with nothing but blanks and
parentheses beside them. On the left this is what `bounded` says. -/
def startsWithOr (bounded : Bool) : List Char → Bool
  | o :: r :: rest => bounded && o.toLower == 'o' && r.toLower == 'r' && endsWord rest
  | _ => false

/-- A negated group opens here. -/
def opensNegated : List Char → Bool
  | '-' :: '(' :: _ => true
  | _ => false

/-- The fault of a quote that is never closed. -/
def unclosed : Quote → LexFault
  | .regex => .unclosedRegex
  | _ => .unclosedQuote

/-- **The chunk at the start of a text**, and what follows it. `within` is the quote that is open
at present with the position where it was opened; `fresh` says that nothing unquoted precedes in
the chunk since a quote was closed; `position` is the position reached. -/
def cutChunk (mode : Mode) : (within : Option (Quote × Nat)) → (fresh : Bool) → (position : Nat) →
    List Char → Except LexError (List Char × List Char)
  | some (q, start), _, _, [] =>
    match mode with
    | .strict => .error ⟨unclosed q, start⟩
    | .tolerant => .ok ([], [])
  | none, _, _, [] => .ok ([], [])
  | some (q, start), _, position, c :: rest =>
    match cutChunk mode (if c = q.mark then none else some (q, start)) true
        (position + c.utf8Size) rest with
    | .ok (chunk, after) => .ok (c :: chunk, after)
    | .error e => .error e
  | none, fresh, position, c :: rest =>
    if isBlank c || isParenthesis c || (fresh && opensNegated (c :: rest)) then
      .ok ([], c :: rest)
    else
      match cutChunk mode ((Quote.ofChar? c).map fun q => (q, position)) false
          (position + c.utf8Size) rest with
      | .ok (chunk, after) => .ok (c :: chunk, after)
      | .error e => .error e

theorem length_le_of_cutChunk {mode : Mode} {within : Option (Quote × Nat)} {fresh : Bool}
    {position : Nat} {cs chunk after : List Char}
    (h : cutChunk mode within fresh position cs = .ok (chunk, after)) :
    after.length ≤ cs.length := by
  fun_induction cutChunk mode within fresh position cs generalizing chunk with
  | case1 | case5 | case8 => cases h
  | case2 | case3 | case6 =>
    cases h
    exact Nat.le_refl _
  | case4 | case7 =>
    rename_i hcut ih
    cases h
    exact Nat.le_succ_of_le (ih hcut)

/-- A text that does not begin with a blank, a parenthesis or a negated group begins with a
chunk. -/
theorem length_lt_of_cutChunk {mode : Mode} {position : Nat} {c : Char}
    {rest chunk after : List Char}
    (hstart : (isBlank c || isParenthesis c || opensNegated (c :: rest)) = false)
    (h : cutChunk mode none true position (c :: rest) = .ok (chunk, after)) :
    after.length < (c :: rest).length := by
  rw [cutChunk] at h
  simp only [Bool.true_and, hstart, Bool.false_eq_true, if_false] at h
  split at h
  · rename_i hcut
    cases h
    exact Nat.lt_succ_of_le (length_le_of_cutChunk hcut)
  · cases h

/-- The pieces of a text that starts at the byte position `position`. What comes before it is known
in two respects: `bounded` says that it ends a word, and `padded` that the piece before opens a
group or is the word `or`. -/
def piecesFrom (mode : Mode) (bounded padded : Bool) (position : Nat) :
    List Char → Except LexError (List Piece)
  | [] => .ok []
  | c :: rest =>
    if isBlank c then
      let blanks := c :: rest.takeWhile isBlank
      let after := rest.dropWhile isBlank
      if padded || after.head? == some ')' || startsWithOr true after then
        piecesFrom mode true padded (position + byteLength blanks) after
      else match piecesFrom mode true false (position + byteLength blanks) after with
        | .ok ps => .ok (⟨.gap, position, String.ofList blanks⟩ :: ps)
        | .error e => .error e
    else if _hnegated : opensNegated (c :: rest) then
      match piecesFrom mode true true (position + 2) (rest.drop 1) with
      | .ok ps => .ok (⟨.openGroup, position, "-("⟩ :: ps)
      | .error e => .error e
    else if _hopen : c = '(' then
      match piecesFrom mode true true (position + 1) rest with
      | .ok ps => .ok (⟨.openGroup, position, "("⟩ :: ps)
      | .error e => .error e
    else if _hclose : c = ')' then
      match piecesFrom mode true false (position + 1) rest with
      | .ok ps => .ok (⟨.closeGroup, position, ")"⟩ :: ps)
      | .error e => .error e
    else if startsWithOr bounded (c :: rest) then
      match piecesFrom mode false true (position + 2) (rest.drop 1) with
      | .ok ps => .ok (⟨.or, position, String.ofList (c :: rest.take 1)⟩ :: ps)
      | .error e => .error e
    else match _hchunk : cutChunk mode none true position (c :: rest) with
      | .error e => .error e
      | .ok (chunk, after) =>
        match piecesFrom mode false false (position + byteLength chunk) after with
        | .ok ps => .ok (⟨.chunk, position, String.ofList chunk⟩ :: ps)
        | .error e => .error e
termination_by cs => cs.length
decreasing_by
  · exact Nat.lt_succ_of_le (List.dropWhile_sublist _).length_le
  · exact Nat.lt_succ_of_le (List.dropWhile_sublist _).length_le
  · simp only [List.length_drop, List.length_cons]
    omega
  · simp
  · simp
  · simp only [List.length_drop, List.length_cons]
    omega
  · exact length_lt_of_cutChunk (by simp_all [isParenthesis]) _hchunk

/-- The pieces of a text, or the fault that a quote is never closed. -/
def piecesStrictly (text : String) : Except LexError (List Piece) :=
  piecesFrom .strict true false 0 text.toList

/-- A tolerant split has no faults in a chunk. -/
theorem cutChunk_tolerant_ne_error {within : Option (Quote × Nat)} {fresh : Bool} {position : Nat}
    {cs : List Char} {e : LexError} : cutChunk .tolerant within fresh position cs ≠ .error e := by
  generalize hmode : Mode.tolerant = mode
  fun_induction cutChunk mode within fresh position cs <;> simp_all

/-- **A tolerant split has no faults.** -/
theorem piecesFrom_tolerant_ne_error {bounded padded : Bool} {position : Nat} {cs : List Char}
    {e : LexError} : piecesFrom .tolerant bounded padded position cs ≠ .error e := by
  intro h
  fun_induction piecesFrom .tolerant bounded padded position cs <;> simp_all
  all_goals exact cutChunk_tolerant_ne_error (by assumption)

/-- **The pieces of a text that is being typed.** -/
def pieces (text : String) : List Piece :=
  match h : piecesFrom .tolerant true false 0 text.toList with
  | .ok ps => ps
  | .error _ => absurd h piecesFrom_tolerant_ne_error

end CardFilter.Draft
