import CardFilter.Toml.Moment

/-!
# Tokens of a TOML document

A settings file is a TOML document. This file splits one into tokens: marks, line ends, words and
texts. Texts come in four spellings, between double or single quotes and on one line or several,
and the tokens hold what they stand for. Comments and blanks leave no token.

Words are what stands without quotes: keys, truth values, numbers, days and times. A dot between
two characters of a word is part of it, as the same characters can be a decimal number or a key
with a dot; every other dot is a mark. A day and a time may be one word with a blank in it.
-/

namespace CardFilter.Toml

/-- A token of a document. -/
inductive Token
  /-- The mark `[`. -/
  | openBracket
  /-- The mark `]`. -/
  | closeBracket
  /-- The mark `{`. -/
  | openBrace
  /-- The mark `}`. -/
  | closeBrace
  /-- The mark `=`. -/
  | equals
  /-- The mark `,`. -/
  | comma
  /-- The mark `.`, where it is not within a word. -/
  | dot
  /-- The end of a line. -/
  | newline
  /-- Letters, digits, underscores, signs and colons, with dots between them. -/
  | word (chars : List Char)
  /-- A text, written on several lines or not. -/
  | text (content : List Char) (multiline : Bool)
  deriving DecidableEq, Repr

/-- A character of a word: an ASCII letter or digit, an underscore, a sign or a colon. -/
def isWordMark (c : Char) : Bool :=
  c.isAlphanum || c == '_' || c == '-' || c == '+' || c == ':'

/-- A character that may not stand in a document as it is. -/
def isControl (c : Char) : Bool :=
  (c.toNat < 0x20 && c != '\t') || c.toNat == 0x7F

/-- A blank within a line. -/
def isSpace (c : Char) : Bool :=
  c == ' ' || c == '\t'

/-- The number that the first `n` characters write in hexadecimal, added to `acc`, and the
characters after them. -/
def readHex? : (n acc : Nat) → List Char → Option (Nat × List Char)
  | 0, acc, cs => some (acc, cs)
  | _ + 1, _, [] => none
  | n + 1, acc, c :: cs =>
    match hexDigit? c with
    | some d => readHex? n (acc * 16 + d) cs
    | none => none

/-- The character with a code point, if there is one. -/
def charOfCode? (n : Nat) : Option Char :=
  if n < 0xD800 ∨ (0xDFFF < n ∧ n ≤ 0x10FFFF) then some (Char.ofNat n) else none

/-- The character that an escape of `digits` hexadecimal digits stands for. -/
def readCode? (digits : Nat) (cs : List Char) : Option (Char × List Char) :=
  match readHex? digits 0 cs with
  | some (n, rest) => (charOfCode? n).map fun c => (c, rest)
  | none => none

/-- The character that an escape stands for, the backslash being passed. -/
def readEscape? : List Char → Option (Char × List Char)
  | 'b' :: rest => some ('\x08', rest)
  | 't' :: rest => some ('\t', rest)
  | 'n' :: rest => some ('\n', rest)
  | 'f' :: rest => some ('\x0c', rest)
  | 'r' :: rest => some ('\r', rest)
  | 'e' :: rest => some ('\x1b', rest)
  | '"' :: rest => some ('"', rest)
  | '\\' :: rest => some ('\\', rest)
  | 'x' :: rest => readCode? 2 rest
  | 'u' :: rest => readCode? 4 rest
  | 'U' :: rest => readCode? 8 rest
  | _ => none

theorem length_le_of_readHex? {n acc m : Nat} {cs rest : List Char}
    (h : readHex? n acc cs = some (m, rest)) : rest.length ≤ cs.length := by
  fun_induction readHex? n acc cs with
  | case1 => cases h; exact Nat.le_refl _
  | case2 | case4 => cases h
  | case3 _ _ _ _ _ _ ih => exact Nat.le_succ_of_le (ih h)

theorem length_le_of_readCode? {digits : Nat} {c : Char} {cs rest : List Char}
    (h : readCode? digits cs = some (c, rest)) : rest.length ≤ cs.length := by
  unfold readCode? at h
  split at h
  · rename_i hhex
    obtain ⟨_, _, heq⟩ := Option.map_eq_some_iff.1 h
    obtain ⟨_, rfl⟩ := Prod.mk.inj heq
    exact length_le_of_readHex? hhex
  · cases h

theorem length_lt_of_readEscape? {c : Char} {cs rest : List Char}
    (h : readEscape? cs = some (c, rest)) : rest.length < cs.length := by
  unfold readEscape? at h
  split at h
  any_goals
    obtain ⟨_, rfl⟩ := Prod.mk.inj (Option.some.inj h)
    exact Nat.lt_succ_self _
  any_goals exact Nat.lt_succ_of_le (length_le_of_readCode? h)
  cases h

/-- What follows the blanks and line ends at the start. -/
def skipBlankLines : List Char → List Char
  | '\r' :: '\n' :: rest => skipBlankLines rest
  | c :: rest => if isSpace c || c == '\n' then skipBlankLines rest else c :: rest
  | [] => []

theorem length_skipBlankLines_le (cs : List Char) : (skipBlankLines cs).length ≤ cs.length := by
  fun_induction skipBlankLines cs <;> simp_all <;> omega

/-- A backslash here joins the line with the next one: only blanks stand between it and the line
end. The rest begins after the line end and the blanks and line ends that follow. -/
def joinLines? (cs : List Char) : Option (List Char) :=
  match cs.dropWhile isSpace with
  | '\n' :: rest => some (skipBlankLines rest)
  | '\r' :: '\n' :: rest => some (skipBlankLines rest)
  | _ => none

theorem length_lt_of_joinLines? {cs rest : List Char} (h : joinLines? cs = some rest) :
    rest.length < cs.length := by
  unfold joinLines? at h
  have hdrop : (cs.dropWhile isSpace).length ≤ cs.length := (List.dropWhile_sublist _).length_le
  split at h
  · rename_i heq
    cases h
    rw [heq] at hdrop
    exact Nat.lt_of_lt_of_le (Nat.lt_succ_of_le (length_skipBlankLines_le _)) hdrop
  · rename_i heq
    cases h
    rw [heq] at hdrop
    simp only [List.length_cons] at hdrop
    have := length_skipBlankLines_le ‹List Char›
    omega
  · cases h

/-- One more character in front of what was read. -/
def putFront (c : Char) : Option (List Char × List Char) → Option (List Char × List Char)
  | some (content, rest) => some (c :: content, rest)
  | none => none

/-- The content of a text between double quotes on one line, and what follows it. -/
def readBasic? : List Char → Option (List Char × List Char)
  | [] => none
  | '"' :: rest => some ([], rest)
  | '\\' :: rest =>
    match _h : readEscape? rest with
    | some (c, after) => putFront c (readBasic? after)
    | none => none
  | c :: rest => if isControl c then none else putFront c (readBasic? rest)
termination_by cs => cs.length
decreasing_by
  · exact Nat.lt_succ_of_lt (length_lt_of_readEscape? _h)
  · exact Nat.lt_succ_self _

/-- The content of a text between single quotes on one line, and what follows it. -/
def readLiteral? : List Char → Option (List Char × List Char)
  | [] => none
  | '\'' :: rest => some ([], rest)
  | c :: rest => if isControl c then none else putFront c (readLiteral? rest)

/-- Where a text on several lines is closed: three of its quotes, and before them up to two more
that belong to it. Gives those two and what follows. -/
def closeMultiline? (quote : Char) : List Char → Option (List Char × List Char)
  | a :: b :: c :: rest =>
    if a = quote ∧ b = quote ∧ c = quote then
      match rest with
      | d :: e :: rest' =>
        if d = quote ∧ e = quote then some ([quote, quote], rest')
        else if d = quote then some ([quote], e :: rest')
        else some ([], rest)
      | [d] => if d = quote then some ([quote], []) else some ([], rest)
      | [] => some ([], [])
    else none
  | _ => none

/-- The content of a text between threefold double quotes, and what follows it. -/
def readMultilineBasic? : List Char → Option (List Char × List Char)
  | [] => none
  | '\r' :: '\n' :: rest => putFront '\r' (putFront '\n' (readMultilineBasic? rest))
  | '\\' :: rest =>
    match _h : joinLines? rest with
    | some after => readMultilineBasic? after
    | none =>
      match _h : readEscape? rest with
      | some (c, after) => putFront c (readMultilineBasic? after)
      | none => none
  | c :: rest =>
    match closeMultiline? '"' (c :: rest) with
    | some closed => some closed
    | none => if isControl c && c != '\n' then none else putFront c (readMultilineBasic? rest)
termination_by cs => cs.length
decreasing_by
  · simp only [List.length_cons]
    omega
  · exact Nat.lt_succ_of_lt (length_lt_of_joinLines? _h)
  · exact Nat.lt_succ_of_lt (length_lt_of_readEscape? _h)
  · exact Nat.lt_succ_self _

/-- The content of a text between threefold single quotes, and what follows it. -/
def readMultilineLiteral? : List Char → Option (List Char × List Char)
  | [] => none
  | '\r' :: '\n' :: rest => putFront '\r' (putFront '\n' (readMultilineLiteral? rest))
  | c :: rest =>
    match closeMultiline? '\'' (c :: rest) with
    | some closed => some closed
    | none => if isControl c && c != '\n' then none else putFront c (readMultilineLiteral? rest)

/-- A line end directly after the opening quotes is not part of the text. -/
def skipFirstLineEnd : List Char → List Char
  | '\n' :: rest => rest
  | '\r' :: '\n' :: rest => rest
  | cs => cs

/-- What follows a comment on its line; nothing if it holds a control character. -/
def skipComment? : List Char → Option (List Char)
  | [] => some []
  | '\n' :: rest => some ('\n' :: rest)
  | '\r' :: '\n' :: rest => some ('\r' :: '\n' :: rest)
  | c :: rest => if isControl c then none else skipComment? rest

/-- The mark that a character is. -/
def mark? : Char → Option Token
  | '[' => some .openBracket
  | ']' => some .closeBracket
  | '{' => some .openBrace
  | '}' => some .closeBrace
  | '=' => some .equals
  | ',' => some .comma
  | '.' => some .dot
  | _ => none

/-- The characters of a word at the start, and what follows them. A dot is among them if one of the
others follows it. -/
def takeWord : List Char → List Char × List Char
  | [] => ([], [])
  | '.' :: c :: rest =>
    if isWordMark c then
      match takeWord rest with
      | (cs, after) => ('.' :: c :: cs, after)
    else ([], '.' :: c :: rest)
  | c :: rest =>
    if isWordMark c then
      match takeWord rest with
      | (cs, after) => (c :: cs, after)
    else ([], c :: rest)

/-- The word at the start, and what follows it. After a day with one blank behind it, a digit
begins a time that belongs to the word. -/
def readWord (cs : List Char) : List Char × List Char :=
  match takeWord cs with
  | (day, ' ' :: c :: rest) =>
    if isDay day && c.isDigit then
      match takeWord (c :: rest) with
      | (time, after) => (day ++ ' ' :: time, after)
    else (day, ' ' :: c :: rest)
  | (word, after) => (word, after)

/-- A text token, and what follows it. -/
def asText (multiline : Bool) :
    Option (List Char × List Char) → Option (Option Token × List Char)
  | some (content, rest) => some (some (.text content multiline), rest)
  | none => none

/-- The token at the start, unless a blank or a comment stands there, and what follows. -/
def read? : List Char → Option (Option Token × List Char)
  | [] => none
  | '\n' :: rest => some (some .newline, rest)
  | '\r' :: '\n' :: rest => some (some .newline, rest)
  | '#' :: rest => (skipComment? rest).map fun after => (none, after)
  | '"' :: '"' :: '"' :: rest => asText true (readMultilineBasic? (skipFirstLineEnd rest))
  | '\'' :: '\'' :: '\'' :: rest => asText true (readMultilineLiteral? (skipFirstLineEnd rest))
  | '"' :: rest => asText false (readBasic? rest)
  | '\'' :: rest => asText false (readLiteral? rest)
  | c :: rest =>
    if isSpace c then some (none, rest)
    else match mark? c with
      | some t => some (some t, rest)
      | none =>
        if isWordMark c then
          match readWord (c :: rest) with
          | (word, after) => some (some (.word word), after)
        else none

/-! ### What follows is shorter -/

theorem of_putFront {c : Char} {r : Option (List Char × List Char)} {content rest : List Char}
    (h : putFront c r = some (content, rest)) : ∃ before, r = some (before, rest) := by
  unfold putFront at h
  split at h
  · cases h
    exact ⟨_, rfl⟩
  · cases h

theorem length_lt_of_readBasic? {cs content rest : List Char}
    (h : readBasic? cs = some (content, rest)) : rest.length < cs.length := by
  fun_induction readBasic? cs generalizing content with
  | case1 | case4 | case5 => cases h
  | case2 => cases h; exact Nat.lt_succ_self _
  | case3 _ _ _ hescape ih =>
    obtain ⟨_, hread⟩ := of_putFront h
    have := length_lt_of_readEscape? hescape
    have := ih hread
    simp only [List.length_cons]
    omega
  | case6 _ _ _ _ _ ih =>
    obtain ⟨_, hread⟩ := of_putFront h
    exact Nat.lt_succ_of_lt (ih hread)

theorem length_lt_of_readLiteral? {cs content rest : List Char}
    (h : readLiteral? cs = some (content, rest)) : rest.length < cs.length := by
  fun_induction readLiteral? cs generalizing content with
  | case1 | case3 => cases h
  | case2 => cases h; exact Nat.lt_succ_self _
  | case4 _ _ _ _ ih =>
    obtain ⟨_, hread⟩ := of_putFront h
    exact Nat.lt_succ_of_lt (ih hread)

theorem length_lt_of_closeMultiline? {quote : Char} {cs extra rest : List Char}
    (h : closeMultiline? quote cs = some (extra, rest)) : rest.length < cs.length := by
  unfold closeMultiline? at h
  repeat' split at h
  all_goals cases h
  all_goals simp
  all_goals omega

theorem length_lt_of_readMultilineBasic? {cs content rest : List Char}
    (h : readMultilineBasic? cs = some (content, rest)) : rest.length < cs.length := by
  fun_induction readMultilineBasic? cs generalizing content with
  | case1 | case5 | case7 => cases h
  | case2 _ ih =>
    obtain ⟨_, h⟩ := of_putFront h
    obtain ⟨_, hread⟩ := of_putFront h
    have := ih hread
    simp only [List.length_cons]
    omega
  | case3 _ _ hjoin ih =>
    have := length_lt_of_joinLines? hjoin
    have := ih h
    simp only [List.length_cons]
    omega
  | case4 _ _ _ _ hescape ih =>
    obtain ⟨_, hread⟩ := of_putFront h
    have := length_lt_of_readEscape? hescape
    have := ih hread
    simp only [List.length_cons]
    omega
  | case6 _ _ _ _ _ hclose => cases h; exact length_lt_of_closeMultiline? hclose
  | case8 _ _ _ _ _ _ ih =>
    obtain ⟨_, hread⟩ := of_putFront h
    exact Nat.lt_succ_of_lt (ih hread)

theorem length_lt_of_readMultilineLiteral? {cs content rest : List Char}
    (h : readMultilineLiteral? cs = some (content, rest)) : rest.length < cs.length := by
  fun_induction readMultilineLiteral? cs generalizing content with
  | case1 | case4 => cases h
  | case2 _ ih =>
    obtain ⟨_, h⟩ := of_putFront h
    obtain ⟨_, hread⟩ := of_putFront h
    have := ih hread
    simp only [List.length_cons]
    omega
  | case3 _ _ _ _ hclose => cases h; exact length_lt_of_closeMultiline? hclose
  | case5 _ _ _ _ _ ih =>
    obtain ⟨_, hread⟩ := of_putFront h
    exact Nat.lt_succ_of_lt (ih hread)

theorem length_skipFirstLineEnd_le (cs : List Char) :
    (skipFirstLineEnd cs).length ≤ cs.length := by
  unfold skipFirstLineEnd
  split
  · exact Nat.le_succ _
  · exact Nat.le_add_right _ 2
  · exact Nat.le_refl _

theorem length_le_of_skipComment? {cs rest : List Char} (h : skipComment? cs = some rest) :
    rest.length ≤ cs.length := by
  fun_induction skipComment? cs with
  | case1 | case2 | case3 => cases h; exact Nat.le_refl _
  | case4 => cases h
  | case5 _ _ _ _ _ ih => exact Nat.le_succ_of_le (ih h)

theorem of_asText {multiline : Bool} {r : Option (List Char × List Char)} {t : Option Token}
    {rest : List Char} (h : asText multiline r = some (t, rest)) :
    ∃ content, r = some (content, rest) := by
  unfold asText at h
  split at h
  · cases h
    exact ⟨_, rfl⟩
  · cases h

theorem length_takeWord_le (cs : List Char) : (takeWord cs).2.length ≤ cs.length := by
  fun_induction takeWord cs with
  | case1 => exact Nat.le_refl _
  | case2 _ _ _ _ _ heq ih =>
    rw [heq] at ih
    exact Nat.le_succ_of_le (Nat.le_succ_of_le ih)
  | case3 => exact Nat.le_refl _
  | case4 _ _ _ _ _ _ heq ih =>
    rw [heq] at ih
    exact Nat.le_succ_of_le ih
  | case5 => exact Nat.le_refl _

theorem length_takeWord_cons_lt {c : Char} (h : isWordMark c) (rest : List Char) :
    (takeWord (c :: rest)).2.length < (c :: rest).length := by
  unfold takeWord
  split
  · rename_i heq
    cases heq
  · rename_i heq
    cases heq
    exact absurd h (by decide)
  · rename_i heq
    cases heq
    rw [if_pos h]
    exact Nat.lt_succ_of_le (length_takeWord_le rest)

theorem length_readWord_cons_lt {c : Char} (h : isWordMark c) (rest : List Char) :
    (readWord (c :: rest)).2.length < (c :: rest).length := by
  have hlt := length_takeWord_cons_lt h rest
  unfold readWord
  split
  · rename_i heq
    rw [heq] at hlt
    split
    · have := length_takeWord_le (‹Char› :: ‹List Char›)
      simp only [List.length_cons] at *
      omega
    · exact hlt
  · rename_i heq
    rw [heq] at hlt
    exact hlt

theorem length_lt_of_read? {cs rest : List Char} {t : Option Token}
    (h : read? cs = some (t, rest)) : rest.length < cs.length := by
  unfold read? at h
  split at h
  · cases h
  · cases h; exact Nat.lt_succ_self _
  · cases h; exact Nat.lt_succ_of_lt (Nat.lt_succ_self _)
  · obtain ⟨_, hskip, heq⟩ := Option.map_eq_some_iff.1 h
    cases heq
    exact Nat.lt_succ_of_le (length_le_of_skipComment? hskip)
  · obtain ⟨_, hread⟩ := of_asText h
    refine Nat.lt_of_lt_of_le (length_lt_of_readMultilineBasic? hread)
      (Nat.le_trans (length_skipFirstLineEnd_le _) ?_)
    simp only [List.length_cons]
    omega
  · obtain ⟨_, hread⟩ := of_asText h
    refine Nat.lt_of_lt_of_le (length_lt_of_readMultilineLiteral? hread)
      (Nat.le_trans (length_skipFirstLineEnd_le _) ?_)
    simp only [List.length_cons]
    omega
  · obtain ⟨_, hread⟩ := of_asText h
    exact Nat.lt_succ_of_lt (length_lt_of_readBasic? hread)
  · obtain ⟨_, hread⟩ := of_asText h
    exact Nat.lt_succ_of_lt (length_lt_of_readLiteral? hread)
  · split at h
    · cases h; exact Nat.lt_succ_self _
    split at h
    · cases h; exact Nat.lt_succ_self _
    split at h
    · rename_i hmark
      cases h
      exact length_readWord_cons_lt hmark _
    · cases h

/-- **The tokens of a document**; nothing if some part of it makes no token. -/
def tokens? (cs : List Char) : Option (List Token) :=
  if cs.isEmpty then some []
  else match _h : read? cs with
    | some (some t, rest) => (tokens? rest).map (t :: ·)
    | some (none, rest) => tokens? rest
    | none => none
termination_by cs.length
decreasing_by all_goals exact length_lt_of_read? _h

end CardFilter.Toml
