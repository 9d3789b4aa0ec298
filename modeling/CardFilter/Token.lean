import CardFilter.Fault
import CardFilter.Quote
import CardFilter.Text.Alphanumeric
import CardFilter.Text.Blank
import CardFilter.Text.Bytes

/-!
# Tokens of a complete filter

The strict reading splits a text into words, quoted texts, regular expressions, comparisons, the
marks `-` and `!`, and groups; a group is one token that holds the text between its parentheses.
Blanks separate tokens and belong to none.

`CardFilter.Token.tokens` gives the tokens of a text. Each knows its kind and where it starts; its
width follows from its kind, because no kind has two spellings of different length.
-/

namespace CardFilter

/-- What a token is. -/
inductive TokenKind
  /-- The text between two quotes. -/
  | quoted (text : String)
  /-- The text between two slashes. -/
  | regex (body : String)
  /-- The text between two parentheses. -/
  | group (body : String)
  /-- Word characters. -/
  | word (text : String)
  /-- The mark `-`. -/
  | minus
  /-- The mark `!`. -/
  | bang
  /-- A comparison. -/
  | comparison (comparison : Comparison)
  deriving DecidableEq, Repr

namespace TokenKind

/-- The number of bytes a token of this kind takes, delimiters included. -/
def width : TokenKind → Nat
  | quoted s | regex s | group s => byteLength s.toList + 2
  | word s => byteLength s.toList
  | minus | bang => 1
  | comparison c => byteLength c.chars

/-- A token in words, for the report that it is out of place. -/
def describe : TokenKind → String
  | quoted s => "quoted text \"" ++ s ++ "\""
  | regex s => "regex /" ++ s ++ "/"
  | group _ => "group"
  | word s => "'" ++ s ++ "'"
  | minus => "'-'"
  | bang => "'!'"
  | comparison c => "'" ++ c.symbol ++ "'"

end TokenKind

/-- A token of a text. -/
structure Token where
  /-- What it is. -/
  kind : TokenKind
  /-- The byte position where it starts. -/
  start : Nat
  deriving DecidableEq, Repr

namespace Token

/-- The byte position where the token ends. -/
def stop (t : Token) : Nat :=
  t.start + t.kind.width

/-- The byte position after the first delimiter. -/
def innerStart (t : Token) : Nat :=
  t.start + 1

/-! ### Splitting a text -/

/-- The characters up to the parenthesis that closes a group, and those after it. What stands
inside quotes is passed over, `within` being the quote that is open at present. The group starts
at `start`, and `seen` is the position reached. -/
def cutGroup (start : Nat) :
    (within : Option Quote) → (seen : Nat) → List Char → Except LexError (List Char × List Char)
  | _, _, [] => .error ⟨.unclosedGroup, start⟩
  | some q, seen, c :: rest =>
    match cutGroup start (if c = q.mark then none else some q) (seen + c.utf8Size) rest with
    | .ok (body, after) => .ok (c :: body, after)
    | .error e => .error e
  | none, seen, c :: rest =>
    if c = ')' then .ok ([], rest)
    else if c = '(' then .error ⟨.nestedGroup, seen⟩
    else match cutGroup start (Quote.ofChar? c) (seen + c.utf8Size) rest with
      | .ok (body, after) => .ok (c :: body, after)
      | .error e => .error e

/-- The token that begins with `c` at the byte position `start`, where `rest` comes after `c`; and
the text after the token. -/
def read (start : Nat) (c : Char) (rest : List Char) : Except LexError (TokenKind × List Char) :=
  if c = '"' ∨ c = '\'' then
    match cutAtMark? c rest with
    | some (body, after) => .ok (.quoted (String.ofList body), after)
    | none => .error ⟨.unclosedQuote, start⟩
  else if c = '/' then
    match cutAtMark? c rest with
    | some (body, after) => .ok (.regex (String.ofList body), after)
    | none => .error ⟨.unclosedRegex, start⟩
  else if c = '(' then
    match cutGroup start none (start + 1) rest with
    | .ok (body, after) => .ok (.group (String.ofList body), after)
    | .error e => .error e
  else if c = ')' then .error ⟨.unmatchedClosing, start⟩
  else if c = '-' then .ok (.minus, rest)
  else match Comparison.read? (c :: rest) with
    | some (comparison, after) => .ok (.comparison comparison, after)
    | none =>
      if c = '!' then .ok (.bang, rest)
      else if isWordChar c then
        .ok (.word (String.ofList (c :: rest.takeWhile isWordChar)), rest.dropWhile isWordChar)
      else .error ⟨.unexpectedCharacter c, start⟩

theorem length_lt_of_cutAtMark? {mark : Char} {cs before after : List Char}
    (h : cutAtMark? mark cs = some (before, after)) : after.length < cs.length := by
  rw [eq_append_of_cutAtMark? h]
  simp
  omega

theorem length_lt_of_cutGroup {start seen : Nat} {within : Option Quote}
    {cs body after : List Char} (h : cutGroup start within seen cs = .ok (body, after)) :
    after.length < cs.length := by
  induction cs generalizing within seen body with
  | nil => cases within <;> cases h
  | cons c rest ih =>
    cases within with
    | some q =>
      rw [cutGroup] at h
      split at h
      · rename_i hcut
        cases h
        exact Nat.lt_succ_of_lt (ih hcut)
      · cases h
    | none =>
      rw [cutGroup] at h
      split at h
      · cases h
        simp
      split at h
      · cases h
      split at h
      · rename_i hcut
        cases h
        exact Nat.lt_succ_of_lt (ih hcut)
      · cases h

/-- What follows a token is no longer than what follows its first character. -/
theorem length_le_of_read {start : Nat} {c : Char} {rest after : List Char} {kind : TokenKind}
    (h : read start c rest = .ok (kind, after)) : after.length ≤ rest.length := by
  unfold read at h
  split at h
  · split at h
    · rename_i hcut
      cases h
      exact Nat.le_of_lt (length_lt_of_cutAtMark? hcut)
    · cases h
  split at h
  · split at h
    · rename_i hcut
      cases h
      exact Nat.le_of_lt (length_lt_of_cutAtMark? hcut)
    · cases h
  split at h
  · split at h
    · rename_i hcut
      cases h
      exact Nat.le_of_lt (length_lt_of_cutGroup hcut)
    · cases h
  split at h
  · cases h
  split at h
  · cases h
    exact Nat.le_refl _
  split at h
  · rename_i hread
    cases h
    exact Nat.le_of_lt_succ (Comparison.length_lt_of_read? hread)
  split at h
  · cases h
    exact Nat.le_refl _
  split at h
  · cases h
    exact (List.dropWhile_sublist _).length_le
  · cases h

/-- The tokens of a text that starts at the byte position `position`. -/
def tokensFrom (position : Nat) : List Char → Except LexError (List Token)
  | [] => .ok []
  | c :: rest =>
    if isBlank c then tokensFrom (position + c.utf8Size) rest
    else match _hread : read position c rest with
      | .error e => .error e
      | .ok (kind, after) =>
        match tokensFrom (position + kind.width) after with
        | .error e => .error e
        | .ok following => .ok (⟨kind, position⟩ :: following)
termination_by cs => cs.length
decreasing_by
  · simp
  · exact Nat.lt_succ_of_le (length_le_of_read _hread)

/-- **The tokens of a text**, or the first fault in it. -/
def tokens (text : String) : Except LexError (List Token) :=
  tokensFrom 0 text.toList

end Token

end CardFilter
