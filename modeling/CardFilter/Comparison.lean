/-!
# Comparisons

A keyed filter compares a property of a card with a value. There are seven comparisons; this file
gives their symbols and reads the longest one at the start of a text.
-/

namespace CardFilter

/-- How the value of a keyed filter is compared with the card. -/
inductive Comparison
  /-- The property includes the value, `:`. -/
  | including
  /-- The property equals the value, `=`. -/
  | equal
  /-- The property differs from the value, `!=`. -/
  | notEqual
  /-- The property is less than the value, `<`. -/
  | less
  /-- The property is at most the value, `<=`. -/
  | lessOrEqual
  /-- The property is greater than the value, `>`. -/
  | greater
  /-- The property is at least the value, `>=`. -/
  | greaterOrEqual
  deriving DecidableEq, Repr, Inhabited

namespace Comparison

/-- Every comparison, in the order in which they are listed and offered. -/
def all : List Comparison :=
  [including, equal, notEqual, less, lessOrEqual, greater, greaterOrEqual]

/-- The characters of the symbol. -/
def chars : Comparison → List Char
  | including => [':']
  | equal => ['=']
  | notEqual => ['!', '=']
  | less => ['<']
  | lessOrEqual => ['<', '=']
  | greater => ['>']
  | greaterOrEqual => ['>', '=']

/-- The symbol. -/
def symbol (c : Comparison) : String :=
  String.ofList c.chars

/-- **The longest symbol at the start of a text**, with the text after it. -/
def read? : List Char → Option (Comparison × List Char)
  | '<' :: '=' :: rest => some (lessOrEqual, rest)
  | '>' :: '=' :: rest => some (greaterOrEqual, rest)
  | '!' :: '=' :: rest => some (notEqual, rest)
  | '<' :: rest => some (less, rest)
  | '>' :: rest => some (greater, rest)
  | '=' :: rest => some (equal, rest)
  | ':' :: rest => some (including, rest)
  | _ => none

/-- The comparison is one of the two that every key accepts. -/
def isEquality : Comparison → Bool
  | including | equal => true
  | _ => false

/-- A symbol is read as itself, and nothing before it is passed over. -/
theorem eq_append_of_read? {cs rest : List Char} {c : Comparison}
    (h : read? cs = some (c, rest)) : cs = c.chars ++ rest := by
  unfold read? at h
  split at h <;> simp_all [chars] <;> obtain ⟨rfl, rfl⟩ := h <;> rfl

theorem length_lt_of_read? {cs rest : List Char} {c : Comparison}
    (h : read? cs = some (c, rest)) : rest.length < cs.length := by
  have hchars : 0 < c.chars.length := by cases c <;> decide
  rw [eq_append_of_read? h, List.length_append]
  omega

end Comparison

end CardFilter
