import CardFilter.Text.Ranges

/-!
# Blank characters

Filters are separated by blanks, and text is trimmed of them before it is read. A blank is a
character with the Unicode property `White_Space`; there are twenty-five of them.
-/

namespace CardFilter

/-- The blank characters, as closed ranges of code points. -/
def blankRanges : List (Nat × Nat) := [
  (0x9, 0xD), (0x20, 0x20), (0x85, 0x85), (0xA0, 0xA0), (0x1680, 0x1680), (0x2000, 0x200A),
  (0x2028, 0x2029), (0x202F, 0x202F), (0x205F, 0x205F), (0x3000, 0x3000)]

/-- The character is blank. -/
def isBlank (c : Char) : Bool :=
  inRanges blankRanges c.toNat

/-- The characters without the blanks at either end. -/
def trimChars (cs : List Char) : List Char :=
  ((cs.dropWhile isBlank).reverse.dropWhile isBlank).reverse

/-- **The text without the blanks at either end.** -/
def trim (s : String) : String :=
  String.ofList (trimChars s.toList)

/-- The text without the blanks at its end. -/
def trimEnd (s : String) : String :=
  String.ofList (s.toList.reverse.dropWhile isBlank).reverse

end CardFilter
