import CardFilter.Text.LowerCase

/-!
# Search with case set aside

Typed text is looked for in candidates character by character, where two characters agree if they
have the same small letters. Matches are given in characters, so that they can be highlighted as
they are.
-/

namespace CardFilter

/-- A stretch of a text, counted in characters. -/
structure CharRange where
  /-- The number of characters before the stretch. -/
  start : Nat
  /-- The number of characters up to its end. -/
  stop : Nat
  deriving DecidableEq, Repr, Inhabited

/-- The stretch moved to the right. -/
def CharRange.shift (r : CharRange) (n : Nat) : CharRange :=
  ⟨r.start + n, r.stop + n⟩

/-- The text begins with `needle` when case is set aside. -/
def startsWithIgnoringCase : (needle text : List Char) → Bool
  | [], _ => true
  | _ :: _, [] => false
  | n :: ns, c :: cs => sameLetter c n && startsWithIgnoringCase ns cs

/-- The position of the first match in `text`, counted from `seen`. -/
def firstMatchFrom (needle : List Char) (seen : Nat) : List Char → Option Nat
  | [] => if needle.isEmpty then some seen else none
  | c :: cs =>
    if startsWithIgnoringCase needle (c :: cs) then some seen
    else firstMatchFrom needle (seen + 1) cs

/-- **The first occurrence of `needle` with case set aside.** The empty needle is found at the
start. -/
def findIgnoringCase (text needle : String) : Option CharRange :=
  (firstMatchFrom needle.toList 0 text.toList).map fun start =>
    ⟨start, start + needle.toList.length⟩

/-- The characters of `needle` stand somewhere in `text`, one after the other. -/
def occursInChars (needle : List Char) : List Char → Bool
  | [] => needle.isEmpty
  | c :: cs => needle.isPrefixOf (c :: cs) || occursInChars needle cs

/-- `needle` stands somewhere in `text`, letter for letter. -/
def occursIn (needle text : String) : Bool :=
  occursInChars needle.toList text.toList

/-- The ASCII small letter of every character. -/
def asciiLower (s : String) : List Char :=
  s.toList.map Char.toLower

/-- Two texts agree when the case of ASCII letters is set aside. -/
def sameAsciiIgnoringCase (s t : String) : Bool :=
  asciiLower s == asciiLower t

end CardFilter
