import CardFilter.Text.Printable

/-!
# Texts shown between quotes

Structure listings show texts between double quotes, so that every character can be told. Quotes
and backslashes get a backslash, the common controls get their letter, and whatever does not show
on its own is written as its code point in hexadecimal.
-/

namespace CardFilter

/-- The code point in hexadecimal between braces. -/
def codePointEscape (c : Char) : List Char :=
  ['\\', 'u', '\x7b'] ++ Nat.toDigits 16 c.toNat ++ ['\x7d']

/-- One character as it is shown between quotes. -/
def shownChar (c : Char) : List Char :=
  match c with
  | '"' => ['\\', '"']
  | '\\' => ['\\', '\\']
  | '\n' => ['\\', 'n']
  | '\r' => ['\\', 'r']
  | '\t' => ['\\', 't']
  | '\x00' => ['\\', '0']
  | _ => if isExtending c || !isPrintable c then codePointEscape c else [c]

/-- **The text between quotes.** -/
def quoted (s : String) : String :=
  String.ofList ('"' :: s.toList.flatMap shownChar ++ ['"'])

end CardFilter
