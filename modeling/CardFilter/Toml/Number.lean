/-!
# Numbers of a TOML document

An integer is written in decimal digits, or, behind the mark of a base, in hexadecimal, octal or
binary ones. A decimal number has a fraction, an exponent or both, and infinity and what is no
number count as decimal numbers too. Within a run of digits an underscore may stand between two.

No setting is a decimal number. `CardFilter.Toml.isDecimal` therefore tells only whether one is
well written, while `CardFilter.Toml.integerValue?` gives the integer.
-/

namespace CardFilter.Toml

/-! ### Digits -/

/-- The value of a hexadecimal digit. -/
def hexDigit? (c : Char) : Option Nat :=
  if '0' ≤ c ∧ c ≤ '9' then some (c.toNat - '0'.toNat)
  else if 'a' ≤ c ∧ c ≤ 'f' then some (c.toNat - 'a'.toNat + 10)
  else if 'A' ≤ c ∧ c ≤ 'F' then some (c.toNat - 'A'.toNat + 10)
  else none

/-- The value of a digit in the given base. -/
def digit? (base : Nat) (c : Char) : Option Nat :=
  match hexDigit? c with
  | some d => if d < base then some d else none
  | none => none

/-- The number that digits write, added to `acc`. An underscore may stand between two digits;
`afterDigit` says that a digit precedes. -/
def digitsValue? (base : Nat) : (afterDigit : Bool) → (acc : Nat) → List Char → Option Nat
  | afterDigit, acc, [] => if afterDigit then some acc else none
  | afterDigit, acc, c :: rest =>
    if c = '_' then (if afterDigit then digitsValue? base false acc rest else none)
    else match digit? base c with
      | some d => digitsValue? base true (acc * base + d) rest
      | none => none

/-- The number that decimal digits write; no zero leads. -/
def decimalValue? (cs : List Char) : Option Nat :=
  match cs with
  | '0' :: _ :: _ => none
  | _ => digitsValue? 10 false 0 cs

/-- Decimal digits, with leading zeros or not. -/
def areDigits (cs : List Char) : Bool :=
  (digitsValue? 10 false 0 cs).isSome

/-! ### Integers -/

/-- **The integer that a word writes.** -/
def integerValue? (cs : List Char) : Option Int :=
  match cs with
  | '0' :: 'x' :: rest => (digitsValue? 16 false 0 rest).map Int.ofNat
  | '0' :: 'o' :: rest => (digitsValue? 8 false 0 rest).map Int.ofNat
  | '0' :: 'b' :: rest => (digitsValue? 2 false 0 rest).map Int.ofNat
  | '+' :: rest => (decimalValue? rest).map Int.ofNat
  | '-' :: rest => (decimalValue? rest).map fun n => -Int.ofNat n
  | _ => (decimalValue? cs).map Int.ofNat

/-- The mark of a base with no digits behind it. A document may hold one, but it writes no number
and so it can be no setting. -/
def isBareBase (cs : List Char) : Bool :=
  cs == ['0', 'x'] || cs == ['0', 'o'] || cs == ['0', 'b']

/-! ### Decimal numbers -/

/-- A character of a run of decimal digits. -/
def isRunMark (c : Char) : Bool :=
  c.isDigit || c == '_'

/-- An exponent: its letter, a sign or none, and digits. -/
def isExponent : List Char → Bool
  | e :: sign :: rest =>
    (e == 'e' || e == 'E')
      && (if sign = '+' ∨ sign = '-' then areDigits rest else areDigits (sign :: rest))
  | _ => false

/-- A decimal number without a sign: digits, then a fraction, an exponent or both. -/
def isUnsignedDecimal (cs : List Char) : Bool :=
  (decimalValue? (cs.takeWhile isRunMark)).isSome
    && match cs.dropWhile isRunMark with
      | '.' :: rest =>
        areDigits (rest.takeWhile isRunMark)
          && (let after := rest.dropWhile isRunMark
            after.isEmpty || isExponent after)
      | rest => isExponent rest

/-- Infinity, or what is no number. -/
def isUnbounded (cs : List Char) : Bool :=
  cs == ['i', 'n', 'f'] || cs == ['n', 'a', 'n']

/-- **The word is a decimal number.** -/
def isDecimal (cs : List Char) : Bool :=
  let unsigned := match cs with
    | '+' :: rest | '-' :: rest => rest
    | _ => cs
  isUnsignedDecimal unsigned || isUnbounded unsigned

end CardFilter.Toml
