/-!
# JSON for reading

Reports can be printed as JSON. An item of a list and a field of an object take a line each, two
spaces deeper than what holds them, and a list or an object that holds nothing is written in one
piece.
-/

namespace CardFilter

/-- A JSON value, where numbers count things. -/
inductive JsonValue
  /-- Nothing. -/
  | null
  /-- A truth value. -/
  | boolean (value : Bool)
  /-- A number. -/
  | number (value : Nat)
  /-- A text. -/
  | text (content : String)
  /-- A list. -/
  | array (items : List JsonValue)
  /-- An object, its fields in the order in which they are written. -/
  | object (fields : List (String × JsonValue))
  deriving Repr, Inhabited

namespace JsonValue

/-- A text, or nothing. -/
def ofText? : Option String → JsonValue
  | some s => text s
  | none => null

/-- One character of a text. Quotes, backslashes and controls are escaped. -/
def escapedChar (c : Char) : List Char :=
  match c with
  | '"' => ['\\', '"']
  | '\\' => ['\\', '\\']
  | '\x08' => ['\\', 'b']
  | '\t' => ['\\', 't']
  | '\n' => ['\\', 'n']
  | '\x0c' => ['\\', 'f']
  | '\r' => ['\\', 'r']
  | _ =>
    if c.toNat < 0x20 then
      let digits := Nat.toDigits 16 c.toNat
      ['\\', 'u'] ++ List.replicate (4 - digits.length) '0' ++ digits
    else [c]

/-- A text between quotes. -/
def writeText (s : String) : String :=
  String.ofList ('"' :: s.toList.flatMap escapedChar ++ ['"'])

/-- The start of a line at the given depth. -/
def lineStart (depth : Nat) : String :=
  "\n" ++ String.ofList (List.replicate (2 * depth) ' ')

/-- What stands between two marks: each part on a line of its own. -/
def block (opening closing : String) (depth : Nat) : List String → String
  | [] => opening ++ closing
  | parts =>
    opening ++ ",".intercalate (parts.map fun part => lineStart (depth + 1) ++ part)
      ++ lineStart depth ++ closing

mutual

/-- A value at the given depth. -/
def writeAt (depth : Nat) : JsonValue → String
  | null => "null"
  | boolean b => if b then "true" else "false"
  | number n => Nat.repr n
  | text s => writeText s
  | array items => block "[" "]" depth (writeItems (depth + 1) items)
  | object fields => block "\x7b" "\x7d" depth (writeFields (depth + 1) fields)

/-- The items of a list. -/
def writeItems (depth : Nat) : List JsonValue → List String
  | [] => []
  | v :: rest => writeAt depth v :: writeItems depth rest

/-- The fields of an object. -/
def writeFields (depth : Nat) : List (String × JsonValue) → List String
  | [] => []
  | (key, v) :: rest => (writeText key ++ ": " ++ writeAt depth v) :: writeFields depth rest

end

/-- **The value as it is printed.** -/
def pretty (v : JsonValue) : String :=
  writeAt 0 v

end JsonValue

end CardFilter
