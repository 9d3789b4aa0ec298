import CardFilter.Toml.Token

/-!
# How settings are written

A text is written in the plainest style that shows it: between double quotes as it stands, between
single quotes, over several lines, and with escapes only where nothing else is left. Lists of more
than one text take a line for each, and so does every setting of a section.
-/

namespace CardFilter.Toml

/-! ### Styles of texts -/

/-- How a text is written. -/
inductive TextStyle
  /-- Between double quotes, with escapes. -/
  | escaped
  /-- Between single quotes, as it stands. -/
  | verbatim
  /-- Between triple double quotes, with escapes, line ends being kept. -/
  | escapedLines
  /-- Between triple single quotes, as it stands. -/
  | verbatimLines
  deriving DecidableEq, Repr

/-- The length of the longest run of `q`, where a run of length `before` stands before the text. -/
def longestRunFrom (q : Char) (before : Nat) : List Char → Nat
  | [] => before
  | c :: rest =>
    if c = q then longestRunFrom q (before + 1) rest else max before (longestRunFrom q 0 rest)

/-- The length of the longest run of `q`. -/
def longestRun (q : Char) (cs : List Char) : Nat :=
  longestRunFrom q 0 cs

/-- **The plainest style that shows the text.** -/
def styleOf (cs : List Char) : TextStyle :=
  let controls := cs.any fun c => isControl c && c != '\n'
  let lineEnds := cs.contains '\n'
  let backslashes := cs.contains '\\'
  if !controls && !backslashes && !lineEnds && longestRun '"' cs = 0 then .escaped
  else if !controls && !lineEnds && longestRun '\'' cs = 0 then .verbatim
  else if !controls && !backslashes && longestRun '"' cs ≤ 2 then .escapedLines
  else if !controls && longestRun '\'' cs ≤ 2 then .verbatimLines
  else if lineEnds then .escapedLines
  else .escaped

/-- The style keeps line ends as they stand. -/
def TextStyle.keepsLines : TextStyle → Bool
  | escaped | verbatim => false
  | escapedLines | verbatimLines => true

/-- The marks around a text. -/
def TextStyle.delimiter : TextStyle → List Char
  | escaped => ['"']
  | verbatim => ['\'']
  | escapedLines => ['"', '"', '"']
  | verbatimLines => ['\'', '\'', '\'']

/-! ### Escapes -/

/-- The upper-case form of a hexadecimal digit. -/
def upperDigit (c : Char) : Char :=
  if 'a' ≤ c ∧ c ≤ 'f' then Char.ofNat (c.toNat - 32) else c

/-- A code point of at most four digits in hexadecimal. -/
def codeEscape (c : Char) : List Char :=
  let digits := (Nat.toDigits 16 c.toNat).map upperDigit
  ['\\', 'u'] ++ List.replicate (4 - digits.length) '0' ++ digits

/-- The escape of a character other than a quote, if it must have one. -/
def escape? (keepsLines : Bool) (c : Char) : Option (List Char) :=
  match c with
  | '\x08' => some ['\\', 'b']
  | '\t' => some ['\\', 't']
  | '\n' => if keepsLines then none else some ['\\', 'n']
  | '\x0c' => some ['\\', 'f']
  | '\r' => some ['\\', 'r']
  | '\\' => some ['\\', '\\']
  | _ => if isControl c then some (codeEscape c) else none

/-- A text with escapes, after a run of `quotes` double quotes. Of a run, two quotes can stand as
they are where line ends can, and none elsewhere. -/
def escapeFrom (keepsLines : Bool) (quotes : Nat) : List Char → List Char
  | [] => []
  | c :: rest =>
    if c = '"' then
      if quotes < (if keepsLines then 2 else 0) then
        '"' :: escapeFrom keepsLines (quotes + 1) rest
      else ['\\', '"'] ++ escapeFrom keepsLines 0 rest
    else (escape? keepsLines c).getD [c] ++ escapeFrom keepsLines 0 rest

/-- A text in the given style. -/
def writeIn (style : TextStyle) (cs : List Char) : List Char :=
  let opening := style.delimiter ++ if style.keepsLines && cs.contains '\n' then ['\n'] else []
  let content := match style with
    | .escaped => escapeFrom false 0 cs
    | .escapedLines => escapeFrom true 0 cs
    | .verbatim | .verbatimLines => cs
  opening ++ content ++ style.delimiter

/-! ### Values -/

/-- **A text as it is written.** -/
def writeText (s : String) : String :=
  String.ofList (writeIn (styleOf s.toList) s.toList)

/-- **A list of texts as it is written.** -/
def writeTexts : List String → String
  | [] => "[]"
  | [s] => "[" ++ writeText s ++ "]"
  | ss => "[\n" ++ String.join (ss.map fun s => "    " ++ writeText s ++ ",\n") ++ "]"

/-- A value that a setting can have. -/
inductive Plain
  /-- A number. -/
  | integer (n : Nat)
  /-- A text. -/
  | text (s : String)
  /-- A list of texts. -/
  | texts (ss : List String)
  deriving DecidableEq, Repr

/-- The value as it is written. -/
def Plain.written : Plain → String
  | integer n => Nat.repr n
  | text s => writeText s
  | texts ss => writeTexts ss

/-! ### Sections -/

/-- A section of settings. -/
structure Section where
  /-- Its name. -/
  name : String
  /-- Its settings, each with its key. -/
  settings : List (String × Plain)
  deriving DecidableEq, Repr

/-- A setting on a line of its own. -/
def settingLine (key : String) (v : Plain) : String :=
  key ++ " = " ++ v.written ++ "\n"

/-- The section as it is written, under a header with its name. -/
def Section.written (s : Section) : String :=
  "[" ++ s.name ++ "]\n" ++ String.join (s.settings.map fun e => settingLine e.1 e.2)

/-- **Sections as they are written**, with an empty line between them. -/
def writeSections (sections : List Section) : String :=
  "\n".intercalate (sections.map Section.written)

end CardFilter.Toml
