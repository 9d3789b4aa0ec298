import CardFilter.CommandLine.Encoding
import CardFilter.CommandLine.Style
import CardFilter.Text.Quoted

/-!
# Reports on tokens

The tokens of a text are listed one a line, each with its kind, its bytes and its text.
-/

namespace CardFilter.CommandLine

/-- The kind of a piece in a word. -/
def pieceLabel : Draft.PieceKind → String
  | .openGroup => "open"
  | .closeGroup => "close"
  | .or => "or"
  | .chunk => "verbatim"
  | .gap => "and"

/-- One token. -/
def pieceLine (p : Draft.Piece) : String :=
  line (padRight 12 (pieceLabel p.kind) ++ " "
    ++ dim (padLeft 3 (Nat.repr p.start) ++ ".." ++ padRight 3 (Nat.repr p.stop)) ++ " "
    ++ quoted p.text)

/-- **The list of tokens.** -/
def tokenReport (pieces : List Draft.Piece) : String :=
  if pieces.isEmpty then line (dim "(no tokens)") else String.join (pieces.map pieceLine)

/-- The list of tokens as JSON. -/
def tokenReportJson (pieces : List Draft.Piece) : JsonValue :=
  .array (pieces.map Draft.Piece.toJson)

/-- The pieces of a text; read strictly, an open quote is a fault. -/
def piecesOf (text : String) (strict : Bool) : Except LexError (List Draft.Piece) :=
  if strict then Draft.piecesStrictly text else .ok (Draft.pieces text)

end CardFilter.CommandLine
