import CardFilter.JsonValue
import CardFilter.Draft.Piece
import CardFilter.Outcome
import CardFilter.Suggestion

/-!
# Filters and suggestions as JSON

Other programs read reports as JSON. Each kind of thing is an object that names its kind, and the
order of the fields is fixed.
-/

namespace CardFilter

/-- The comparison in a word. -/
def Comparison.word : Comparison → String
  | including => "including"
  | equal => "equal"
  | notEqual => "not_equal"
  | less => "less_than"
  | lessOrEqual => "less_or_equal"
  | greater => "greater_than"
  | greaterOrEqual => "greater_or_equal"

/-- The value as JSON. -/
def Value.toJson : Value → JsonValue
  | text s => .object [("kind", .text "text"), ("text", .text s)]
  | regex s => .object [("kind", .text "regex"), ("text", .text s)]

/-- The term as JSON. -/
def Term.toJson : Term → JsonValue
  | name negated literal value => .object
      [("type", .text "name"), ("negated", .boolean negated), ("literal_match", .boolean literal),
        ("value", value.toJson)]
  | keyed negated key comparison value => .object
      [("type", .text "key_value"), ("negated", .boolean negated), ("key", .text key),
        ("comparison", .text comparison.word), ("value", value.toJson)]

/-- **The filter as JSON.** -/
def Filter.toJson : Filter → JsonValue
  | term t => .object [("type", .text "term"), ("term", t.toJson)]
  | anyOf negated members => .object
      [("type", .text "disjunction"), ("negated", .boolean negated),
        ("members", .array (members.map Term.toJson))]

/-- The outcome in a word, as JSON has it. -/
def Outcome.word : Outcome → String
  | empty => "empty"
  | valid _ => "valid"
  | autoTerminated _ => "auto_terminated"
  | fallback _ => "fallback"

/-- The outcome as JSON. -/
def Outcome.toJson (o : Outcome) : JsonValue :=
  .object (("outcome", .text o.word) :: match o.filter? with
    | some f => [("expr", f.toJson)]
    | none => [])

/-- The kind of a piece in a word, as JSON has it. -/
def Draft.PieceKind.word : Draft.PieceKind → String
  | openGroup => "open_paren"
  | closeGroup => "close_paren"
  | or => "or"
  | chunk => "verbatim"
  | gap => "and"

/-- The piece as JSON. -/
def Draft.Piece.toJson (p : Draft.Piece) : JsonValue :=
  .object [("kind", .text p.kind.word), ("start", .number p.start), ("end", .number p.stop),
    ("text", .text p.text)]

/-- Where a candidate comes from in a word, as JSON has it. -/
def Candidate.word : Candidate → String
  | pinned _ => "pinned"
  | history _ => "history"
  | key _ => "filter_key"
  | value _ => "enumerated_value"
  | operator _ => "reverse_enumerated_value"
  | name _ => "name"

/-- The candidate as JSON. -/
def Candidate.toJson : Candidate → JsonValue
  | key k => .object [("negated", .boolean k.negated), ("key", .text k.key),
      ("comparison", .text k.comparison.word)]
  | pinned f | history f | value f | operator f | name f => f.toJson

/-- The alignment in a word, as JSON has it. -/
def Alignment.word : Alignment → String
  | actual => "actual"
  | effective => "effective"
  | inner => "none"

/-- **The suggestion as JSON.** -/
def Suggestion.toJson (s : Suggestion) : JsonValue :=
  .object [("source", .text s.candidate.word), ("candidate", s.candidate.toJson),
    ("match_range", match s.matched with
      | some r => .object [("start", .number r.start), ("end", .number r.stop)]
      | none => .null),
    ("prefix_kind", .text s.alignment.word), ("match_len", .number s.length)]

end CardFilter
