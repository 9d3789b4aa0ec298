import CardFilter.Filter
import CardFilter.Text.Quoted

/-!
# The structure of a filter, written out

A listing of a filter shows one node per line: the kind of each term, its marks and its value
between quotes. The members of a group are indented under it.
-/

namespace CardFilter

/-- A truth value in words. -/
def truthWord (b : Bool) : String :=
  if b then "true" else "false"

/-- The kind of the value and its text between quotes. -/
def Value.shown : Value → String
  | .text s => "Text(" ++ quoted s ++ ")"
  | .regex s => "Regex(" ++ quoted s ++ ")"

/-- The term on one line. -/
def Term.shown : Term → String
  | .name negated literal value =>
    "Name(negated=" ++ truthWord negated ++ ", literal=" ++ truthWord literal ++ ", "
      ++ value.shown ++ ")"
  | .keyed negated key comparison value =>
    "KeyValue(negated=" ++ truthWord negated ++ ", " ++ quoted key ++ " " ++ comparison.symbol
      ++ " " ++ value.shown ++ ")"

/-- **The filter, one node per line.** -/
def Filter.tree : Filter → String
  | .term t => t.shown ++ "\n"
  | .anyOf negated members =>
    (if negated then "Not(Or)\n" else "Or\n")
      ++ String.join (members.map fun m => "  " ++ m.shown ++ "\n")

end CardFilter
