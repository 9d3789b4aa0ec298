import CardFilter.CommandLine.Style
import CardFilter.Vocabulary.Standard

/-!
# The table of keys

The keys are shown in a table with lines around it, a column as wide as its widest cell.
-/

namespace CardFilter.CommandLine

/-! ### Tables -/

/-- The width of each column. -/
def columnWidths : List (List String) → List Nat
  | [] => []
  | [row] => row.map (·.toList.length)
  | row :: rest => List.zipWith max (row.map (·.toList.length)) (columnWidths rest)

/-- A row of cells. -/
def tableRow (widths : List Nat) (cells : List String) : String :=
  "│" ++ "┆".intercalate (List.zipWith (fun w cell => " " ++ padRight w cell ++ " ") widths cells)
    ++ "│"

/-- A line across the table. -/
def tableRule (left fill between right : String) (widths : List Nat) : String :=
  left ++ between.intercalate (widths.map fun w => String.join (List.replicate (w + 2) fill))
    ++ right

/-- **A table** with its headings. -/
def table (headings : List String) (rows : List (List String)) : String :=
  let widths := columnWidths (headings :: rows)
  "\n".intercalate ([tableRule "┌" "─" "┬" "┐" widths, tableRow widths headings,
      tableRule "╞" "═" "╪" "╡" widths] ++ rows.map (tableRow widths)
    ++ [tableRule "└" "─" "┴" "┘" widths])

/-! ### Keys -/

/-- How many values of a key are shown. -/
def shownValues : Nat := 6

/-- The values of a key; of many the first are shown and the others counted. -/
def valuesCell (k : Key) : String :=
  match k.values with
  | none => "-"
  | some values =>
    let shown := ", ".intercalate (values.take shownValues)
    if shownValues < values.length then
      shown ++ ", +" ++ Nat.repr (values.length - shownValues) ++ " more"
    else shown

/-- The row of a key. -/
def keyCells (k : Key) : List String :=
  [k.name, ", ".intercalate k.aliases,
    " ".intercalate (k.operators.comparisons.map Comparison.symbol), valuesCell k]

/-- **The table of the keys of a vocabulary.** -/
def keyTable (v : Vocabulary) : String :=
  line (table ["Key", "Aliases", "Operators", "Values"] (v.keys.map keyCells))
    ++ line (dim "Keys and aliases are matched case-insensitively while typing.")

end CardFilter.CommandLine
