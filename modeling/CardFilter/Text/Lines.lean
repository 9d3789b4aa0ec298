/-!
# Lines

A line ends at a line feed, or at a carriage return with a line feed. What follows the last line
end is a line only if it is not empty.
-/

namespace CardFilter

/-- The lines of a text, without their ends. -/
def lines : List Char → List (List Char)
  | [] => []
  | '\n' :: rest => [] :: lines rest
  | '\r' :: '\n' :: rest => [] :: lines rest
  | c :: rest =>
    match lines rest with
    | [] => [[c]]
    | line :: more => (c :: line) :: more

/-- The lines of a text. -/
def linesOf (text : String) : List String :=
  (lines text.toList).map String.ofList

end CardFilter
