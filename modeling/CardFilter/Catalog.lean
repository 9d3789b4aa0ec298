import CardFilter.Ranking
import CardFilter.Text.Blank
import CardFilter.Text.Lines
import CardFilter.Text.Search

/-!
# Catalogs of card names

A catalog completes card names from a fixed list. The names that begin with the fragment come
first, and at most twenty are given.
-/

namespace CardFilter

/-- A list of card names, in catalog order. -/
structure Catalog where
  /-- The names. -/
  names : List String
  deriving DecidableEq, Repr, Inhabited

namespace Catalog

/-- The greatest number of names given for a fragment. -/
def maxResults : Nat := 20

/-- **The catalog written in a text**, one name a line. Lines that are blank or begin with `#` hold
no name, and blanks around a name are not part of it. -/
def ofText (text : String) : Catalog :=
  ⟨((lines text.toList).map trimChars).filterMap fun line =>
    match line with
    | [] | '#' :: _ => none
    | name => some (String.ofList name)⟩

/-- **The names that contain the fragment** with case set aside, those that begin with it first. -/
def complete (c : Catalog) (fragment : String) : List String :=
  let found := c.names.filterMap fun name =>
    (findIgnoringCase name fragment).map fun r => (name, r.start)
  ((rankBy (fun (_, start) => [if start = 0 then 0 else 1]) found).take maxResults).map (·.1)

end Catalog

end CardFilter
