import CardFilter.FileTree
import CardFilter.Settings

/-!
# What is odd about settings

Settings can be in force and still not do what they seem to: a saved text is no filter, the names
file is missing or not given, or no suggestion is ever shown.
-/

namespace CardFilter

/-- Something odd about settings. -/
inductive SettingsWarning
  /-- A saved text is no filter: the list it is in, the text, and why. -/
  | invalidFilter (list text : String) (reason : String)
  /-- The names file is not there. -/
  | namesFileMissing (path : FilePath)
  /-- No names file is given. -/
  | noCatalog
  /-- No suggestion is ever shown. -/
  | zeroLimit
  deriving DecidableEq, Repr

/-- The warning in words. -/
def SettingsWarning.message : SettingsWarning → String
  | invalidFilter list text reason => list ++ " filter '" ++ text ++ "' is ignored: " ++ reason
  | namesFileMissing path => "card names file does not exist: " ++ path.display
  | noCatalog => "no card names file configured; name suggestions are disabled"
  | zeroLimit => "suggest.limit is 0; no suggestions will be shown"

/-- The texts of a list that are no filters. -/
def invalidFilters (list : String) (texts : List String) : List SettingsWarning :=
  texts.filterMap fun text =>
    match Filter.parse text with
    | .ok _ => none
    | .error e => some (.invalidFilter list text e.message)

/-- **Everything odd about the settings**, where the files are those of the tree. -/
def Settings.warnings (s : Settings) (tree : FileTree) : List SettingsWarning :=
  (if s.suggest.limit = 0 then [.zeroLimit] else [])
    ++ (match s.names with
      | none => [.noCatalog]
      | some path => if tree.isFile path then [] else [.namesFileMissing path])
    ++ invalidFilters "pinned" s.filters.pinned
    ++ invalidFilters "history" s.filters.history

end CardFilter
