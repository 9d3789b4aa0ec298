import CardFilter.CommandLine.Style
import CardFilter.Settings.Warning
import CardFilter.Text.Quoted

/-!
# Reports on settings

The report lists the settings files, the names file and the number of saved filters, then what is
odd about the settings and what can be done about it.
-/

namespace CardFilter.CommandLine

/-- What can be done about something odd. -/
def hintFor : SettingsWarning → String
  | .invalidFilter _ text _ =>
    "Hint: run 'scry parse " ++ quoted text ++ "' to see where it fails"
  | .noCatalog => "Hint: add [catalog] names = \"cards.txt\" to .scry.toml"
  | .namesFileMissing _ => "Hint: the names file lists one card name per line"
  | .zeroLimit => "Hint: set [suggest] limit to 1 or more"

/-- The warning is about a saved filter. -/
def isAboutFilter : SettingsWarning → Bool
  | .invalidFilter _ _ _ => true
  | _ => false

/-- The hints for warnings; of saved filters only the first has one. -/
def hints : List SettingsWarning → List String
  | [] => []
  | w :: rest =>
    if isAboutFilter w then
      hintFor w :: (rest.filter fun v => !isAboutFilter v).map hintFor
    else hintFor w :: hints rest

/-- The names file. -/
def namesReport (names : Option FilePath) (tree : FileTree) : String :=
  match names with
  | none => dim "(not configured)"
  | some path =>
    if tree.isFile path then path.display else path.display ++ " " ++ yellow "[missing]"

/-- What is odd, and what can be done about it. -/
def warningReport (warnings : List SettingsWarning) : String :=
  if warnings.isEmpty then line "No issues found."
  else
    line (bold ("Warnings (" ++ Nat.repr warnings.length ++ "):"))
      ++ String.join (warnings.map fun w => lineUnder (yellow w.message)) ++ line ""
      ++ String.join ((hints warnings).map fun h => line (dim h))

/-- The report where there are no settings files. -/
def emptyCheckReport : String :=
  line (dim "No configuration files found.") ++ line ""
    ++ line ("Run " ++ bold "scry init" ++ " to create a configuration file.")

/-- **The report on settings.** -/
def checkReport (s : Settings) (tree : FileTree) : String :=
  line (bold "Config files:") ++ String.join (s.files.map fun f => lineUnder f.display) ++ line ""
    ++ line (bold "Card names:") ++ lineUnder (namesReport s.names tree) ++ line ""
    ++ line (bold ("Saved filters: " ++ Nat.repr s.filters.pinned.length ++ " pinned, "
      ++ Nat.repr s.filters.history.length ++ " history")) ++ line ""
    ++ warningReport (s.warnings tree)

end CardFilter.CommandLine
