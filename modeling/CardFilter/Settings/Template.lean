/-!
# Settings files to start from

A settings file to start from says every setting with its usual value. It is handed out with all of
them made comments, so that it changes nothing until a line is taken out of its comment.
-/

namespace CardFilter

/-- Which settings file is started. -/
inductive SettingsScope
  /-- The one of a directory. -/
  | directory
  /-- The one of the home directory. -/
  | home
  deriving DecidableEq, Repr

/-- The line made a comment; a line that is empty or a comment stays. -/
def commentOut (line : String) : String :=
  match line.toList with
  | [] | '#' :: _ => line
  | _ => "# " ++ line

namespace SettingsScope

/-- The lines of the file, with its settings in force. -/
def exampleLines : SettingsScope → List String
  | .directory => [
    "# scry configuration for this directory tree.",
    "#",
    "# Settings here override parent directories and ~/.scry.toml.",
    "",
    "# Stop looking for configuration in parent directories and ignore ~/.scry.toml.",
    "root = false",
    "",
    "[suggest]",
    "# Maximum suggestions from each source.",
    "limit = 10",
    "# Quiet period before looking up card names, in milliseconds.",
    "debounce_ms = 250",
    "# Minimum characters typed before looking up card names.",
    "min_name_length = 2",
    "",
    "[catalog]",
    "# Card names, one per line, relative to this file.",
    "names = \"cards.txt\"",
    "",
    "[filters]",
    "# Filters always offered first.",
    "pinned = [\"f:modern\", \"-is:digital\"]",
    "# Recently used filters, most recent first.",
    "history = [\"t:instant\", \"c:red\"]"]
  | .home => [
    "# Global scry configuration (~/.scry.toml).",
    "#",
    "# Project .scry.toml files take precedence over these settings.",
    "",
    "[suggest]",
    "# Maximum suggestions from each source.",
    "limit = 10",
    "# Quiet period before looking up card names, in milliseconds.",
    "debounce_ms = 250",
    "# Minimum characters typed before looking up card names.",
    "min_name_length = 2",
    "# Number of history entries kept.",
    "history_size = 100",
    "",
    "[catalog]",
    "# Card names, one per line.",
    "names = \"~/.local/share/scry/cards.txt\"",
    "",
    "[filters]",
    "# Filters offered in every project.",
    "pinned = [\"f:commander\"]"]

/-- **The text of a settings file to start from.** -/
def template (scope : SettingsScope) : String :=
  String.join (scope.exampleLines.map fun line => commentOut line ++ "\n")

end SettingsScope

end CardFilter
