import CardFilter.CommandLine.CheckReport
import CardFilter.CommandLine.Command
import CardFilter.CommandLine.KeyTable
import CardFilter.CommandLine.ParseReport
import CardFilter.CommandLine.Reply
import CardFilter.CommandLine.SuggestReport
import CardFilter.CommandLine.TokenReport
import CardFilter.Settings.Start
import CardFilter.Settings.Written

/-!
# Running a command

A command runs in a directory. All but the one that starts a settings file load the settings first,
and do nothing where these cannot be had.
-/

namespace CardFilter.CommandLine

/-- Why a text is no settings document, in words. -/
def tomlMessage : Toml.Fault → String
  | .malformed => "TOML parse error: the text is no settings document"
  | .repeated key => "TOML parse error: '" ++ key ++ "' comes twice"
  | .unknown key => "TOML parse error: unknown setting '" ++ key ++ "'"
  | .mistyped key => "TOML parse error: wrong kind of value for '" ++ key ++ "'"

/-- Why settings cannot be had, in words. -/
def settingsMessage : SettingsError → String
  | .unreadable path => "cannot read " ++ path.display
  | .invalid path fault => "invalid configuration in " ++ path.display ++ ": " ++ tomlMessage fault
  | .noHome => "cannot expand '~' without a home directory"

/-- Starts a settings file. -/
def runStart (s : Surroundings) (directory : FilePath) (global force : Bool) : Reply :=
  match s.startSettings directory global force with
  | .error fault => .failed s.tree fault.message
  | .ok started => .printed started.tree
      (line ("Created " ++ started.path.display) ++ line "" ++ line (bold "Configuration written:")
        ++ line (indented started.text))

/-- Lists the tokens of a text. -/
def runTokens (tree : FileTree) (text : String) (strict json : Bool) : Reply :=
  match piecesOf text strict with
  | .error e => .failed tree (e.display text)
  | .ok pieces =>
    .printed tree (if json then printedJson (tokenReportJson pieces) else tokenReport pieces)

/-- Completes a text. -/
def runSuggest (settings : Settings) (tree : FileTree) (text : String)
    (limit cursor : Option Nat) (existing : List String) (json : Bool) : Reply :=
  match filtersOf existing with
  | .error e => .failed tree ("invalid --existing filter\n" ++ trimEnd e.display)
  | .ok excluding =>
    let size := byteLength text.toList
    match cursor.filter (size < ·) with
    | some position => .failed tree ("cursor " ++ Nat.repr position
        ++ " is past the end of the text (" ++ Nat.repr size ++ " bytes)")
    | none =>
      let lists := snapshots (sessionOf settings tree)
        ⟨termTyped text cursor, excluding, limit.getD settings.suggest.limit⟩
      .printed tree (if json then printedJson (suggestReportJson lists) else suggestReport lists)

/-- Shows the settings. This breaks off where they cannot be printed. -/
def runSettings (settings : Settings) (tree : FileTree) : Reply :=
  match settings.print? .standard with
  | none => .broken tree "settings serialization should not fail"
  | some text =>
    { ending := .success
      output := text
      complaint := if settings.files.isEmpty then
          line (dim "no configuration files found; showing defaults")
        else ""
      tree }

/-- Checks the settings. -/
def runCheck (settings : Settings) (tree : FileTree) : Reply :=
  if settings.files.isEmpty then .printed tree emptyCheckReport
  else
    { ending := if (settings.warnings tree).isEmpty then .success else .failure
      output := checkReport settings tree
      complaint := ""
      tree }

/-- Runs with the settings that hold in a directory, and fails where these cannot be had. -/
def withSettings (s : Surroundings) (directory : FilePath) (run : Settings → Reply) : Reply :=
  match s.load directory with
  | .error e => .failed s.tree ("failed to load configuration: " ++ settingsMessage e)
  | .ok settings => run settings

/-- **Runs a command in a directory.** -/
def Command.run (s : Surroundings) (directory : FilePath) : Command → Reply
  | .start global force => runStart s directory global force
  | .parse text json => withSettings s directory fun _ =>
    .printed s.tree (if json then printedJson (parseReportJson text) else parseReport text)
  | .tokens text strict json => withSettings s directory fun _ =>
    runTokens s.tree text strict json
  | .suggest text limit cursor existing json => withSettings s directory fun settings =>
    runSuggest settings s.tree text limit cursor existing json
  | .keys => withSettings s directory fun _ => .printed s.tree (keyTable .standard)
  | .settings => withSettings s directory fun settings => runSettings settings s.tree
  | .check => withSettings s directory fun settings => runCheck settings s.tree

end CardFilter.CommandLine
