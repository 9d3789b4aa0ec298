import CardFilter.Settings.Discover
import CardFilter.Settings.Template

/-!
# Starting a settings file

A settings file is started from the template of its scope. In the home directory that is always the
file of the home directory, and a file that is there is left alone unless it is to be replaced.
-/

namespace CardFilter

/-- Why no settings file was started. -/
inductive StartFault
  /-- There is no home directory. -/
  | noHome
  /-- Something with the name of the file is there. -/
  | exists (path : FilePath)
  /-- The path names a directory. -/
  | directory (path : FilePath)
  /-- The directory of the file is not there. -/
  | unreachable (path : FilePath)
  deriving DecidableEq, Repr

/-- The fault in words. -/
def StartFault.message : StartFault → String
  | noHome => "could not determine home directory"
  | .exists path =>
    "configuration file already exists: " ++ path.display ++ "\nuse --force to overwrite"
  | directory path => "failed to write " ++ path.display ++ ": Is a directory (os error 21)"
  | unreachable path =>
    "failed to write " ++ path.display ++ ": No such file or directory (os error 2)"

/-- A settings file that was started. -/
structure Started where
  /-- Where it is. -/
  path : FilePath
  /-- What it says. -/
  text : String
  /-- The files, with it. -/
  tree : FileTree
  deriving Repr

namespace Surroundings

/-- The directory is the home directory. -/
def isHome (s : Surroundings) (directory : FilePath) : Bool :=
  (s.globalPath?.bind (·.parent?)).any (·.sameAs directory)

/-- Which settings file is started in a directory. -/
def scopeIn (s : Surroundings) (directory : FilePath) (global : Bool) : SettingsScope :=
  if global || s.isHome directory then .home else .directory

/-- Where the settings file is started. -/
def startPath? (s : Surroundings) (directory : FilePath) : SettingsScope → Option FilePath
  | .home => s.globalPath?
  | .directory => some (settingsPath directory)

/-- **Starts a settings file** in a directory, or with `global` in the home directory. Only with
`force` does it take the place of a file that is there. -/
def startSettings (s : Surroundings) (directory : FilePath) (global force : Bool) :
    Except StartFault Started :=
  let scope := s.scopeIn directory global
  match s.startPath? directory scope with
  | none => .error .noHome
  | some path =>
    if s.tree.contains path && !force then .error (.exists path)
    else match s.tree.write? path scope.template with
      | some tree => .ok ⟨path, scope.template, tree⟩
      | none =>
        if s.tree.contains path then .error (.directory path) else .error (.unreachable path)

end Surroundings

end CardFilter
