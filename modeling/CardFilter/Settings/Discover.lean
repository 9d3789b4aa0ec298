import CardFilter.FileTree
import CardFilter.Settings.Merge

/-!
# Which settings files count

The settings files that count in a directory lie in it and in the directories above it, nearest
first; the one in the home directory comes last. A file that declares itself the root ends the list,
and then the one in the home directory does not count either.
-/

namespace CardFilter

/-- Where settings are looked for. -/
structure Surroundings where
  /-- The files. -/
  tree : FileTree
  /-- The home directory, if there is one. -/
  home : Option FilePath
  deriving Repr

namespace Surroundings

/-- The settings file of a directory. -/
def settingsPath (directory : FilePath) : FilePath :=
  directory.join (.ofText settingsFileName)

/-- The settings file of the home directory. -/
def globalPath? (s : Surroundings) : Option FilePath :=
  s.home.map settingsPath

/-- The path is that of the settings file of the home directory. -/
def isGlobal (s : Surroundings) (path : FilePath) : Bool :=
  s.globalPath?.any fun g => path.sameAs g

/-- The file declares itself the root. A file that cannot be read declares nothing. -/
def isRootFile (s : Surroundings) (path : FilePath) : Bool :=
  match s.tree.read? path with
  | none => false
  | some text =>
    match FileSettings.ofText text with
    | .ok settings => settings.isRoot
    | .error _ => false

/-- The settings files in some directories up to the first root, and whether there was one. -/
def walk (s : Surroundings) : List FilePath → List FilePath × Bool
  | [] => ([], false)
  | directory :: rest =>
    let path := settingsPath directory
    if s.tree.isFile path then
      if s.isRootFile path then ([path], true)
      else
        let (found, rooted) := s.walk rest
        (path :: found, rooted)
    else s.walk rest

/-- **The settings files that count** in a directory, the most specific first. -/
def discover (s : Surroundings) (directory : FilePath) : List FilePath :=
  let (found, rooted) := s.walk directory.ancestors
  if rooted then found
  else match s.globalPath? with
    | none => found
    | some g =>
      if s.tree.isFile g && !found.any (·.sameAs g) then found ++ [g] else found

/-- What a settings file says. -/
def readFile (s : Surroundings) (path : FilePath) : Except SettingsError SettingsFile :=
  match s.tree.read? path with
  | none => .error (.unreadable path)
  | some text =>
    match FileSettings.ofText text with
    | .error fault => .error (.invalid path fault)
    | .ok settings => .ok ⟨path, settings⟩

/-- What some settings files say, or the first that says nothing. -/
def readFiles (s : Surroundings) : List FilePath → Except SettingsError (List SettingsFile)
  | [] => .ok []
  | path :: rest =>
    match s.readFile path with
    | .error e => .error e
    | .ok file =>
      match s.readFiles rest with
      | .error e => .error e
      | .ok files => .ok (file :: files)

/-- The settings that hold by the given files. -/
def loadFiles (s : Surroundings) (paths : List FilePath) : Except SettingsError Settings :=
  match s.readFiles paths with
  | .error e => .error e
  | .ok files => mergeSettings s.home files

/-- **The settings that hold in a directory.** -/
def load (s : Surroundings) (directory : FilePath) : Except SettingsError Settings :=
  s.loadFiles (s.discover directory)

end Surroundings

end CardFilter
