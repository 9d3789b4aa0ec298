import CardFilter.Settings

/-!
# Merged settings

Settings files are merged in the order of their precedence, the most specific first. The numbers are
gone through from the other end, and each file is written over those that it comes before. The path
for the card names is that of the first file that gives one; it belongs to the directory of that
file, and `~` stands for the home directory. Lists of filters are put together, and a filter that
came before is dropped.
-/

namespace CardFilter

/-- A settings file that was read. -/
structure SettingsFile where
  /-- Where it is. -/
  path : FilePath
  /-- What it says. -/
  settings : FileSettings
  deriving DecidableEq, Repr

/-- Why settings cannot be had. -/
inductive SettingsError
  /-- The file cannot be read. -/
  | unreadable (path : FilePath)
  /-- The file is no settings file. -/
  | invalid (path : FilePath) (fault : Toml.Fault)
  /-- A path begins with `~`, and there is no home directory. -/
  | noHome
  deriving DecidableEq, Repr

/-- The path with `~` at its start replaced by the home directory. -/
def expandHome (home : Option FilePath) (text : String) : Except SettingsError FilePath :=
  match text.toList with
  | ['~'] => home.elim (.error .noHome) .ok
  | '~' :: '/' :: rest =>
    home.elim (.error .noHome) fun h => .ok (h.join (.ofText (String.ofList rest)))
  | _ => .ok (.ofText text)

/-- **The path that a text in a settings file names**, the file being in `directory`. -/
def resolvePath (home : Option FilePath) (directory : FilePath) (text : String) :
    Except SettingsError FilePath :=
  match expandHome home text with
  | .error e => .error e
  | .ok path => .ok (if path.isAbsolute then path else directory.join path)

namespace SettingsFile

/-- The directory of the file. -/
def directory (f : SettingsFile) : FilePath :=
  f.path.parent?.getD f.path

/-- What the file says of the names file. -/
def names (f : SettingsFile) : Option String :=
  f.settings.catalog.bind (·.names)

end SettingsFile

/-- The numbers, with what a file says written over them. -/
def SuggestSettings.overwrite (merged : SuggestSettings) (said : FileSuggest) : SuggestSettings :=
  { limit := said.limit.getD merged.limit
    debounce := said.debounce.getD merged.debounce
    minNameLength := said.minNameLength.getD merged.minNameLength
    historySize := said.historySize.getD merged.historySize }

/-- How suggestions are made, by all files together. The least specific file comes first, and every
other one is written over those before. -/
def mergeSuggest (files : List SettingsFile) : SuggestSettings :=
  files.foldr (fun f merged =>
    match f.settings.suggest with
    | none => merged
    | some said => merged.overwrite said) .default

/-- The names file, by the first file that gives one. -/
def mergeNames (home : Option FilePath) :
    List SettingsFile → Except SettingsError (Option FilePath)
  | [] => .ok none
  | f :: rest =>
    match f.names with
    | none => mergeNames home rest
    | some text => (resolvePath home f.directory text).map some

/-- The list with those entries at its end that are not in it yet. -/
def addMissing (list entries : List String) : List String :=
  entries.foldl (fun list entry => if entry ∈ list then list else list ++ [entry]) list

/-- The saved filters, with those of a file that are not among them yet. -/
def SavedFilters.extend (merged : SavedFilters) (said : FileFilters) : SavedFilters :=
  { pinned := addMissing merged.pinned (said.pinned.getD [])
    history := addMissing merged.history (said.history.getD []) }

/-- The saved filters of all files together. -/
def mergeFilters (files : List SettingsFile) : SavedFilters :=
  (files.filterMap (·.settings.filters)).foldl SavedFilters.extend ⟨[], []⟩

/-- **The settings that hold** by the given files, the most specific first. -/
def mergeSettings (home : Option FilePath) (files : List SettingsFile) :
    Except SettingsError Settings :=
  match mergeNames home files with
  | .error e => .error e
  | .ok names => .ok
      { suggest := mergeSuggest files
        names
        filters := mergeFilters files
        files := files.map (·.path)
        root := files.head?.bind (·.path.parent?) }

end CardFilter
