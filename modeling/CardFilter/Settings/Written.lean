import CardFilter.Settings

/-!
# Settings as a file

The settings that hold can be printed as a settings file. It says all of them, whatever files they
came from; but a settings file is a text, and a path that has none cannot be said in it.
-/

namespace CardFilter

open Toml (Format Plain Section)

/-- What a file says of the names file. There is none where the path has no text. -/
def namesSettings? : Option FilePath → Option (List (String × Plain))
  | none => some []
  | some path => path.text?.map fun text => [("names", .text text)]

/-- The sections that say the settings, the one on the names file being given. -/
def Settings.sectionsWith (s : Settings) (names : List (String × Plain)) : List Section :=
  [⟨"suggest", [("limit", .integer s.suggest.limit), ("debounce_ms", .integer s.suggest.debounce),
      ("min_name_length", .integer s.suggest.minNameLength),
      ("history_size", .integer s.suggest.historySize)]⟩,
    ⟨"catalog", names⟩,
    ⟨"filters", [("pinned", .texts s.filters.pinned), ("history", .texts s.filters.history)]⟩]

/-- **The settings as a file.** There is none where the path of the card names has no text. -/
def Settings.print? (format : Format) (s : Settings) : Option String :=
  (namesSettings? s.names).map fun names => format.write (s.sectionsWith names)

end CardFilter
