import CardFilter.CommandLine.Encoding
import CardFilter.CommandLine.Style
import CardFilter.Session
import CardFilter.Settings.Discover

/-!
# Reports on suggestions

A text is completed as in a search box: the suggestions that are known at once are listed first,
and once more with card names where those were looked up.
-/

namespace CardFilter.CommandLine

/-- The session that the settings ask for. A names file that cannot be read holds no names. -/
def sessionOf (settings : Settings) (tree : FileTree) : Session :=
  let catalog := match settings.names.bind tree.read? with
    | some text => Catalog.ofText text
    | none => ⟨[]⟩
  Session.start
    ⟨.ofList none (readFilters settings.filters.pinned),
      .ofList (some settings.suggest.historySize) (readFilters settings.filters.history)⟩
    settings.suggest.minNameLength settings.suggest.debounce (.ofCatalog catalog 0 false)

/-- The list that a stream gave, if it gave one. -/
def given? : Poll → Option (List Suggestion)
  | .ready suggestions => some suggestions
  | .pending | .ended => none

/-- **Every list of a stream** that is opened and read to its end. There are no more than two. -/
def snapshots (s : Session) (c : Completion) : List (List Suggestion) :=
  let place := s.streams.length
  let (first, afterFirst) := (s.openStream c).next place
  let (second, _) := afterFirst.next place
  [first, second].filterMap given?

/-- The filters that texts write, or why the first of them that writes none does not. -/
def filtersOf : List String → Except QueryError (List Filter)
  | [] => .ok []
  | text :: rest =>
    match Filter.parse text with
    | .error e => .error e
    | .ok f =>
      match filtersOf rest with
      | .error e => .error e
      | .ok fs => .ok (f :: fs)

/-- The alignment of a suggestion in words. -/
def alignmentLabel : Alignment → String
  | .actual => "prefix"
  | .effective => "effective prefix"
  | .inner => "contains"

/-- One suggestion. -/
def suggestionLine (s : Suggestion) : String :=
  lineUnder (padRight 9 s.candidate.label ++ " " ++ highlight s.render s.matched ++ " "
    ++ dim (alignmentLabel s.alignment))

/-- One list of suggestions under its title. -/
def snapshotReport (title : String) (suggestions : List Suggestion) : String :=
  line (bold title)
    ++ if suggestions.isEmpty then lineUnder (dim "(none)")
      else String.join (suggestions.map suggestionLine)

/-- **The lists of suggestions.** -/
def suggestReport : List (List Suggestion) → String
  | [] => ""
  | first :: rest =>
    snapshotReport "Suggestions:" first
      ++ String.join (rest.map fun s => line "" ++ snapshotReport "With card names:" s)

/-- The lists of suggestions as JSON. -/
def suggestReportJson (lists : List (List Suggestion)) : JsonValue :=
  .array (lists.map fun s => .array (s.map Suggestion.toJson))

end CardFilter.CommandLine
