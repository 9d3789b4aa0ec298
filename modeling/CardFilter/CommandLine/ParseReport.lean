import CardFilter.CommandLine.Encoding
import CardFilter.CommandLine.Style
import CardFilter.Filter.Tree

/-!
# Reports on how a text is understood

The report names the outcome and shows the filter, and where the text is looked for in the names as
a whole it says why it is no filter.
-/

namespace CardFilter.CommandLine

/-- Why a text that is looked for in the names is no filter. -/
def strictFault? (text : String) : Option QueryError :=
  match Outcome.ofText text with
  | .fallback _ =>
    match Filter.parse (trim text) with
    | .ok _ => none
    | .error e => some e
  | _ => none

/-- The report as JSON. -/
def parseReportJson (text : String) : JsonValue :=
  let outcome := Outcome.ofText text
  .object [("input", .text text), ("outcome", outcome.toJson),
    ("rendered", .ofText? (outcome.filter?.map Filter.render)),
    ("error", .ofText? ((strictFault? text).map QueryError.message))]

/-- **The report on a text.** -/
def parseReport (text : String) : String :=
  let outcome := Outcome.ofText text
  line (bold "Outcome:" ++ " " ++ outcome.label) ++
    match outcome.filter? with
    | none => ""
    | some f =>
      line (bold "Filter:" ++ " " ++ f.render) ++ line "" ++ f.tree
        ++ match strictFault? text with
          | none => ""
          | some e => line "" ++ String.join ((linesOf e.display).map fun l => line (dim l))

end CardFilter.CommandLine
