import CardFilter.Draft.Term
import CardFilter.Filter.Parse

/-!
# What a search box makes of a text

Whatever is typed into a search box is searched for. Text that begins with a group is read
strictly; other text is a single draft term, taken as it stands or with its open quote closed; and
what is neither is looked for in the names as a whole.
-/

namespace CardFilter

/-- What becomes of a text. -/
inductive Outcome
  /-- There is nothing but blanks. -/
  | empty
  /-- The text writes the filter. -/
  | valid (filter : Filter)
  /-- The text writes the filter once its open quote is closed. -/
  | autoTerminated (filter : Filter)
  /-- The text is no filter and is looked for in the names. -/
  | fallback (filter : Filter)
  deriving DecidableEq, Repr

namespace Outcome

/-- The filter, if there is one. -/
def filter? : Outcome → Option Filter
  | empty => none
  | valid f | autoTerminated f | fallback f => some f

/-- The outcome in a word. -/
def label : Outcome → String
  | empty => "empty"
  | valid _ => "valid"
  | autoTerminated _ => "auto-terminated"
  | fallback _ => "fallback"

/-- The text begins with a group. -/
def startsGroup (text : String) : Bool :=
  match Draft.pieces text with
  | p :: _ => p.kind == .openGroup
  | [] => false

/-- What becomes of a text that has no blanks around it. -/
def ofTrimmed (text : String) : Outcome :=
  if text.toList.isEmpty then empty
  else if startsGroup text then
    match Filter.parse text with
    | .ok f => valid f
    | .error _ => fallback (.nameSearch text)
  else
    match (Draft.Term.ofText text).complete? with
    | some t => valid (.term t)
    | none =>
      match (Draft.Term.ofText text).completeClosing? with
      | some t => autoTerminated (.term t)
      | none => fallback (.nameSearch text)

/-- **What becomes of a text.** -/
def ofText (text : String) : Outcome :=
  ofTrimmed (trim text)

end Outcome

end CardFilter
