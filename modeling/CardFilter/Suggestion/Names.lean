import CardFilter.Draft.Term
import CardFilter.Suggestion
import CardFilter.Text.Blank

/-!
# Suggestions of card names

A name that is long enough is looked up in a catalog. The names that the catalog gives are offered
with the marks of the draft term, and ranked like everything else.
-/

namespace CardFilter

/-- The fragment that is looked up: the name typed so far, without the blanks around it. -/
def nameFragment (t : Draft.Term) : String :=
  trim t.fragment

/-- **The term is looked up**: it is a name and no regular expression, and its fragment has at
least `minLength` characters, and at least one. -/
def isLookedUp (minLength : Nat) (t : Draft.Term) : Bool :=
  match t.content with
  | .name _ text => !text.isRegex && max minLength 1 ≤ (nameFragment t).toList.length
  | .keyed _ _ _ => false

/-- The mark `!` stands before the name. -/
def isLiteral (t : Draft.Term) : Bool :=
  match t.content with
  | .name literal _ => literal
  | .keyed _ _ _ => false

/-- The filter for a card name, with the marks of the draft term. -/
def nameFilter (t : Draft.Term) (name : String) : Filter :=
  .term (.name t.negated (isLiteral t) (.text name))

/-- The suggestion of a card name. -/
def nameSuggestion (t : Draft.Term) (name : String) : Suggestion :=
  let f := nameFilter t name
  let matched := findIgnoringCase f.render (nameFragment t)
  ⟨.name f, matched, match matched with
    | some r => alignmentOf f.render r
    | none => .inner⟩

/-- **The card names for a draft term**, best first. -/
def nameSuggestions (t : Draft.Term) (names : List String) (excluding : List Filter)
    (limit : Nat) : List Suggestion :=
  (rankBy Suggestion.rank ((names.filter fun name => !excluding.contains (nameFilter t name)).map
    (nameSuggestion t))).take limit

end CardFilter
