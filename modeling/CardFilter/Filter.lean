import CardFilter.Comparison
import CardFilter.Quote
import CardFilter.Text.Alphanumeric
import CardFilter.Text.Search

/-!
# Filters

A filter selects cards. It is a single term, or a list of terms of which any one may hold; a term
asks for a name, or compares the property behind a key with a value. This file holds filters and
their canonical text, `CardFilter.Filter.render`: the text that a search box would show for them.
-/

namespace CardFilter

/-- The value of a keyed term, or the text of a name term. -/
inductive Value
  /-- Plain text. -/
  | text (text : String)
  /-- The body of a regular expression. -/
  | regex (body : String)
  deriving DecidableEq, Repr, Inhabited

/-- A single condition on a card. -/
inductive Term
  /-- The name contains the value; with `literal`, the name is exactly the value. -/
  | name (negated literal : Bool) (value : Value)
  /-- The property behind the key compares with the value. -/
  | keyed (negated : Bool) (key : String) (comparison : Comparison) (value : Value)
  deriving DecidableEq, Repr, Inhabited

/-- A complete filter. -/
inductive Filter
  /-- A single term. -/
  | term (term : Term)
  /-- Any of the members holds; when negated, none of them does. -/
  | anyOf (negated : Bool) (members : List Term)
  deriving DecidableEq, Repr, Inhabited

/-! ### Canonical text -/

namespace Value

/-- The text between the delimiters. -/
def content : Value → String
  | text s => s
  | regex s => s

/-- The word that separates the members of a group, in any case. -/
def isOrWord (s : String) : Bool :=
  sameAsciiIgnoringCase s "or"

/-- **A text that needs no quotes**: word characters only, at least one, and not the word `or`. -/
def isBareWord (s : String) : Bool :=
  !s.toList.isEmpty && s.toList.all isWordChar && !isOrWord s

/-- The quotes around a text: single ones if it holds a double quote and no single quote. -/
def quoteFor (s : String) : Quote :=
  if s.toList.contains '"' && !s.toList.contains '\'' then .single else .double

/-- The characters of the canonical text. -/
def chars : Value → List Char
  | text s =>
    if isBareWord s then s.toList
    else (quoteFor s).mark :: s.toList ++ [(quoteFor s).mark]
  | regex s => '/' :: s.toList ++ ['/']

/-- The canonical text of the value. -/
def render (v : Value) : String :=
  String.ofList v.chars

end Value

/-- The mark of a negated term or group. -/
def negationChars (negated : Bool) : List Char :=
  if negated then ['-'] else []

namespace Term

/-- The characters of the canonical text. -/
def chars : Term → List Char
  | name negated literal value =>
    negationChars negated ++ (if literal then ['!'] else []) ++ value.chars
  | keyed negated key comparison value =>
    negationChars negated ++ key.toList ++ comparison.chars ++ value.chars

/-- The canonical text of the term. -/
def render (t : Term) : String :=
  String.ofList t.chars

/-- The term is negated. -/
def isNegated : Term → Bool
  | name negated _ _ => negated
  | keyed negated _ _ _ => negated

/-- The term with the given negation. -/
def withNegation (negated : Bool) : Term → Term
  | name _ literal value => name negated literal value
  | keyed _ key comparison value => keyed negated key comparison value

/-- The value of the term. -/
def value : Term → Value
  | name _ _ value => value
  | keyed _ _ _ value => value

end Term

namespace Filter

/-- The characters of the members of a group, with the word `or` between them. -/
def memberChars : List Term → List Char
  | [] => []
  | [m] => m.chars
  | m :: n :: rest => m.chars ++ [' ', 'o', 'r', ' '] ++ memberChars (n :: rest)

/-- The characters of the canonical text. -/
def chars : Filter → List Char
  | term t => t.chars
  | anyOf negated members => negationChars negated ++ '(' :: memberChars members ++ [')']

/-- **The canonical text of the filter.** -/
def render (f : Filter) : String :=
  String.ofList f.chars

/-- The filter as a whole is negated. -/
def isNegated : Filter → Bool
  | term t => t.isNegated
  | anyOf negated _ => negated

/-- The filter with the given negation of the whole. -/
def withNegation (negated : Bool) : Filter → Filter
  | term t => term (t.withNegation negated)
  | anyOf _ members => anyOf negated members

/-- The terms of the filter, in order. -/
def terms : Filter → List Term
  | term t => [t]
  | anyOf _ members => members

/-- The filter that looks for a text in the name. -/
def nameSearch (s : String) : Filter :=
  term (.name false false (.text s))

end Filter

end CardFilter
