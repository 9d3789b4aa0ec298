import CardFilter.Comparison
import CardFilter.Text.Bytes
import CardFilter.Text.Search

/-!
# What can be wrong with a filter text

The strict reading of a text fails for one cause at one position. The causes are of two kinds:
`CardFilter.LexFault` for texts that do not split into tokens, and `CardFilter.GrammarFault` for
tokens that do not form a filter. Wording, hints and the report with a caret for the position are
functions of the cause.

Hints go by the words of the message, and a message can quote the text it is about.
-/

namespace CardFilter

/-- Why a text does not split into tokens. -/
inductive LexFault
  /-- A quote is opened and not closed. -/
  | unclosedQuote
  /-- A regular expression is opened and not closed. -/
  | unclosedRegex
  /-- A group is opened and not closed. -/
  | unclosedGroup
  /-- A group is opened inside a group. -/
  | nestedGroup
  /-- A group is closed that was not opened. -/
  | unmatchedClosing
  /-- The character begins no token. -/
  | unexpectedCharacter (c : Char)
  deriving DecidableEq, Repr

/-- The fault in words. -/
def LexFault.message : LexFault → String
  | unclosedQuote => "unclosed quote"
  | unclosedRegex => "unclosed regex"
  | unclosedGroup => "unclosed parenthesis"
  | nestedGroup => "nested parentheses are not supported"
  | unmatchedClosing => "unmatched closing parenthesis"
  | unexpectedCharacter c => "unexpected character '" ++ String.singleton c ++ "'"

/-- A lexical fault at a byte position. -/
structure LexError where
  /-- What is wrong. -/
  fault : LexFault
  /-- Where, in bytes. -/
  position : Nat
  deriving DecidableEq, Repr

/-- Why tokens do not form a filter. A token that is out of place is named by its description. -/
inductive GrammarFault
  /-- There are no tokens. -/
  | emptyFilter
  /-- The filter is complete and a token follows. -/
  | trailing (found : String)
  /-- A group has no members. -/
  | emptyGroup
  /-- A group begins with the word `or`. -/
  | orFirst
  /-- Two of the words `or` stand side by side. -/
  | orTwice
  /-- A group ends with the word `or`. -/
  | orLast
  /-- Two members of a group touch. -/
  | unseparatedMembers
  /-- The word `or` stands where a filter should. -/
  | orOutsideGroup
  /-- A negation mark ends the text. -/
  | nothingNegated
  /-- A token stands where a filter should. -/
  | notAFilter (found : String)
  /-- A negation mark does not touch what it negates. -/
  | detachedMinus
  /-- A literal mark does not touch the name it marks. -/
  | detachedBang
  /-- A literal mark stands before a key. -/
  | markedKey (key : String)
  /-- A token stands where the name after a literal mark should. -/
  | notAName (found : String)
  /-- The key is not in the vocabulary. -/
  | unknownKey (key : String)
  /-- The key does not accept the comparison. -/
  | refusedComparison (key : String) (comparison : Comparison)
  /-- No value touches the comparison. -/
  | missingValue (key : String) (comparison : Comparison)
  deriving DecidableEq, Repr

/-- The fault in words. -/
def GrammarFault.message : GrammarFault → String
  | emptyFilter => "empty filter"
  | trailing found => "unexpected " ++ found ++ " after the filter"
  | emptyGroup => "empty group"
  | orFirst => "expected a filter before 'or'"
  | orTwice => "expected a filter between 'or's"
  | orLast => "expected a filter after 'or'"
  | unseparatedMembers => "filters in a group must be separated by whitespace or 'or'"
  | orOutsideGroup => "'or' is only allowed between filters inside parentheses"
  | nothingNegated => "expected a filter after '-'"
  | notAFilter found => "expected a filter, found " ++ found
  | detachedMinus => "'-' must be attached to the filter it negates"
  | detachedBang => "'!' must be attached to the name it marks"
  | markedKey key => "'!' cannot be used with the filter key '" ++ key ++ "'"
  | notAName found => "expected a name after '!', found " ++ found
  | unknownKey key => "unknown filter key '" ++ key ++ "'"
  | refusedComparison key comparison =>
    "filter key '" ++ key ++ "' does not accept '" ++ comparison.symbol ++ "'"
  | missingValue key comparison =>
    "expected a value after '" ++ key ++ comparison.symbol ++ "'"

/-- The cause of a failed strict reading. -/
inductive SyntaxFault
  /-- Some text does not split into tokens. -/
  | lexical (fault : LexFault)
  /-- Some tokens do not form a filter. -/
  | grammatical (fault : GrammarFault)
  deriving DecidableEq, Repr

/-- The cause in words. -/
def SyntaxFault.message : SyntaxFault → String
  | lexical fault => fault.message
  | grammatical fault => fault.message

/-- A cause with its byte position, where there is one. -/
structure SyntaxError where
  /-- What is wrong. -/
  fault : SyntaxFault
  /-- Where, in bytes. -/
  position : Option Nat
  deriving DecidableEq, Repr

/-- The error on one line. -/
def SyntaxError.display (e : SyntaxError) : String :=
  match e.position with
  | some position => "at byte " ++ toString position ++ ": " ++ e.fault.message
  | none => e.fault.message

/-- A grammatical fault at a byte position. -/
def GrammarFault.at (fault : GrammarFault) (position : Nat) : SyntaxError :=
  ⟨.grammatical fault, some position⟩

/-- A grammatical fault of the text as a whole. -/
def GrammarFault.everywhere (fault : GrammarFault) : SyntaxError :=
  ⟨.grammatical fault, none⟩

/-- A lexical fault as a cause of a failed reading. -/
def LexError.toSyntaxError (e : LexError) : SyntaxError :=
  ⟨.lexical e.fault, some e.position⟩

/-- The stage at which the strict reading of a text failed. -/
inductive Stage
  /-- The text as a whole does not split into tokens. -/
  | lexing
  /-- The tokens do not form a filter. -/
  | parsing
  deriving DecidableEq, Repr

/-- **Why a text is no filter**, with the text. -/
structure QueryError where
  /-- The stage that failed. -/
  stage : Stage
  /-- The cause and its position. -/
  cause : SyntaxError
  /-- The whole text. -/
  query : String
  deriving DecidableEq, Repr

/-! ### Reports -/

/-- The line with the caret, which is indented by the characters before a byte position. -/
def caretLine (text : String) (position : Nat) : String :=
  String.ofList (List.replicate (columnOf text.toList position + 2) ' ') ++ "^"

/-- The message, the text, and the caret for the position. -/
def LexError.display (e : LexError) (text : String) : String :=
  "filter syntax error: " ++ e.fault.message ++ "\n  " ++ text ++ "\n" ++ caretLine text e.position

namespace QueryError

/-- The cause in words. -/
def message (e : QueryError) : String :=
  e.cause.fault.message

/-- The byte position, where there is one. -/
def position (e : QueryError) : Option Nat :=
  e.cause.position

/-- **Advice on a common mistake**, found by the words of the message; the first that fits. -/
def hint (e : QueryError) : Option String :=
  if occursIn "unclosed quote" e.message then
    some "Add a closing quote to complete the value"
  else if occursIn "unclosed regex" e.message then
    some "Close the regular expression with '/'"
  else if occursIn "nested" e.message then
    some "Groups cannot contain other groups; list the filters in one group"
  else if occursIn "unknown filter key" e.message then
    some "Run 'scry keys' to list the recognized filter keys"
  else if occursIn "'or'" e.message then
    some "'or' needs a filter on both sides, e.g. '(t:instant or t:sorcery)'"
  else none

/-- The message, the text, the caret where there is a position, and the hint where there is one. -/
def display (e : QueryError) : String :=
  "filter syntax error: " ++ e.message ++ "\n  " ++ e.query ++ "\n"
    ++ (match e.position with
      | some position => caretLine e.query position ++ "\n"
      | none => "")
    ++ (match e.hint with
      | some hint => "hint: " ++ hint
      | none => "")

end QueryError

end CardFilter
