import CardFilter.Toml.Token

/-!
# Values of a TOML document

A value is a text, an integer, a truth value, a list or a table. A settings file can hold values
of other kinds as well, in places that no setting is read from; of those only what is written is
kept.

A table holds pairs of a key and a value. A key with dots puts its value into a table in a table,
which later keys with dots can fill further; a table in braces is complete where its brace closes,
and a key comes only once in a table. `CardFilter.Toml.putAt` is this rule.
-/

namespace CardFilter.Toml

/-- How a table is opened. -/
inductive TableForm
  /-- By its braces. -/
  | braces
  /-- By a header on a line of its own. -/
  | header
  /-- By keys with dots. -/
  | dots
  deriving DecidableEq, Repr

/-- A value of a document. -/
inductive Value
  /-- A text. -/
  | text (content : String)
  /-- An integer. -/
  | integer (value : Int)
  /-- A truth value. -/
  | boolean (value : Bool)
  /-- A list in brackets. -/
  | array (items : List Value)
  /-- A table. -/
  | table (form : TableForm) (pairs : List (String × Value))
  /-- A word that is well written, of a kind that no setting has. -/
  | other (written : String)
  deriving Repr, Inhabited

/-- Why a text is no settings document. -/
inductive Fault
  /-- Some part makes no token, or the tokens make no entry. -/
  | malformed
  /-- The key, or the section, comes twice. -/
  | repeated (key : String)
  /-- No setting has this key. -/
  | unknown (key : String)
  /-- The setting with this key has values of another kind. -/
  | mistyped (key : String)
  deriving DecidableEq, Repr

/-- How deep lists and tables in braces may lie in each other, and how many parts a key with dots
may have. -/
def depthLimit : Nat := 80

/-! ### Words as values -/

/-- **The value that a word writes.** -/
def wordValue? (cs : List Char) : Option Value :=
  if cs = ['t', 'r', 'u', 'e'] then some (.boolean true)
  else if cs = ['f', 'a', 'l', 's', 'e'] then some (.boolean false)
  else match integerValue? cs with
    | some n => some (.integer n)
    | none =>
      if isDecimal cs || isMoment cs || isBareBase cs then some (.other (String.ofList cs))
      else none

/-! ### Keys -/

/-- A character of a key without quotes. -/
def isKeyMark (c : Char) : Bool :=
  c.isAlphanum || c == '_' || c == '-'

/-- The parts of a word between its dots. -/
def splitDots : List Char → List (List Char)
  | [] => [[]]
  | c :: rest =>
    if c = '.' then [] :: splitDots rest
    else match splitDots rest with
      | part :: parts => (c :: part) :: parts
      | [] => [[c]]

/-- The parts of a key that a token is: a text on one line is one of them, and a word has them
between its dots. -/
def keyParts? : Token → Option (List String)
  | .text content false => some [String.ofList content]
  | .word cs =>
    if (splitDots cs).all fun part => part.all isKeyMark then
      some ((splitDots cs).map String.ofList)
    else none
  | _ => none

/-- The tokens after some token of `ts`. -/
abbrev Rest (ts : List Token) : Type :=
  { rest : List Token // rest.length < ts.length }

/-- The parts of the key at the front of the tokens. -/
def readParts (ts : List Token) : Except Fault (List String × Rest ts) :=
  match ts with
  | k :: .dot :: rest =>
    match keyParts? k, readParts rest with
    | some parts, .ok (more, ⟨after, h⟩) =>
      .ok (parts ++ more, ⟨after, Nat.lt_succ_of_lt (Nat.lt_succ_of_lt h)⟩)
    | _, _ => .error .malformed
  | k :: rest =>
    match keyParts? k with
    | some parts => .ok (parts, ⟨rest, Nat.lt_succ_self _⟩)
    | none => .error .malformed
  | [] => .error .malformed

/-- The key at the front of the tokens; it has no more parts than it may. -/
def readKey (ts : List Token) : Except Fault (List String × Rest ts) :=
  match readParts ts with
  | .ok (path, rest) => if path.length ≤ depthLimit then .ok (path, rest) else .error .malformed
  | .error e => .error e

/-! ### Tables -/

/-- The pairs with another value under a key that is there. -/
def replaceAt (key : String) (v : Value) (pairs : List (String × Value)) : List (String × Value) :=
  pairs.map fun p => if p.1 == key then (key, v) else p

/-- **The pairs with a value put under a key**, which has one part or several. Its last part must be
new where it comes, and the parts before it lead through tables that keys with dots opened. -/
def putAt : (path : List String) → Value → List (String × Value) →
    Except Fault (List (String × Value))
  | [], _, _ => .error .malformed
  | [key], v, pairs =>
    if pairs.any (·.1 == key) then .error (.repeated key) else .ok (pairs ++ [(key, v)])
  | name :: path, v, pairs =>
    match pairs.lookup name with
    | none => (putAt path v []).map fun inner => pairs ++ [(name, .table .dots inner)]
    | some (.table .dots inner) =>
      (putAt path v inner).map fun inner => replaceAt name (.table .dots inner) pairs
    | some _ => .error (.repeated name)

/-! ### Values -/

/-- The tokens after the line ends at the start. -/
def skipNewlines (ts : List Token) : List Token :=
  ts.dropWhile (· == .newline)

theorem length_skipNewlines_le (ts : List Token) : (skipNewlines ts).length ≤ ts.length :=
  (List.dropWhile_sublist _).length_le

mutual

/-- The value at the front of the tokens. Lists and tables may lie in each other `room` deep. -/
def readValue (room : Nat) (ts : List Token) : Except Fault (Value × Rest ts) :=
  match ts, room with
  | .text content _ :: rest, _ =>
    .ok (.text (String.ofList content), ⟨rest, Nat.lt_succ_self _⟩)
  | .word cs :: rest, _ =>
    match wordValue? cs with
    | some v => .ok (v, ⟨rest, Nat.lt_succ_self _⟩)
    | none => .error .malformed
  | .openBracket :: rest, room + 1 =>
    match readItems room rest with
    | .ok (items, ⟨after, h⟩) => .ok (.array items, ⟨after, Nat.lt_succ_of_lt h⟩)
    | .error e => .error e
  | .openBrace :: rest, room + 1 =>
    match readPairs room [] rest with
    | .ok (pairs, ⟨after, h⟩) => .ok (.table .braces pairs, ⟨after, Nat.lt_succ_of_lt h⟩)
    | .error e => .error e
  | _, _ => .error .malformed
termination_by (ts.length, 0)
decreasing_by all_goals simp [Prod.lex_def]

/-- The items of a list, the opening bracket being passed, up to its closing bracket. -/
def readItems (room : Nat) (ts : List Token) : Except Fault (List Value × Rest ts) :=
  match _hts : skipNewlines ts with
  | .closeBracket :: rest =>
    .ok ([], ⟨rest, Nat.lt_of_lt_of_le (by rw [_hts]; simp) (length_skipNewlines_le ts)⟩)
  | t :: rest =>
    match readValue room (t :: rest) with
    | .error e => .error e
    | .ok (v, ⟨after, hafter⟩) =>
      match _hafter : skipNewlines after with
      | .closeBracket :: final => .ok ([v], ⟨final, by
          have := length_skipNewlines_le ts
          have := length_skipNewlines_le after
          simp only [_hts, _hafter, List.length_cons] at *
          omega⟩)
      | .comma :: more =>
        match readItems room more with
        | .ok (items, ⟨final, hfinal⟩) => .ok (v :: items, ⟨final, by
            have := length_skipNewlines_le ts
            have := length_skipNewlines_le after
            simp only [_hts, _hafter, List.length_cons] at *
            omega⟩)
        | .error e => .error e
      | _ => .error .malformed
  | [] => .error .malformed
termination_by (ts.length, 1)
decreasing_by
  · have := length_skipNewlines_le ts
    rw [_hts] at this
    simp only [Prod.lex_def]
    omega
  · have := length_skipNewlines_le ts
    have := length_skipNewlines_le after
    simp only [_hts, _hafter, List.length_cons, Prod.lex_def] at *
    omega

/-- The pairs of a table in braces, `before` being those that precede, up to its closing brace.
Lines may end around a key and around a value, but not within a key. -/
def readPairs (room : Nat) (before : List (String × Value)) (ts : List Token) :
    Except Fault (List (String × Value) × Rest ts) :=
  match _hts : skipNewlines ts with
  | .closeBrace :: rest =>
    .ok (before, ⟨rest, Nat.lt_of_lt_of_le (by rw [_hts]; simp) (length_skipNewlines_le ts)⟩)
  | t :: rest =>
    match readKey (t :: rest) with
    | .error e => .error e
    | .ok (path, ⟨afterKey, hkey⟩) =>
      match _hequals : skipNewlines afterKey with
      | .equals :: rest' =>
        match readValue room (skipNewlines rest') with
        | .error e => .error e
        | .ok (v, ⟨after, hafter⟩) =>
          match putAt path v before with
          | .error e => .error e
          | .ok pairs =>
            match _hafter : skipNewlines after with
            | .closeBrace :: final => .ok (pairs, ⟨final, by
                have := length_skipNewlines_le ts
                have := length_skipNewlines_le afterKey
                have := length_skipNewlines_le rest'
                have := length_skipNewlines_le after
                simp only [_hts, _hequals, _hafter, List.length_cons] at *
                omega⟩)
            | .comma :: more =>
              match readPairs room pairs more with
              | .ok (pairs, ⟨final, hfinal⟩) => .ok (pairs, ⟨final, by
                  have := length_skipNewlines_le ts
                  have := length_skipNewlines_le afterKey
                  have := length_skipNewlines_le rest'
                  have := length_skipNewlines_le after
                  simp only [_hts, _hequals, _hafter, List.length_cons] at *
                  omega⟩)
              | .error e => .error e
            | _ => .error .malformed
      | _ => .error .malformed
  | [] => .error .malformed
termination_by (ts.length, 1)
decreasing_by
  · have := length_skipNewlines_le ts
    have := length_skipNewlines_le afterKey
    have := length_skipNewlines_le rest'
    simp only [_hts, _hequals, List.length_cons, Prod.lex_def] at *
    omega
  · have := length_skipNewlines_le ts
    have := length_skipNewlines_le afterKey
    have := length_skipNewlines_le rest'
    have := length_skipNewlines_le after
    simp only [_hts, _hequals, _hafter, List.length_cons, Prod.lex_def] at *
    omega

end

end CardFilter.Toml
