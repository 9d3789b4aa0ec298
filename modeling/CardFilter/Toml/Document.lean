import CardFilter.Toml.Value

/-!
# TOML documents of settings

A settings document is a table. Its lines hold a key with a value each, or a header that opens a
section; the lines under a header put their values into the section. Keys with dots put a value
into a section as well, where no header does.

No setting lies deeper than in a section, so a header has a key of one part only. Lists of tables
are refused too, as a document with one of them can hold no settings.
-/

namespace CardFilter.Toml

/-- A document, as far as it has been read. -/
structure Document where
  /-- The keys of the document with their values, in order. -/
  pairs : List (String × Value)
  /-- The section under the last header. -/
  current : Option String
  deriving Repr

namespace Document

/-- Nothing has been read. -/
def empty : Document :=
  ⟨[], none⟩

/-- The document with a value put under a key, in the section that is open. -/
def put (path : List String) (v : Value) (d : Document) : Except Fault Document :=
  match d.current with
  | none => (putAt path v d.pairs).map fun pairs => { d with pairs }
  | some name =>
    match d.pairs.lookup name with
    | some (.table form inner) =>
      (putAt path v inner).map fun inner =>
        { d with pairs := replaceAt name (.table form inner) d.pairs }
    | _ => .error (.mistyped name)

/-- The document with a section opened. -/
def openSection (name : String) (d : Document) : Except Fault Document :=
  if d.pairs.any (·.1 == name) then .error (.repeated name)
  else .ok ⟨d.pairs ++ [(name, .table .header [])], some name⟩

/-- What follows a line that is complete. -/
def endLine : List Token → Except Fault (List Token)
  | [] => .ok []
  | .newline :: rest => .ok rest
  | _ => .error .malformed

theorem length_le_of_endLine {ts rest : List Token} (h : endLine ts = .ok rest) :
    rest.length ≤ ts.length := by
  unfold endLine at h
  split at h
  · cases h; exact Nat.le_refl _
  · cases h; exact Nat.le_succ _
  · cases h

/-- The document with what the lines of the tokens add to it. -/
def readLines (d : Document) (ts : List Token) : Except Fault Document :=
  match ts with
  | [] => .ok d
  | .newline :: rest => readLines d rest
  | .openBracket :: k :: .closeBracket :: rest =>
    match keyParts? k with
    | some [name] =>
      match _hend : endLine rest with
      | .error e => .error e
      | .ok after =>
        match d.openSection name with
        | .error e => .error e
        | .ok d => readLines d after
    | some parts => .error (.unknown (".".intercalate parts))
    | none => .error .malformed
  | t :: rest =>
    match readKey (t :: rest) with
    | .error e => .error e
    | .ok (path, ⟨.equals :: rest', _hkey⟩) =>
      match readValue depthLimit rest' with
      | .error e => .error e
      | .ok (v, ⟨after, _hafter⟩) =>
        match _hend : endLine after with
        | .error e => .error e
        | .ok final =>
          match d.put path v with
          | .error e => .error e
          | .ok d => readLines d final
    | .ok _ => .error .malformed
termination_by ts.length
decreasing_by
  · exact Nat.lt_succ_self _
  · have := length_le_of_endLine _hend
    simp only [List.length_cons]
    omega
  · have := length_le_of_endLine _hend
    simp only [List.length_cons] at *
    omega

/-- The mark that may stand at the very start of a document and says nothing. -/
def dropByteOrderMark : List Char → List Char
  | '\ufeff' :: rest => rest
  | cs => cs

/-- **The document that a text writes.** -/
def ofText (text : String) : Except Fault Document :=
  match tokens? (dropByteOrderMark text.toList) with
  | none => .error .malformed
  | some ts => readLines empty ts

end Document

end CardFilter.Toml
