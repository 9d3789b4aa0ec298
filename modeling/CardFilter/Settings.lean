import CardFilter.FilePath
import CardFilter.Filter.Parse
import CardFilter.Toml.Format

/-!
# Settings

A settings file says how suggestions are made, where the card names are, and which filters are
saved. Every entry of a file can be missing; this file holds what one file says,
`CardFilter.FileSettings`, and what holds in the end, `CardFilter.Settings`.
-/

namespace CardFilter

/-- The name of every settings file. -/
def settingsFileName : String := ".scry.toml"

/-- How suggestions are made. -/
structure SuggestSettings where
  /-- How many suggestions each source may give. -/
  limit : Nat
  /-- The quiet period before a lookup, in milliseconds. -/
  debounce : Nat
  /-- The least length of a name that is looked up. -/
  minNameLength : Nat
  /-- How many filters used lately are kept. -/
  historySize : Nat
  deriving DecidableEq, Repr

/-- What holds where no file says otherwise. -/
def SuggestSettings.default : SuggestSettings :=
  ⟨10, 250, 2, 100⟩

/-- The saved filters, as they are written. -/
structure SavedFilters where
  /-- The pinned filters. -/
  pinned : List String
  /-- The filters used lately, the most recent first. -/
  history : List String
  deriving DecidableEq, Repr

/-- **The settings that hold.** -/
structure Settings where
  /-- How suggestions are made. -/
  suggest : SuggestSettings
  /-- The file with the card names. -/
  names : Option FilePath
  /-- The saved filters. -/
  filters : SavedFilters
  /-- The files that were read, the most specific first. -/
  files : List FilePath
  /-- The directory of the most specific file. -/
  root : Option FilePath
  deriving DecidableEq, Repr

/-- The settings where there is no file. -/
def Settings.default : Settings :=
  ⟨.default, none, ⟨[], []⟩, [], none⟩

/-- The filters among some texts; a text that is no filter is passed over. -/
def readFilters (texts : List String) : List Filter :=
  texts.filterMap fun text => (Filter.parse text).toOption

/-! ### What one file says -/

/-- What a file says of suggestions. -/
structure FileSuggest where
  /-- How many suggestions each source may give. -/
  limit : Option Nat
  /-- The quiet period before a lookup, in milliseconds. -/
  debounce : Option Nat
  /-- The least length of a name that is looked up. -/
  minNameLength : Option Nat
  /-- How many filters used lately are kept. -/
  historySize : Option Nat
  deriving DecidableEq, Repr

/-- What a file says of the card names. -/
structure FileCatalog where
  /-- The file with the card names. -/
  names : Option String
  deriving DecidableEq, Repr

/-- What a file says of saved filters. -/
structure FileFilters where
  /-- The pinned filters. -/
  pinned : Option (List String)
  /-- The filters used lately. -/
  history : Option (List String)
  deriving DecidableEq, Repr

/-- **What a file says.** -/
structure FileSettings where
  /-- Files in directories above do not count. -/
  root : Option Bool
  /-- The section on suggestions. -/
  suggest : Option FileSuggest
  /-- The section on the card names. -/
  catalog : Option FileCatalog
  /-- The section on saved filters. -/
  filters : Option FileFilters
  deriving DecidableEq, Repr

namespace FileSettings

open Toml (Fault Format)

/-- A number of at most 64 bits. -/
def natural (key : String) : Toml.Value → Except Fault Nat
  | .integer n => if 0 ≤ n ∧ n < 0x10000000000000000 then .ok n.toNat else .error (.mistyped key)
  | _ => .error (.mistyped key)

/-- A text. -/
def text (key : String) : Toml.Value → Except Fault String
  | .text s => .ok s
  | _ => .error (.mistyped key)

/-- A truth value. -/
def truth (key : String) : Toml.Value → Except Fault Bool
  | .boolean b => .ok b
  | _ => .error (.mistyped key)

/-- The texts of a list. -/
def textItems (key : String) : List Toml.Value → Except Fault (List String)
  | [] => .ok []
  | v :: rest =>
    match text key v, textItems key rest with
    | .ok s, .ok ss => .ok (s :: ss)
    | .error e, _ => .error e
    | _, .error e => .error e

/-- Texts, given as a list or as a single text. -/
def texts (key : String) : Toml.Value → Except Fault (List String)
  | .text s => .ok [s]
  | .array items => textItems key items
  | _ => .error (.mistyped key)

/-- The pairs, where each has one of the given keys. -/
def known (keys : List String) (pairs : List (String × Toml.Value)) :
    Except Fault (List (String × Toml.Value)) :=
  match pairs.find? fun p => p.1 ∉ keys with
  | some p => .error (.unknown p.1)
  | none => .ok pairs

/-- The pairs of a section with the given keys. The section can be a table, or a list of values in
the order of the keys; of a list, what goes beyond the keys is not read. -/
def pairsOf (name : String) (keys : List String) :
    Toml.Value → Except Fault (List (String × Toml.Value))
  | .table _ pairs => known keys pairs
  | .array items => .ok (keys.zip items)
  | _ => .error (.mistyped name)

/-- The setting with the given key, if it is there. -/
def setting (read : String → Toml.Value → Except Fault α) (key : String)
    (pairs : List (String × Toml.Value)) : Except Fault (Option α) :=
  match pairs.lookup key with
  | none => .ok none
  | some v => (read key v).map some

/-- The section on suggestions. -/
def suggestOf (name : String) (v : Toml.Value) : Except Fault FileSuggest := do
  let pairs ← pairsOf name ["limit", "debounce_ms", "min_name_length", "history_size"] v
  return ⟨← setting natural "limit" pairs, ← setting natural "debounce_ms" pairs,
    ← setting natural "min_name_length" pairs, ← setting natural "history_size" pairs⟩

/-- The section on the card names. -/
def catalogOf (name : String) (v : Toml.Value) : Except Fault FileCatalog := do
  let pairs ← pairsOf name ["names"] v
  return ⟨← setting text "names" pairs⟩

/-- The section on saved filters. -/
def filtersOf (name : String) (v : Toml.Value) : Except Fault FileFilters := do
  let pairs ← pairsOf name ["pinned", "history"] v
  return ⟨← setting texts "pinned" pairs, ← setting texts "history" pairs⟩

/-- **What the keys of a file say.** Every key must be a known one. -/
def ofPairs (given : List (String × Toml.Value)) : Except Fault FileSettings := do
  let pairs ← known ["root", "suggest", "catalog", "filters"] given
  return ⟨← setting truth "root" pairs, ← setting suggestOf "suggest" pairs,
    ← setting catalogOf "catalog" pairs, ← setting filtersOf "filters" pairs⟩

/-- **What the text of a file says** in some format. -/
def ofTextIn (format : Format) (text : String) : Except Fault FileSettings := do
  ofPairs (← format.read text)

/-- What the text of a file says. -/
def ofText (text : String) : Except Fault FileSettings :=
  ofTextIn .standard text

/-- The file keeps those in the directories above from counting. -/
def isRoot (s : FileSettings) : Bool :=
  s.root == some true

end FileSettings

end CardFilter
