import CardFilter.Toml.Document
import CardFilter.Toml.Written

/-!
# Formats of settings files

Settings are printed section by section, and a settings file is asked for the values under its keys.
What the text in between looks like is left to a format. All that settings need of one is that it
reads back what it writes (`CardFilter.Toml.Format.ReadsBack`).
-/

namespace CardFilter.Toml

/-- **A format of settings files.** -/
structure Format where
  /-- The text of some sections. -/
  write : List Section → String
  /-- The keys that a text has at its top, with their values. -/
  read : String → Except Fault (List (String × Value))

/-- The value as it is read. -/
def Plain.value : Plain → Value
  | integer n => .integer (Int.ofNat n)
  | text s => .text s
  | texts ss => .array (ss.map .text)

/-- The section as it is read: its name, with a table of its settings. -/
def Section.pair (s : Section) : String × Value :=
  (s.name, .table .header (s.settings.map fun e => (e.1, e.2.value)))

/-- The key can be written without quotes. -/
def IsBareKey (key : String) : Prop :=
  key.toList ≠ [] ∧ ∀ c ∈ key.toList, isKeyMark c = true

/-- The value has no number of more than 64 bits. -/
def Plain.Fits : Plain → Prop
  | integer n => n < 0x10000000000000000
  | text _ | texts _ => True

/-- The section can be written: its keys are plain and pairwise different, and its values fit. -/
structure Section.IsWritable (s : Section) : Prop where
  /-- The name is plain. -/
  name : IsBareKey s.name
  /-- The keys are plain. -/
  keys : ∀ e ∈ s.settings, IsBareKey e.1
  /-- No key comes twice. -/
  nodup : (s.settings.map (·.1)).Nodup
  /-- The values fit. -/
  values : ∀ e ∈ s.settings, e.2.Fits

/-- **The format reads back what it writes**, of sections with names that are pairwise different. -/
def Format.ReadsBack (f : Format) : Prop :=
  ∀ sections : List Section, (∀ s ∈ sections, s.IsWritable) → (sections.map (·.name)).Nodup →
    f.read (f.write sections) = .ok (sections.map Section.pair)

/-- The format of settings files, of which each section stands under a header. -/
def Format.standard : Format where
  write := writeSections
  read text := (Document.ofText text).map (·.pairs)

end CardFilter.Toml
