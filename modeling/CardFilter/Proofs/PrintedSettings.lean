import Mathlib
import CardFilter.Proofs.DocumentLines
import CardFilter.Proofs.NamesFile
import CardFilter.Settings.Written

/-!
# Printed settings load back

Settings that were merged from files can be printed, and what is printed is a settings file again.
Loaded on its own, it gives the settings it was printed from. Three facts meet in this.

* The format of settings files reads back what it writes (`CardFilter.Toml.Format.ReadsBack`, which
  is all that is asked of it). Only numbers could be too large for it, and those of a settings file
  are not (`CardFilter.fits_of_ofTextIn`).
* Merged settings name an absolute path, so that no home directory and no directory of a file is
  needed to read it a second time (`CardFilter.exists_mergeNames`).
* Merged lists hold nothing twice, so that merging them again changes nothing.

What can go wrong is the path for the card names. It is taken from the directory of a settings file
or from the home directory, and **a path need not have a text**; without one there is nothing to
print (`CardFilter.print?_eq_none_of_directory`). This is the only case.

The main statement is `CardFilter.load_printed_settings`.
-/

namespace CardFilter

open Toml (Format Plain)

/-! ### What is printed -/

/-- The numbers of a section on suggestions are at most 64 bits long. -/
def SuggestSettings.Fits (s : SuggestSettings) : Prop :=
  ∀ n ∈ [s.limit, s.debounce, s.minNameLength, s.historySize], n < 0x10000000000000000

/-- The setting that gives a text for the names file, if there is one. -/
def namesSettings (text : Option String) : List (String × Plain) :=
  text.toList.map fun s => ("names", .text s)

/-- What a file says that settings are printed as, with a text for the names file. -/
def Settings.saidWith (c : Settings) (text : Option String) : FileSettings where
  root := none
  suggest := some ⟨some c.suggest.limit, some c.suggest.debounce, some c.suggest.minNameLength,
    some c.suggest.historySize⟩
  catalog := some ⟨text⟩
  filters := some ⟨some c.filters.pinned, some c.filters.history⟩

theorem namesSettings?_eq_some_iff {names : Option FilePath} {settings : List (String × Plain)} :
    namesSettings? names = some settings ↔
      ∃ text : Option String, names = text.map .ofText ∧ settings = namesSettings text := by
  constructor
  · intro h
    cases names with
    | none => exact ⟨none, rfl, (Option.some.inj h).symm⟩
    | some path =>
      obtain ⟨text, htext, rfl⟩ := Option.map_eq_some_iff.mp h
      exact ⟨some text, congrArg some (FilePath.text?_eq_some_iff.mp htext), rfl⟩
  · rintro ⟨text, rfl, rfl⟩
    cases text with
    | none => rfl
    | some text => simp [namesSettings?, namesSettings]

/-- **Nothing is printed just where the path for the card names has no text.** -/
theorem Settings.print?_eq_none_iff {format : Format} {c : Settings} :
    c.print? format = none ↔ ∃ p ∈ c.names, p.text? = none := by
  rw [print?, Option.map_eq_none_iff]
  cases c.names <;> simp [namesSettings?]

/-- The names of the sections and the keys of their settings. -/
def printedKeys : List String :=
  ["suggest", "limit", "debounce_ms", "min_name_length", "history_size", "catalog", "names",
    "filters", "pinned", "history"]

theorem isBareKey_of_mem : ∀ key ∈ printedKeys, Toml.IsBareKey key := by
  have hkeys : (printedKeys.all fun key => key.toList != [] && key.toList.all Toml.isKeyMark)
      = true := by decide +kernel
  intro key hkey
  have hbare := List.all_eq_true.mp hkeys key hkey
  rwa [Bool.and_eq_true, bne_iff_ne, List.all_eq_true] at hbare

theorem isWritable_of_mem {name : String} {settings : List (String × Plain)}
    (hname : name ∈ printedKeys) (hkeys : ∀ e ∈ settings, e.1 ∈ printedKeys)
    (hnodup : (settings.map (·.1)).Nodup) (hvalues : ∀ e ∈ settings, e.2.Fits) :
    Toml.Section.IsWritable ⟨name, settings⟩ :=
  ⟨isBareKey_of_mem name hname, fun e he => isBareKey_of_mem _ (hkeys e he), hnodup, hvalues⟩

/-- The sections of settings can be written, if their numbers fit. -/
theorem Settings.isWritable_of_mem_sectionsWith {c : Settings} (h : c.suggest.Fits)
    (text : Option String) : ∀ s ∈ c.sectionsWith (namesSettings text), s.IsWritable := by
  simp only [SuggestSettings.Fits, List.forall_mem_cons] at h
  obtain ⟨hlimit, hdebounce, hmin, hhistory, -⟩ := h
  simp only [sectionsWith, List.forall_mem_cons]
  refine ⟨?suggest, ?catalog, ?filters, fun _ h => absurd h List.not_mem_nil⟩
  case suggest =>
    exact isWritable_of_mem (by simp [printedKeys]) (by simp [printedKeys]) (by simp)
      (by simp [Plain.Fits, hlimit, hdebounce, hmin, hhistory])
  case catalog =>
    cases text <;>
      exact isWritable_of_mem (by simp [printedKeys]) (by simp [printedKeys, namesSettings])
        (by simp [namesSettings]) (by simp [namesSettings, Plain.Fits])
  case filters =>
    exact isWritable_of_mem (by simp [printedKeys]) (by simp [printedKeys]) (by simp)
      (by simp [Plain.Fits])

/-! ### What the printed file says -/

theorem ok_bind {α β : Type} (a : α) (f : α → Except Toml.Fault β) : (Except.ok a >>= f) = f a :=
  rfl

theorem pure_eq_ok {α : Type} (a : α) : (pure a : Except Toml.Fault α) = .ok a :=
  rfl

theorem natural_of_lt {n : Nat} (h : n < 0x10000000000000000) (key : String) :
    FileSettings.natural key (.integer (Int.ofNat n)) = .ok n := by
  rw [FileSettings.natural, if_pos ⟨Int.natCast_nonneg n, Int.ofNat_lt.mpr h⟩]
  rfl

theorem textItems_map_text (key : String) (ss : List String) :
    FileSettings.textItems key (ss.map .text) = .ok ss := by
  induction ss with
  | nil => rfl
  | cons s ss ih => rw [List.map_cons, FileSettings.textItems, FileSettings.text, ih]

theorem setting_of_lookup {α : Type} {read : String → Toml.Value → Except Toml.Fault α}
    {key : String} {pairs : List (String × Toml.Value)} {v : Toml.Value} {a : α}
    (h : pairs.lookup key = some v) (hread : read key v = .ok a) :
    FileSettings.setting read key pairs = .ok (some a) := by
  rw [FileSettings.setting, h]
  simp only [hread]
  rfl

theorem known_of_forall {keys : List String} {pairs : List (String × Toml.Value)}
    (h : ∀ p ∈ pairs, p.1 ∈ keys) : FileSettings.known keys pairs = .ok pairs := by
  have hnone : pairs.find? (fun p => p.1 ∉ keys) = none := by simpa using h
  rw [FileSettings.known, hnone]

theorem suggestOf_pair {c : Settings} (h : c.suggest.Fits) (name : String) :
    FileSettings.suggestOf name (.table .header
        [("limit", .integer (Int.ofNat c.suggest.limit)),
          ("debounce_ms", .integer (Int.ofNat c.suggest.debounce)),
          ("min_name_length", .integer (Int.ofNat c.suggest.minNameLength)),
          ("history_size", .integer (Int.ofNat c.suggest.historySize))])
      = .ok ⟨some c.suggest.limit, some c.suggest.debounce, some c.suggest.minNameLength,
        some c.suggest.historySize⟩ := by
  simp only [SuggestSettings.Fits, List.forall_mem_cons] at h
  obtain ⟨hlimit, hdebounce, hmin, hhistory, -⟩ := h
  rw [FileSettings.suggestOf, FileSettings.pairsOf, known_of_forall (by simp), ok_bind,
    setting_of_lookup rfl (natural_of_lt hlimit "limit"), ok_bind,
    setting_of_lookup rfl (natural_of_lt hdebounce "debounce_ms"), ok_bind,
    setting_of_lookup rfl (natural_of_lt hmin "min_name_length"), ok_bind,
    setting_of_lookup rfl (natural_of_lt hhistory "history_size"), ok_bind, pure_eq_ok]

theorem catalogOf_pair (text : Option String) (name : String) :
    FileSettings.catalogOf name
        (.table .header ((namesSettings text).map fun e => (e.1, e.2.value)))
      = .ok ⟨text⟩ := by
  cases text <;> rfl

theorem filtersOf_pair (s : SavedFilters) (name : String) :
    FileSettings.filtersOf name (.table .header
        [("pinned", .array (s.pinned.map .text)), ("history", .array (s.history.map .text))])
      = .ok ⟨some s.pinned, some s.history⟩ := by
  have hread (key : String) (ss : List String) :
      FileSettings.texts key (.array (ss.map .text)) = .ok ss := textItems_map_text key ss
  rw [FileSettings.filtersOf, FileSettings.pairsOf, known_of_forall (by simp), ok_bind,
    setting_of_lookup rfl (hread "pinned" _), ok_bind,
    setting_of_lookup rfl (hread "history" _), ok_bind, pure_eq_ok]

/-- **Printed settings are read as what they say**, in any format that reads back what it writes. -/
theorem Settings.ofTextIn_write {format : Format} (hformat : format.ReadsBack) {c : Settings}
    (h : c.suggest.Fits) (text : Option String) :
    FileSettings.ofTextIn format (format.write (c.sectionsWith (namesSettings text)))
      = .ok (c.saidWith text) := by
  rw [FileSettings.ofTextIn, hformat _ (isWritable_of_mem_sectionsWith h text)
    (by simp [sectionsWith]), ok_bind,
    FileSettings.ofPairs, known_of_forall (by simp [sectionsWith, Toml.Section.pair]), ok_bind]
  have hroot : FileSettings.setting FileSettings.truth "root"
      ((c.sectionsWith (namesSettings text)).map Toml.Section.pair) = .ok none := rfl
  rw [hroot, ok_bind, setting_of_lookup rfl (suggestOf_pair h "suggest"), ok_bind,
    setting_of_lookup rfl (catalogOf_pair text "catalog"), ok_bind,
    setting_of_lookup rfl (filtersOf_pair c.filters "filters"), ok_bind, pure_eq_ok, saidWith]

/-! ### Numbers of settings files -/

/-- The numbers that a file gives are at most 64 bits long. -/
def FileSuggest.Fits (said : FileSuggest) : Prop :=
  ∀ given ∈ [said.limit, said.debounce, said.minNameLength, said.historySize],
    ∀ n ∈ given, n < 0x10000000000000000

theorem exists_of_bind_eq_ok {α β : Type} {x : Except Toml.Fault α}
    {f : α → Except Toml.Fault β} {b : β} (h : (x >>= f) = .ok b) :
    ∃ a, x = .ok a ∧ f a = .ok b := by
  cases x with
  | error e => cases h
  | ok a => exact ⟨a, rfl, h⟩

theorem exists_of_setting_eq_ok {α : Type} {read : String → Toml.Value → Except Toml.Fault α}
    {key : String} {pairs : List (String × Toml.Value)} {a : α}
    (h : FileSettings.setting read key pairs = .ok (some a)) : ∃ v, read key v = .ok a := by
  rw [FileSettings.setting] at h
  split at h
  · cases h
  · rename_i v hv
    cases hread : read key v with
    | error e =>
      rw [hread] at h
      cases h
    | ok b =>
      rw [hread] at h
      exact ⟨v, hread.trans (congrArg _ (Option.some.inj (Except.ok.inj h)))⟩

theorem lt_of_natural {key : String} {v : Toml.Value} {n : Nat}
    (h : FileSettings.natural key v = .ok n) : n < 0x10000000000000000 := by
  unfold FileSettings.natural at h
  split at h
  · split at h
    · rename_i m hm
      rw [← Except.ok.inj h]
      omega
    · cases h
  · cases h

theorem fits_of_suggestOf {name : String} {v : Toml.Value} {said : FileSuggest}
    (h : FileSettings.suggestOf name v = .ok said) : said.Fits := by
  have hsetting {key : String} {pairs : List (String × Toml.Value)} {given : Option Nat}
      (h : FileSettings.setting FileSettings.natural key pairs = .ok given) :
      ∀ n ∈ given, n < 0x10000000000000000 := by
    intro n hn
    rw [Option.mem_def.mp hn] at h
    obtain ⟨v, hv⟩ := exists_of_setting_eq_ok h
    exact lt_of_natural hv
  rw [FileSettings.suggestOf] at h
  obtain ⟨pairs, -, h⟩ := exists_of_bind_eq_ok h
  obtain ⟨limit, hlimit, h⟩ := exists_of_bind_eq_ok h
  obtain ⟨debounce, hdebounce, h⟩ := exists_of_bind_eq_ok h
  obtain ⟨minimum, hminimum, h⟩ := exists_of_bind_eq_ok h
  obtain ⟨history, hhistory, h⟩ := exists_of_bind_eq_ok h
  cases h
  simp only [FileSuggest.Fits, List.forall_mem_cons]
  exact ⟨hsetting hlimit, hsetting hdebounce, hsetting hminimum, hsetting hhistory,
    fun _ h => absurd h List.not_mem_nil⟩

/-- **The numbers that an accepted file gives fit.** -/
theorem fits_of_ofTextIn {format : Format} {text : String} {said : FileSettings}
    (h : FileSettings.ofTextIn format text = .ok said) :
    ∀ suggest ∈ said.suggest, suggest.Fits := by
  rw [FileSettings.ofTextIn] at h
  obtain ⟨given, -, h⟩ := exists_of_bind_eq_ok h
  rw [FileSettings.ofPairs] at h
  obtain ⟨pairs, -, h⟩ := exists_of_bind_eq_ok h
  obtain ⟨root, -, h⟩ := exists_of_bind_eq_ok h
  obtain ⟨suggest, hsuggest, h⟩ := exists_of_bind_eq_ok h
  obtain ⟨catalog, -, h⟩ := exists_of_bind_eq_ok h
  obtain ⟨filters, -, h⟩ := exists_of_bind_eq_ok h
  cases h
  rintro given rfl
  obtain ⟨v, hv⟩ := exists_of_setting_eq_ok hsuggest
  exact fits_of_suggestOf hv

/-! ### Merged settings -/

section Merge

variable {path : FilePath} {files : List SettingsFile}

theorem fits_mergeSuggest (h : ∀ f ∈ files, ∀ said ∈ f.settings.suggest, said.Fits) :
    (mergeSuggest files).Fits := by
  have hgiven {get : FileSuggest → Option Nat} {default : Nat}
      (hdefault : default < 0x10000000000000000)
      (hget : ∀ said : FileSuggest, said.Fits → ∀ n ∈ get said, n < 0x10000000000000000) :
      firstGiven get default files < 0x10000000000000000 := by
    rw [firstGiven]
    cases hfind : files.findSome? fun f => f.settings.suggest.bind get with
    | none => exact hdefault
    | some n =>
      obtain ⟨f, hf, hn⟩ := List.exists_of_findSome?_eq_some hfind
      obtain ⟨said, hsaid, hn⟩ := Option.bind_eq_some_iff.mp hn
      exact hget said (h f hf said hsaid) n hn
  simp only [SuggestSettings.Fits, mergeSuggest_eq, List.forall_mem_cons]
  exact ⟨hgiven (by decide) fun said hsaid => hsaid _ (by simp),
    hgiven (by decide) fun said hsaid => hsaid _ (by simp),
    hgiven (by decide) fun said hsaid => hsaid _ (by simp),
    hgiven (by decide) fun said hsaid => hsaid _ (by simp), fun _ h => absurd h List.not_mem_nil⟩

/-- Settings that were merged hold no filter twice. -/
theorem distinct_mergeFilters (files : List SettingsFile) :
    distinct (mergeFilters files).pinned = (mergeFilters files).pinned ∧
      distinct (mergeFilters files).history = (mergeFilters files).history := by
  rw [mergeFilters_eq]
  exact ⟨distinctBy_distinctBy id _, distinctBy_distinctBy id _⟩

/-- **What printed settings say on their own**: themselves, if they name an absolute path and hold
no filter twice. -/
theorem mergeSettings_saidWith {c : Settings} {text : Option String} (home : Option FilePath)
    (path : FilePath) (htext : c.names = text.map .ofText)
    (hnames : ∀ p ∈ c.names, p.isAbsolute = true)
    (hpinned : distinct c.filters.pinned = c.filters.pinned)
    (hhistory : distinct c.filters.history = c.filters.history) :
    ∃ c', mergeSettings home [⟨path, c.saidWith text⟩] = .ok c' ∧
      c'.suggest = c.suggest ∧ c'.names = c.names ∧ c'.filters = c.filters := by
  have hmerged : mergeNames home [⟨path, c.saidWith text⟩] = .ok c.names := by
    cases text with
    | none => simp [mergeNames, SettingsFile.names, Settings.saidWith, htext]
    | some text =>
      have habsolute : (FilePath.ofText text).isAbsolute = true := hnames _ (by simp [htext])
      have hresolve := resolvePath_of_isAbsolute habsolute (FilePath.text?_ofText text) home
        (SettingsFile.directory ⟨path, c.saidWith (some text)⟩)
      simp [mergeNames, SettingsFile.names, Settings.saidWith, htext] at hresolve ⊢
      rw [hresolve]
      rfl
  refine ⟨_, mergeSettings_of_mergeNames hmerged, rfl, rfl, ?_⟩
  simp [mergeFilters_eq, SettingsFile.filters, Settings.saidWith, hpinned, hhistory]

end Merge

/-- **Printed settings load back unchanged.** Settings that are merged from accepted files at
absolute paths are printed unless the path for the card names has no text, which does not happen
where the home directory and the files are at paths with a text. What is printed is a settings file.
Under any path, that file alone gives the same numbers, the same names file, and the same filters in
the same order. -/
theorem load_printed_settings {format : Format} (hformat : format.ReadsBack) (home : FilePath)
    {files : List SettingsFile} (hpaths : ∀ f ∈ files, f.path.isAbsolute = true)
    (haccepted : ∀ f ∈ files, ∃ text, FileSettings.ofTextIn format text = .ok f.settings) :
    ∃ c, mergeSettings (some home) files = .ok c ∧
      (c.print? format = none ↔ ∃ p ∈ c.names, p.text? = none) ∧
      (home.IsText → (∀ f ∈ files, f.path.IsText) → c.print? format ≠ none) ∧
      ∀ t, c.print? format = some t → ∃ said, FileSettings.ofTextIn format t = .ok said ∧
        ∀ path, ∃ c', mergeSettings (some home) [⟨path, said⟩] = .ok c' ∧
          c'.suggest = c.suggest ∧ c'.names = c.names ∧ c'.filters = c.filters := by
  obtain ⟨names, hnames, hpath⟩ := exists_mergeNames home hpaths
  obtain ⟨hpinned, hhistory⟩ := distinct_mergeFilters files
  have hfits : (mergeSuggest files).Fits := fits_mergeSuggest fun f hf => by
    obtain ⟨text, htext⟩ := haccepted f hf
    exact fits_of_ofTextIn htext
  refine ⟨_, mergeSettings_of_mergeNames hnames, Settings.print?_eq_none_iff, ?_, ?_⟩
  · intro hhome htexts hnone
    obtain ⟨p, hp, htext⟩ := Settings.print?_eq_none_iff.mp hnone
    exact FilePath.text?_ne_none_iff.mpr ((hpath p hp).2 hhome htexts) htext
  · intro t ht
    obtain ⟨settings, hsettings, rfl⟩ := Option.map_eq_some_iff.mp ht
    obtain ⟨text, htext, rfl⟩ := namesSettings?_eq_some_iff.mp hsettings
    refine ⟨_, Settings.ofTextIn_write hformat hfits text, fun path => ?_⟩
    exact mergeSettings_saidWith (some home) path htext (fun p hp => (hpath p hp).1) hpinned
      hhistory

/-- A file with a path in the home directory and with filters that hold a quote, a line end and a
backslash. -/
def quotedFile : SettingsFile :=
  ⟨.ofText "/p/.scry.toml",
    ⟨none, none, some ⟨some "~/c"⟩, some ⟨some ["\"\n", "\\"], some ["t:a"]⟩⟩⟩

/-- The settings of this file are printed and load back. -/
theorem load_printed_settings_quotes : Format.standard.ReadsBack ∧
    quotedFile.path.isAbsolute = true ∧
    FileSettings.ofText "catalog = ['~/c']\nfilters = [['\'\'\n\"\n\'\'', '\\'], 't:a']\n"
      = .ok quotedFile.settings ∧
    ∃ c t, mergeSettings (some (.ofText "/h")) [quotedFile] = .ok c ∧
      c.print? .standard = some t ∧ ∃ said, FileSettings.ofTextIn .standard t = .ok said ∧
        ∀ path, ∃ c', mergeSettings (some (.ofText "/h")) [⟨path, said⟩] = .ok c' ∧
          c'.suggest = c.suggest ∧ c'.names = c.names ∧ c'.filters = c.filters := by
  have htext : FileSettings.ofText
      "catalog = ['~/c']\nfilters = [['\'\'\n\"\n\'\'', '\\'], 't:a']\n"
      = .ok quotedFile.settings := by cbv
  have habsolute : quotedFile.path.isAbsolute = true := by decide
  have hpaths : ∀ f ∈ [quotedFile], f.path.isAbsolute = true := fun f hf =>
    List.mem_singleton.mp hf ▸ habsolute
  have haccepted : ∀ f ∈ [quotedFile], ∃ text,
      FileSettings.ofTextIn .standard text = .ok f.settings := fun f hf =>
    ⟨_, List.mem_singleton.mp hf ▸ htext⟩
  obtain ⟨c, hc, -, hprinted, hload⟩ :=
    load_printed_settings Toml.readsBack_standard (.ofText "/h") hpaths haccepted
  obtain ⟨t, ht⟩ := Option.ne_none_iff_exists'.mp (hprinted ⟨_, rfl⟩
    fun f hf => List.mem_singleton.mp hf ▸ ⟨_, rfl⟩)
  exact ⟨Toml.readsBack_standard, habsolute, htext, c, t, hc, ht, hload t ht⟩

/-- A file in a directory with a name that is not UTF-8, which names a file beside it. -/
def unspeltFile : SettingsFile :=
  ⟨⟨utf8 "/tmp/" ++ [0xFF] ++ utf8 "/.scry.toml"⟩, ⟨none, none, some ⟨some "cards.txt"⟩, none⟩⟩

/-- **The settings of this file cannot be printed**, in whatever format. -/
theorem print?_eq_none_of_directory : unspeltFile.path.isAbsolute = true ∧
    FileSettings.ofText "[catalog]\nnames = 'cards.txt'\n" = .ok unspeltFile.settings ∧
    ∃ c, mergeSettings (some (.ofText "/h")) [unspeltFile] = .ok c ∧
      ∀ format, c.print? format = none := by
  have hmerged : mergeNames (some (.ofText "/h")) [unspeltFile]
      = .ok (some ⟨utf8 "/tmp/" ++ [0xFF] ++ utf8 "/cards.txt"⟩) := by cbv
  have htext : FilePath.text? ⟨utf8 "/tmp/" ++ [0xFF] ++ utf8 "/cards.txt"⟩ = none := by cbv
  refine ⟨by decide, by cbv, _, mergeSettings_of_mergeNames hmerged, fun format => ?_⟩
  exact Settings.print?_eq_none_iff.mpr ⟨_, rfl, htext⟩

end CardFilter
