import CardFilter.Ranking
import CardFilter.Settings.Merge
import Mathlib.Data.List.Basic

/-!
# The rule by which settings are merged

Settings files are merged in three loops. The numbers are gone through from the least specific file,
each file being written over those before; the path for the card names is looked for from the other
end, and the search stops at the first one; the lists of filters grow entry by entry, and an entry
that is there already is passed over. All three follow one rule, that **the most specific file
decides**, and this file says so for any number of files and whatever any of them leaves out.

* `CardFilter.mergeSuggest_eq`: a number is the first that is given (`CardFilter.firstGiven`), as
  one file more is written over what the others give (`CardFilter.mergeSuggest_cons`).
* `CardFilter.mergeNames_append_cons`: the path is the first that is given, taken from the directory
  of the file that gives it.
* `CardFilter.mergeFilters_eq`: a list has the entries of all files, each where it first occurs, as
  this is so after every entry that is added (`CardFilter.addMissing_distinct`).
* `CardFilter.mergeSettings_filter`: a file that gives nothing can be left out, wherever it stands.

The main statement is `CardFilter.merged_by_precedence`.
-/

namespace CardFilter

variable {home : Option FilePath} {files : List SettingsFile}

/-! ### Numbers -/

/-- A number from the first file that gives it. -/
def firstGiven (get : FileSuggest → Option Nat) (default : Nat) (files : List SettingsFile) : Nat :=
  (files.findSome? fun f => f.settings.suggest.bind get).getD default

theorem firstGiven_cons (get : FileSuggest → Option Nat) (default : Nat) (f : SettingsFile)
    (files : List SettingsFile) : firstGiven get default (f :: files)
      = (f.settings.suggest.bind get).getD (firstGiven get default files) := by
  rw [firstGiven, List.findSome?_cons]
  cases f.settings.suggest.bind get <;> rfl

theorem mergeSuggest_cons (f : SettingsFile) (files : List SettingsFile) :
    mergeSuggest (f :: files) =
      match f.settings.suggest with
      | none => mergeSuggest files
      | some said => (mergeSuggest files).overwrite said := rfl

/-- **Each number is the first that is given**, though the files are written one over the other. -/
theorem mergeSuggest_eq (files : List SettingsFile) : mergeSuggest files =
    { limit := firstGiven (·.limit) SuggestSettings.default.limit files
      debounce := firstGiven (·.debounce) SuggestSettings.default.debounce files
      minNameLength := firstGiven (·.minNameLength) SuggestSettings.default.minNameLength files
      historySize := firstGiven (·.historySize) SuggestSettings.default.historySize files } := by
  induction files with
  | nil => rfl
  | cons f files ih =>
    rw [mergeSuggest_cons, ih]
    simp only [firstGiven_cons]
    cases f.settings.suggest <;> rfl

/-! ### The path for the card names -/

theorem mergeNames_cons_of_none {f : SettingsFile} (h : f.names = none)
    (files : List SettingsFile) : mergeNames home (f :: files) = mergeNames home files := by
  rw [mergeNames, h]

/-- **The first path that is given counts**, taken from the directory of its file. -/
theorem mergeNames_append_cons {before : List SettingsFile} {f : SettingsFile} {text : String}
    (hbefore : ∀ b ∈ before, b.names = none) (hf : f.names = some text)
    (after : List SettingsFile) : mergeNames home (before ++ f :: after)
      = (resolvePath home f.directory text).map some := by
  induction before with
  | nil => rw [List.nil_append, mergeNames, hf]
  | cons b before ih =>
    rw [List.cons_append, mergeNames_cons_of_none (hbefore b List.mem_cons_self),
      ih fun b hb => hbefore b (List.mem_cons_of_mem _ hb)]

/-- What the first file that gives a path for the card names means by it. -/
def firstNames? (home : Option FilePath) (files : List SettingsFile) :
    Option (Except SettingsError FilePath) :=
  files.findSome? fun f => f.names.map (resolvePath home f.directory)

theorem mergeNames_eq (home : Option FilePath) (files : List SettingsFile) :
    mergeNames home files = (firstNames? home files).elim (.ok none) (·.map some) := by
  induction files with
  | nil => rfl
  | cons f files ih =>
    rw [firstNames?, List.findSome?_cons]
    cases hf : f.names with
    | none => rw [mergeNames_cons_of_none hf, ih]; rfl
    | some text => rw [mergeNames, hf]; rfl

theorem mergeSettings_of_mergeNames {names : Option FilePath}
    (h : mergeNames home files = .ok names) : mergeSettings home files
      = .ok ⟨mergeSuggest files, names, mergeFilters files, files.map (·.path),
        files.head?.bind (·.path.parent?)⟩ := by
  rw [mergeSettings, h]

theorem map_names_mergeSettings (home : Option FilePath) (files : List SettingsFile) :
    (mergeSettings home files).map (·.names) = mergeNames home files := by
  rw [mergeSettings]
  cases mergeNames home files <;> rfl

/-! ### Lists of filters -/

/-- **The first occurrences in a list**: all that is in it, each entry once, in the order in which
they first occur. -/
structure FirstOccurrences (all kept : List String) : Prop where
  /-- What is kept is what is there. -/
  mem_iff : ∀ entry, entry ∈ kept ↔ entry ∈ all
  /-- Of two that are kept, the earlier one occurs first. -/
  ordered : kept.Pairwise fun a b => all.idxOf a < all.idxOf b

theorem mem_distinct {all : List String} {entry : String} :
    entry ∈ distinct all ↔ entry ∈ all := by
  simpa [distinct] using (mem_map_distinctBy id : entry ∈ (distinctBy id all).map id ↔ _)

theorem firstOccurrences_distinct (all : List String) : FirstOccurrences all (distinct all) := by
  refine ⟨fun entry => mem_distinct, ?_⟩
  induction all with
  | nil => exact List.Pairwise.nil
  | cons a all ih =>
    -- behind `a` every position is one greater, and `a` itself is at the first one
    have hidx {b : String} (hb : b ≠ a) : (a :: all).idxOf b = all.idxOf b + 1 :=
      by rw [List.idxOf_cons, beq_eq_false_iff_ne.mpr hb.symm]; rfl
    have hne {b : String} (hb : b ∈ (distinct all).filter fun b => id b ≠ id a) : b ≠ a :=
      of_decide_eq_true (List.mem_filter.mp hb).2
    refine List.pairwise_cons.mpr ⟨fun b hb => ?_, ?_⟩
    · rw [List.idxOf_cons_self, hidx (hne hb)]
      exact Nat.succ_pos _
    · refine (ih.filter _).imp_of_mem fun hb hc h => ?_
      rw [hidx (hne hb), hidx (hne hc)]
      exact Nat.succ_lt_succ h

theorem addMissing_cons (list : List String) (entry : String) (entries : List String) :
    addMissing list (entry :: entries)
      = addMissing (if entry ∈ list then list else list ++ [entry]) entries := rfl

/-- A list without repeats stays one when an entry is added that is not in it yet. -/
theorem distinct_concat (as : List String) (b : String) :
    (if b ∈ distinct as then distinct as else distinct as ++ [b]) = distinct (as ++ [b]) := by
  have hconcat : distinct (as ++ [b]) = distinct as ++ [b].filter (· ∉ as) := by
    simpa [distinct, distinctBy] using distinctBy_append id as [b]
  rw [hconcat]
  by_cases hb : b ∈ as <;> simp [mem_distinct, hb]

/-- **Entries that are added one by one** end up where they first occur. -/
theorem addMissing_distinct (as bs : List String) :
    addMissing (distinct as) bs = distinct (as ++ bs) := by
  induction bs generalizing as with
  | nil => rw [List.append_nil]; rfl
  | cons b bs ih =>
    rw [addMissing_cons, distinct_concat, ih, List.append_assoc, List.singleton_append]

/-- The filters that the file gives for a list. -/
def SettingsFile.filters (list : FileFilters → Option (List String)) (f : SettingsFile) :
    List String :=
  (f.settings.filters.bind list).getD []

theorem foldl_extend (files : List SettingsFile) (pinned history : List String) :
    (files.filterMap (·.settings.filters)).foldl SavedFilters.extend
        ⟨distinct pinned, distinct history⟩
      = ⟨distinct (pinned ++ files.flatMap (·.filters (·.pinned))),
        distinct (history ++ files.flatMap (·.filters (·.history)))⟩ := by
  induction files generalizing pinned history with
  | nil => simp
  | cons f files ih =>
    rw [List.flatMap_cons, List.flatMap_cons, ← List.append_assoc, ← List.append_assoc, ← ih,
      SettingsFile.filters, SettingsFile.filters]
    cases hf : f.settings.filters with
    | none => simp [hf]
    | some said =>
      simp only [List.filterMap_cons, hf, List.foldl_cons, SavedFilters.extend, addMissing_distinct]
      rfl

/-- **The lists hold what all files give**, each filter where it first occurs. -/
theorem mergeFilters_eq (files : List SettingsFile) : mergeFilters files =
    ⟨distinct (files.flatMap (·.filters (·.pinned))),
      distinct (files.flatMap (·.filters (·.history)))⟩ :=
  foldl_extend files [] []

/-! ### Files that give nothing -/

/-- What settings come to, whatever files they were read from. -/
def Settings.effect (c : Settings) : SuggestSettings × Option FilePath × SavedFilters :=
  (c.suggest, c.names, c.filters)

/-- **The file gives nothing**: no number, no path and no filter. Its sections may be there, and it
may declare itself the root. -/
structure FileSettings.GivesNothing (s : FileSettings) : Prop where
  /-- It gives no number. -/
  suggest : ∀ said ∈ s.suggest, said = ⟨none, none, none, none⟩
  /-- It gives no path. -/
  catalog : ∀ said ∈ s.catalog, said.names = none
  /-- It gives no filter. -/
  filters : ∀ said ∈ s.filters, said.pinned.getD [] = [] ∧ said.history.getD [] = []

namespace FileSettings.GivesNothing

variable {f : SettingsFile}

theorem names_eq_none (h : f.settings.GivesNothing) : f.names = none := by
  rw [SettingsFile.names]
  cases hsaid : f.settings.catalog with
  | none => rfl
  | some said => exact h.catalog said hsaid

theorem bind_suggest_eq_none (h : f.settings.GivesNothing) {get : FileSuggest → Option Nat}
    (hget : get ⟨none, none, none, none⟩ = none) : f.settings.suggest.bind get = none := by
  cases hsaid : f.settings.suggest with
  | none => rfl
  | some said =>
    rw [h.suggest said hsaid]
    exact hget

theorem filters_eq_nil (h : f.settings.GivesNothing) :
    f.filters (·.pinned) = [] ∧ f.filters (·.history) = [] := by
  rw [SettingsFile.filters, SettingsFile.filters]
  cases hsaid : f.settings.filters with
  | none => exact ⟨rfl, rfl⟩
  | some said => exact h.filters said hsaid

end FileSettings.GivesNothing

section Filter

variable {keep : SettingsFile → Bool}

theorem findSome?_filter {α β : Type} {keep : α → Bool} {get : α → Option β} {xs : List α}
    (h : ∀ x ∈ xs, keep x = false → get x = none) :
    (xs.filter keep).findSome? get = xs.findSome? get := by
  rw [← List.head?_filterMap, ← List.head?_filterMap, List.filterMap_filter]
  refine congrArg List.head? (List.filterMap_congr fun x hx => ?_)
  cases hkeep : keep x with
  | true => rfl
  | false => exact (h x hx hkeep).symm

theorem flatMap_filter {α β : Type} {keep : α → Bool} {get : α → List β} {xs : List α}
    (h : ∀ x ∈ xs, keep x = false → get x = []) :
    (xs.filter keep).flatMap get = xs.flatMap get := by
  induction xs with
  | nil => rfl
  | cons x xs ih =>
    have ih := ih fun y hy => h y (List.mem_cons_of_mem _ hy)
    cases hx : keep x with
    | true => rw [List.filter_cons_of_pos hx, List.flatMap_cons, List.flatMap_cons, ih]
    | false =>
      rw [List.filter_cons_of_neg (by rw [hx]; exact Bool.false_ne_true), List.flatMap_cons,
        h x List.mem_cons_self hx, ih, List.nil_append]

theorem mergeNames_filter (h : ∀ f ∈ files, keep f = false → f.settings.GivesNothing) :
    mergeNames home (files.filter keep) = mergeNames home files := by
  rw [mergeNames_eq, mergeNames_eq, firstNames?, firstNames?, findSome?_filter]
  intro f hf hkeep
  rw [(h f hf hkeep).names_eq_none]
  rfl

/-- **Files that give nothing can be left out.** -/
theorem mergeSettings_filter (h : ∀ f ∈ files, keep f = false → f.settings.GivesNothing) :
    (mergeSettings home (files.filter keep)).map Settings.effect
      = (mergeSettings home files).map Settings.effect := by
  have hgiven {get : FileSuggest → Option Nat} (hget : get ⟨none, none, none, none⟩ = none)
      (default : Nat) : firstGiven get default (files.filter keep)
        = firstGiven get default files := by
    rw [firstGiven, firstGiven, findSome?_filter]
    exact fun f hf hkeep => (h f hf hkeep).bind_suggest_eq_none hget
  have hsuggest : mergeSuggest (files.filter keep) = mergeSuggest files := by
    rw [mergeSuggest_eq, mergeSuggest_eq, hgiven rfl, hgiven rfl, hgiven rfl, hgiven rfl]
  have hfilters : mergeFilters (files.filter keep) = mergeFilters files := by
    rw [mergeFilters_eq, mergeFilters_eq,
      flatMap_filter fun f hf hkeep => (h f hf hkeep).filters_eq_nil.1,
      flatMap_filter fun f hf hkeep => (h f hf hkeep).filters_eq_nil.2]
  rw [mergeSettings, mergeSettings, mergeNames_filter h, hsuggest, hfilters]
  cases mergeNames home files <;> rfl

end Filter

/-- Wherever a file that gives nothing is put in, the effect is the same. -/
theorem mergeSettings_insert {f : SettingsFile} (hf : f.settings.GivesNothing)
    (before after : List SettingsFile) :
    (mergeSettings home (before ++ f :: after)).map Settings.effect
      = (mergeSettings home (before ++ after)).map Settings.effect := by
  -- both come to the same without this file, which may stand elsewhere as well
  have hsilent : ∀ files : List SettingsFile, ∀ g ∈ files, (g != f) = false →
      g.settings.GivesNothing := by
    intro files g _ hg
    rw [bne_eq_false_iff_eq.mp hg]
    exact hf
  rw [← mergeSettings_filter (hsilent (before ++ f :: after)),
    ← mergeSettings_filter (hsilent (before ++ after)), List.filter_append, List.filter_append,
    List.filter_cons_of_neg (by simp)]

/-! ### The rule -/

/-- **Settings that follow the precedence of files**, the most specific first. Every number is the
first that a file gives, or else its default; every list has the first occurrences of what the files
give, one after the other; the files are listed in their order, and the directory of the first one
is the root. -/
structure Settings.FollowsPrecedence (c : Settings) (files : List SettingsFile) : Prop where
  /-- How many suggestions each source may give. -/
  limit : c.suggest.limit = firstGiven (·.limit) 10 files
  /-- The quiet period before a lookup, in milliseconds. -/
  debounce : c.suggest.debounce = firstGiven (·.debounce) 250 files
  /-- The least length of a name that is looked up. -/
  minNameLength : c.suggest.minNameLength = firstGiven (·.minNameLength) 2 files
  /-- How many filters used lately are kept. -/
  historySize : c.suggest.historySize = firstGiven (·.historySize) 100 files
  /-- The pinned filters. -/
  pinned : FirstOccurrences (files.flatMap (·.filters (·.pinned))) c.filters.pinned
  /-- The filters used lately. -/
  history : FirstOccurrences (files.flatMap (·.filters (·.history))) c.filters.history
  /-- The files. -/
  files_eq : c.files = files.map (·.path)
  /-- The directory of the most specific file. -/
  root_eq : c.root = files.head?.bind (·.path.parent?)

theorem followsPrecedence_of_mergeSettings {c : Settings}
    (h : mergeSettings home files = .ok c) : c.FollowsPrecedence files := by
  rw [mergeSettings] at h
  split at h
  · cases h
  · cases h
    refine ⟨?_, ?_, ?_, ?_, ?_, ?_, rfl, rfl⟩
    · exact congrArg (·.limit) (mergeSuggest_eq files)
    · exact congrArg (·.debounce) (mergeSuggest_eq files)
    · exact congrArg (·.minNameLength) (mergeSuggest_eq files)
    · exact congrArg (·.historySize) (mergeSuggest_eq files)
    · exact congrArg (·.pinned) (mergeFilters_eq files) ▸ firstOccurrences_distinct _
    · exact congrArg (·.history) (mergeFilters_eq files) ▸ firstOccurrences_distinct _

/-- **The most specific file decides.** The path for the card names is the first that a file gives,
taken from the directory of this file, and settings can be had unless that path is at fault; what is
had follows the precedence of the files. A file that gives nothing changes neither the numbers nor
the path nor the lists, wherever it stands among the others. -/
theorem merged_by_precedence (home : Option FilePath) (files : List SettingsFile) :
    (mergeSettings home files).map (·.names)
        = (firstNames? home files).elim (.ok none) (·.map some) ∧
      (∀ c, mergeSettings home files = .ok c → c.FollowsPrecedence files) ∧
      ∀ before after f, files = before ++ after → f.settings.GivesNothing →
        (mergeSettings home (before ++ f :: after)).map Settings.effect
          = (mergeSettings home files).map Settings.effect := by
  refine ⟨?_, fun c => followsPrecedence_of_mergeSettings, ?_⟩
  · rw [map_names_mergeSettings, mergeNames_eq]
  · rintro before after f rfl hf
    exact mergeSettings_insert hf before after

/-- Two files, of which the first leaves out what the second gives, and gives a filter twice. -/
def layeredFiles : List SettingsFile :=
  [⟨.ofText "/p/q/.scry.toml",
      ⟨none, some ⟨some 5, none, none, none⟩, none, some ⟨some ["a", "b", "a"], none⟩⟩⟩,
    ⟨.ofText "/p/.scry.toml",
      ⟨none, some ⟨some 7, some 1, none, none⟩, some ⟨some "cards.txt"⟩,
        some ⟨some ["b", "c"], some ["d"]⟩⟩⟩]

/-- The path is that of the second file, in its directory, and an empty section between the two
changes nothing. -/
theorem merged_by_precedence_layered : ∃ c, mergeSettings none layeredFiles = .ok c ∧
    c.FollowsPrecedence layeredFiles ∧ c.suggest = ⟨5, 1, 2, 100⟩ ∧
    c.names = some (.ofText "/p/cards.txt") ∧ c.filters = ⟨["a", "b", "c"], ["d"]⟩ ∧
    ∀ path, (mergeSettings none (layeredFiles.take 1 ++
        ⟨path, ⟨some true, some ⟨none, none, none, none⟩, none, some ⟨some [], none⟩⟩⟩ ::
          layeredFiles.drop 1)).map Settings.effect
      = (mergeSettings none layeredFiles).map Settings.effect := by
  obtain ⟨-, hfollows, hinsert⟩ := merged_by_precedence none layeredFiles
  have hmerged : mergeSettings none layeredFiles
      = .ok ⟨mergeSuggest layeredFiles, some (.ofText "/p/cards.txt"), mergeFilters layeredFiles,
        [.ofText "/p/q/.scry.toml", .ofText "/p/.scry.toml"], some (.ofText "/p/q")⟩ := by rfl
  refine ⟨_, hmerged, hfollows _ hmerged, by decide, rfl, by decide, fun path => ?_⟩
  refine hinsert _ _ _ (List.take_append_drop 1 layeredFiles).symm ⟨?_, ?_, ?_⟩ <;> simp

end CardFilter
