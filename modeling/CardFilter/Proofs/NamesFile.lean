import CardFilter.Proofs.Merging
import CardFilter.Proofs.Paths

/-!
# Where the file with the card names is

A settings file gives the path of the card names as a text, and where the path leads is to be seen
from how it is spelled: `~` stands for the home directory, a relative path starts in the directory
of the settings file, and an absolute one stands for itself. What is had is an absolute path in any
case (`CardFilter.exists_resolvePath`), which is why reading it a second time changes nothing
(`CardFilter.resolvePath_of_isAbsolute`).

There is one spelling that leads elsewhere. What follows `~/` is taken from the home directory as
any path is, and an absolute path is the same wherever it is taken from; so after a **second slash**
the home directory is lost (`CardFilter.names_lead_outside_home`). This is the only way out of it,
and `CardFilter.Leads` says where each spelling leads.

The main statement is `CardFilter.names_lead`.
-/

namespace CardFilter

open FilePath

variable {home directory path : FilePath} {text : String}

/-! ### The home directory -/

/-- **The three ways in which a text can be spelled**: as the home directory, as a path taken from
there, or as a path that has nothing to do with it. -/
theorem expandHome_cases (home : FilePath) (text : String) :
    (text = "~" ∧ expandHome (some home) text = .ok home) ∨
      (∃ rest, text = "~/" ++ rest ∧ expandHome (some home) text = .ok (home.join (.ofText rest))) ∨
      (text ≠ "~" ∧ (∀ rest, text ≠ "~/" ++ rest) ∧
        expandHome (some home) text = .ok (.ofText text)) := by
  rw [expandHome]
  split
  · rename_i htext
    exact Or.inl ⟨String.toList_injective htext, rfl⟩
  · rename_i rest htext
    exact Or.inr (Or.inl ⟨String.ofList rest, String.toList_injective (by simp [htext]), rfl⟩)
  · rename_i htilde hslash
    refine Or.inr (Or.inr ⟨?_, fun rest => ?_, rfl⟩)
    · rintro rfl
      exact htilde (by decide)
    · rintro rfl
      exact hslash rest.toList (by simp)

theorem resolvePath_eq (h : expandHome (some home) text = .ok path) (directory : FilePath) :
    resolvePath (some home) directory text
      = .ok (if path.isAbsolute then path else directory.join path) := by
  rw [resolvePath, h]

/-- **A path in a settings file names an absolute one**, where the file is at an absolute path. The
one that is named has a text, if the home directory and the directory of the file have one. -/
theorem exists_resolvePath (hdirectory : directory.isAbsolute = true) (home : FilePath)
    (text : String) :
    ∃ p, resolvePath (some home) directory text = .ok p ∧ p.isAbsolute = true ∧
      (home.IsText → directory.IsText → p.IsText) := by
  obtain ⟨p, hp, htext⟩ : ∃ p, expandHome (some home) text = .ok p ∧ (home.IsText → p.IsText) := by
    rcases expandHome_cases home text with ⟨-, h⟩ | ⟨rest, -, h⟩ | ⟨-, -, h⟩
    · exact ⟨_, h, id⟩
    · exact ⟨_, h, fun hhome => hhome.join ⟨rest, rfl⟩⟩
    · exact ⟨_, h, fun _ => ⟨text, rfl⟩⟩
  refine ⟨_, resolvePath_eq hp directory, ?_⟩
  split
  · rename_i habsolute
    exact ⟨habsolute, fun hhome _ => htext hhome⟩
  · exact ⟨isAbsolute_join hdirectory p, fun hhome hdirectory => hdirectory.join (htext hhome)⟩

/-- An absolute path stays what it is wherever its text is read. -/
theorem resolvePath_of_isAbsolute (h : path.isAbsolute = true) (htext : path.text? = some text)
    (home : Option FilePath) (directory : FilePath) :
    resolvePath home directory text = .ok path := by
  obtain rfl := text?_eq_some_iff.mp htext
  have hexpand : expandHome home text = .ok (.ofText text) := by
    have hhead := isAbsolute_ofText.mp h
    unfold expandHome
    split
    · rename_i htilde
      rw [htilde] at hhead
      exact absurd hhead (by decide)
    · rename_i htilde
      rw [htilde] at hhead
      exact absurd (Option.some.inj hhead) (by decide)
    · rfl
  rw [resolvePath, hexpand]
  simp only [h, if_true]

/-! ### Where a text leads -/

/-- **Where a text leads** that a settings file in `directory` gives as a path. -/
structure Leads (home directory : FilePath) (text : String) (path : FilePath) : Prop where
  /-- `~` is the home directory. -/
  home_eq : text = "~" → path = home
  /-- `~/` leads into the home directory, unless an absolute path follows that lies elsewhere. -/
  inHome_iff : ∀ rest, text = "~/" ++ rest → (home.steps <+: path.steps ↔
    ((ofText rest).isAbsolute = true → home.steps <+: (ofText rest).steps))
  /-- An absolute path that follows `~/` is all that counts. -/
  beyond : ∀ rest, text = "~/" ++ rest → (ofText rest).isAbsolute = true → path = ofText rest
  /-- Any other relative path leads into the directory of the settings file. -/
  inDirectory : (ofText text).isAbsolute = false → text ≠ "~" →
    (∀ rest, text ≠ "~/" ++ rest) → directory.steps <+: path.steps
  /-- An absolute path is what it is. -/
  absolute : (ofText text).isAbsolute = true → path = ofText text
  /-- The path has a text, where the home directory and the directory of the settings file do. -/
  isText : home.IsText → directory.IsText → path.IsText
  /-- Read again in any directory, the text of the path stands for the same path. -/
  settled : ∀ elsewhere again, path.text? = some again →
    resolvePath (some home) elsewhere again = .ok path

theorem steps_prefix_join (hp : path.isAbsolute = true) {q : FilePath}
    (hq : q.isAbsolute = false) : path.steps <+: (path.join q).steps := by
  rw [steps_join_of_isAbsolute hp hq]
  exact List.prefix_append _ _

theorem isAbsolute_tilde (rest : String) : (ofText ("~/" ++ rest)).isAbsolute = false := by
  rw [Bool.eq_false_iff, ne_eq, isAbsolute_ofText]
  simp

/-- A text after `~/` leads into the home directory, or where it leads by itself. -/
theorem leads_of_tilde (hhome : home.isAbsolute = true) (directory : FilePath) (rest : String) :
    Leads home directory ("~/" ++ rest) (home.join (ofText rest)) where
  home_eq h := by simp [← String.toList_inj] at h
  inHome_iff rest' h := by
    obtain rfl : rest' = rest := by simpa using h.symm
    cases hrest : (ofText rest').isAbsolute with
    | true => simp [join_of_isAbsolute hrest]
    | false => simp [steps_prefix_join hhome hrest]
  beyond rest' h hrest := by
    obtain rfl : rest' = rest := by simpa using h.symm
    exact join_of_isAbsolute hrest home
  inDirectory _ _ h := absurd rfl (h rest)
  absolute h := absurd h (by simp [isAbsolute_tilde])
  isText h _ := h.join ⟨rest, rfl⟩
  settled elsewhere _ h := resolvePath_of_isAbsolute (isAbsolute_join hhome _) h _ elsewhere

theorem leads_home (hhome : home.isAbsolute = true) (directory : FilePath) :
    Leads home directory "~" home where
  home_eq _ := rfl
  inHome_iff rest h := by simp [← String.toList_inj] at h
  beyond rest h := by simp [← String.toList_inj] at h
  inDirectory _ h := absurd rfl h
  absolute h := absurd h (by decide)
  isText h _ := h
  settled elsewhere _ h := resolvePath_of_isAbsolute hhome h _ elsewhere

/-- A text that has nothing to do with the home directory is taken from the directory. -/
theorem leads_of_ne_tilde (hdirectory : directory.isAbsolute = true) (htilde : text ≠ "~")
    (hslash : ∀ rest, text ≠ "~/" ++ rest) :
    Leads home directory text (directory.join (ofText text)) where
  home_eq h := absurd h htilde
  inHome_iff rest h := absurd h (hslash rest)
  beyond rest h := absurd h (hslash rest)
  inDirectory h _ _ := steps_prefix_join hdirectory h
  absolute h := join_of_isAbsolute h directory
  isText _ h := h.join ⟨text, rfl⟩
  settled elsewhere _ h := resolvePath_of_isAbsolute (isAbsolute_join hdirectory _) h _ elsewhere

/-- **Every text leads somewhere**, from an absolute home directory and an absolute directory. -/
theorem exists_leads (hhome : home.isAbsolute = true) (hdirectory : directory.isAbsolute = true)
    (text : String) :
    ∃ p, resolvePath (some home) directory text = .ok p ∧ Leads home directory text p := by
  rcases expandHome_cases home text with ⟨rfl, h⟩ | ⟨rest, rfl, h⟩ | ⟨htilde, hslash, h⟩
  · exact ⟨home, by rw [resolvePath_eq h, if_pos hhome], leads_home hhome directory⟩
  · exact ⟨_, by rw [resolvePath_eq h, if_pos (isAbsolute_join hhome _)],
      leads_of_tilde hhome directory rest⟩
  · refine ⟨_, ?_, leads_of_ne_tilde hdirectory htilde hslash⟩
    rw [resolvePath_eq h]
    split
    · rename_i htext
      rw [join_of_isAbsolute htext]
    · rfl

/-! ### The file with the card names -/

namespace SettingsFile

variable {f : SettingsFile}

/-- The directory of a file at an absolute path is absolute. -/
theorem isAbsolute_directory (h : f.path.isAbsolute = true) : f.directory.isAbsolute = true := by
  rw [directory]
  cases hparent : f.path.parent? with
  | none => exact h
  | some q => exact isAbsolute_of_parent? h hparent

/-- The directory of a file at a path with a text has a text. -/
theorem isText_directory (h : f.path.IsText) : f.directory.IsText := by
  rw [directory]
  cases hparent : f.path.parent? with
  | none => exact h
  | some q => exact h.parent? hparent

end SettingsFile

/-- **Merged settings name an absolute path**, if any, and one that has a text if all the paths have
one that it can come from. -/
theorem exists_mergeNames (home : FilePath) {files : List SettingsFile}
    (hfiles : ∀ f ∈ files, f.path.isAbsolute = true) :
    ∃ names, mergeNames (some home) files = .ok names ∧ ∀ p ∈ names, p.isAbsolute = true ∧
      (home.IsText → (∀ f ∈ files, f.path.IsText) → p.IsText) := by
  induction files with
  | nil => exact ⟨none, rfl, fun _ h => by cases h⟩
  | cons f files ih =>
    rw [mergeNames]
    cases f.names with
    | none =>
      obtain ⟨names, hmerged, hnames⟩ := ih fun g hg => hfiles g (List.mem_cons_of_mem _ hg)
      refine ⟨names, hmerged, fun p hp => ⟨(hnames p hp).1, fun hhome htexts => ?_⟩⟩
      exact (hnames p hp).2 hhome fun g hg => htexts g (List.mem_cons_of_mem _ hg)
    | some text =>
      obtain ⟨p, hp, habsolute, htext⟩ := exists_resolvePath
        (SettingsFile.isAbsolute_directory (hfiles f List.mem_cons_self)) home text
      refine ⟨some p, by simp only [hp]; rfl, fun q hq => ?_⟩
      rw [← Option.some.inj hq]
      exact ⟨habsolute, fun hhome htexts =>
        htext hhome (SettingsFile.isText_directory (htexts f List.mem_cons_self))⟩

/-- **The path for the card names leads where its spelling says.** Let the first file that gives a
path be at an absolute path, and the home directory be absolute. Then settings are had, and with
them a path that lies where the text leads from the directory of that file. -/
theorem names_lead {before after : List SettingsFile} {f : SettingsFile}
    (hhome : home.isAbsolute = true) (hpath : f.path.isAbsolute = true)
    (hbefore : ∀ b ∈ before, b.names = none) (hf : f.names = some text) :
    ∃ c path, mergeSettings (some home) (before ++ f :: after) = .ok c ∧ c.names = some path ∧
      Leads home f.directory text path := by
  obtain ⟨path, hresolve, hleads⟩ := exists_leads hhome (f.isAbsolute_directory hpath) text
  have hnames : mergeNames (some home) (before ++ f :: after) = .ok (some path) := by
    rw [mergeNames_append_cons hbefore hf, hresolve]
    rfl
  exact ⟨_, path, mergeSettings_of_mergeNames hnames, rfl, hleads⟩

/-- A path that starts with `~/` leads into the home directory, also from a file that is not the
first. -/
theorem names_lead_lists : (ofText "/h").isAbsolute = true ∧
    ∃ c path, mergeSettings (some (ofText "/h"))
        [⟨.ofText "/p/q/.scry.toml", ⟨none, none, some ⟨none⟩, none⟩⟩,
          ⟨.ofText "/p/.scry.toml", ⟨none, none, some ⟨some "~/lists/cards.txt"⟩, none⟩⟩] = .ok c ∧
      c.names = some path ∧ (ofText "/h").steps <+: path.steps := by
  have hhome : (ofText "/h").isAbsolute = true := by decide
  have hsilent : ∀ b ∈ [(⟨.ofText "/p/q/.scry.toml", ⟨none, none, some ⟨none⟩, none⟩⟩
      : SettingsFile)], b.names = none := by decide
  have hpath : (⟨.ofText "/p/.scry.toml", ⟨none, none, some ⟨some "~/lists/cards.txt"⟩, none⟩⟩
      : SettingsFile).path.isAbsolute = true := by
    decide
  obtain ⟨c, path, hc, hnames, hleads⟩ := names_lead hhome hpath hsilent rfl
  exact ⟨hhome, c, path, hc, hnames,
    (hleads.inHome_iff "lists/cards.txt" rfl).mpr fun h => absurd h (by decide)⟩

/-- **After a second slash the home directory is lost.** -/
theorem names_lead_outside_home : ∃ (home : FilePath) (f : SettingsFile) (c : Settings)
    (path : FilePath), home.isAbsolute = true ∧ f.path.isAbsolute = true ∧
      f.names = some ("~/" ++ "/etc/cards.txt") ∧ mergeSettings (some home) [f] = .ok c ∧
      c.names = some path ∧ ¬home.steps <+: path.steps :=
  ⟨.ofText "/h", ⟨.ofText "/p/.scry.toml", ⟨none, none, some ⟨some "~//etc/cards.txt"⟩, none⟩⟩, _,
    .ofText "/etc/cards.txt", by decide, by decide, by decide, rfl, rfl, by decide⟩

end CardFilter
