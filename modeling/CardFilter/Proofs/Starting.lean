import CardFilter.CommandLine.Run
import CardFilter.Proofs.Discovery
import CardFilter.Proofs.DocumentTokens
import CardFilter.Proofs.Merging

/-!
# Starting a settings file is safe

A settings file is started from a template that says nothing. Wherever the new file lies, it is then
found in some directories and read, and it changes no setting there: a file that says nothing can be
left out wherever settings are merged.

The argument compares two trees, one of which holds silent files besides
(`CardFilter.Surroundings.AddsSilent`).

* What is found in the smaller tree is what is found in the larger one without the added files
  (`CardFilter.Surroundings.discover_eq_filter`).
* The same files are at fault in both, as no added file is.
* The merged settings agree, as only silent files are left out
  (`CardFilter.mergeSettings_filter`).

The main statement is `CardFilter.CommandLine.start_changes_one_file`.
-/

namespace CardFilter

open FilePath

/-- A file that says nothing gives nothing. -/
theorem FileSettings.givesNothing_silent : FileSettings.silent.GivesNothing :=
  ⟨fun _ h => (Option.not_mem_none _ h).elim, fun _ h => (Option.not_mem_none _ h).elim,
    fun _ h => (Option.not_mem_none _ h).elim⟩

namespace Surroundings

variable {s t : Surroundings} {path : FilePath}

/-! ### Silent files that are added -/

/-- **The second surroundings hold silent files besides**, where the first hold nothing, and are the
same otherwise. -/
structure AddsSilent (s t : Surroundings) : Prop where
  /-- The home directory is the same. -/
  home_eq : t.home = s.home
  /-- A path names what it named, or a silent file where nothing was. -/
  at?_cases : ∀ path, t.tree.at? path = s.tree.at? path ∨ s.tree.at? path = none ∧
    ∃ text, t.tree.at? path = some (.file text) ∧ FileSettings.ofText text = .ok .silent

theorem isFile_eq_false_of_at? {tree : FileTree} (h : tree.at? path = none) :
    tree.isFile path = false := by
  rw [FileTree.isFile, h]

theorem readFile_of_at? {text : String} {settings : FileSettings}
    (h : s.tree.at? path = some (.file text)) (hmeant : FileSettings.ofText text = .ok settings) :
    s.readFile path = .ok ⟨path, settings⟩ := by
  rw [readFile, FileTree.read?, h]
  simp only [hmeant]

namespace AddsSilent

variable (h : AddsSilent s t)
include h

/-- A path names a file in both, or it names an added file. -/
theorem isFile_cases (path : FilePath) : t.tree.at? path = s.tree.at? path ∨
    s.tree.isFile path = false ∧ t.tree.isFile path = true ∧ t.isRootFile path = false ∧
      t.readFile path = .ok ⟨path, .silent⟩ := by
  rcases h.at?_cases path with heq | ⟨hnone, text, htext, hmeant⟩
  · exact Or.inl heq
  · refine Or.inr ⟨isFile_eq_false_of_at? hnone, ?_, ?_, readFile_of_at? htext hmeant⟩
    · rw [FileTree.isFile, htext]
    · rw [isRootFile, FileTree.read?, htext]
      simp only [hmeant]
      rfl

/-- **The walk finds the same files**, but for those that were added. -/
theorem walk_eq_filter (directories : List FilePath) : s.walk directories
    = ((t.walk directories).1.filter s.tree.isFile, (t.walk directories).2) := by
  induction directories with
  | nil => rfl
  | cons d rest ih =>
    rw [walk_cons, walk_cons]
    rcases h.isFile_cases (settingsPath d) with heq | ⟨hs, ht, hroot, -⟩
    · rw [FileTree.isFile_congr heq, isRootFile_congr heq]
      cases hfile : s.tree.isFile (settingsPath d) with
      | false => exact ih
      | true =>
        rw [if_pos rfl, if_pos rfl]
        split
        · rw [List.filter_cons_of_pos hfile]
          rfl
        · rw [List.filter_cons_of_pos hfile, ih]
    · rw [if_neg (by rw [hs]; exact Bool.false_ne_true), if_pos ht,
        if_neg (by rw [hroot]; exact Bool.false_ne_true),
        List.filter_cons_of_neg (by rw [hs]; exact Bool.false_ne_true), ih]

end AddsSilent

/-- Every settings file that counts is a file. -/
theorem isFile_of_mem_discover {directory : FilePath} (h : path ∈ s.discover directory) :
    s.tree.isFile path = true := by
  rw [discover_eq] at h
  split at h
  · exact (of_mem_walk h).1
  · split at h
    · exact (of_mem_walk h).1
    · split at h
      · rename_i hadd
        rcases List.mem_append.mp h with h | h
        · exact (of_mem_walk h).1
        · rw [List.mem_singleton.mp h]
          exact ((Bool.and_eq_true _ _).mp hadd).1
      · exact (of_mem_walk h).1

namespace AddsSilent

variable (h : AddsSilent s t)
include h

/-- **The same settings files count**, but for those that were added. -/
theorem discover_eq_filter (directory : FilePath) :
    s.discover directory = (t.discover directory).filter s.tree.isFile := by
  have hwalk := h.walk_eq_filter directory.ancestors
  have hglobal : t.globalPath? = s.globalPath? := by rw [globalPath?, globalPath?, h.home_eq]
  rw [discover_eq, discover_eq, hglobal, hwalk]
  split
  · rfl
  cases hg : s.globalPath? with
  | none => rfl
  | some g =>
    obtain ⟨home, -, rfl⟩ := Option.map_eq_some_iff.mp hg
    simp only
    cases hfile : s.tree.isFile (settingsPath home) with
    | false =>
      -- the file of the home directory may be new, and then it is left out again
      rw [Bool.false_and, if_neg Bool.false_ne_true]
      split
      · rw [List.filter_append,
          List.filter_cons_of_neg (by rw [hfile]; exact Bool.false_ne_true), List.filter_nil,
          List.append_nil]
      · rfl
    | true =>
      have heq : t.tree.at? (settingsPath home) = s.tree.at? (settingsPath home) := by
        rcases h.isFile_cases (settingsPath home) with heq | ⟨hs, -⟩
        · exact heq
        · rw [hs] at hfile
          cases hfile
      -- a path that is the same as that of this file names a file as well, and is not left out
      have hany : ((t.walk directory.ancestors).1.filter s.tree.isFile).any
          (·.sameAs (settingsPath home))
            = (t.walk directory.ancestors).1.any (·.sameAs (settingsPath home)) := by
        rw [List.any_filter, Bool.eq_iff_iff, List.any_eq_true, List.any_eq_true]
        refine exists_congr fun p => and_congr_right fun hp => ?_
        cases hsame : p.sameAs (settingsPath home) with
        | false => rw [Bool.and_false]
        | true =>
          obtain ⟨-, d, -, rfl⟩ := of_mem_walk hp
          rw [FileTree.isFile, at?_settingsPath_eq hsame, ← FileTree.isFile, hfile, Bool.true_and]
      rw [FileTree.isFile_congr heq, hfile, hany]
      split
      · rw [List.filter_append, List.filter_cons_of_pos hfile, List.filter_nil]
      · rfl

/-- **The same file is at fault, or the same files are read**, but for silent ones. -/
theorem readFiles_cases {paths : List FilePath} (hpaths : ∀ p ∈ paths, t.tree.isFile p = true) :
    (∃ e, t.readFiles paths = .error e ∧ s.readFiles (paths.filter s.tree.isFile) = .error e) ∨
    ∃ files, t.readFiles paths = .ok files ∧
      s.readFiles (paths.filter s.tree.isFile)
        = .ok (files.filter fun f => s.tree.isFile f.path) ∧
      ∀ f ∈ files, s.tree.isFile f.path = false → f.settings = .silent := by
  induction paths with
  | nil => exact Or.inr ⟨[], rfl, rfl, fun _ hf => absurd hf List.not_mem_nil⟩
  | cons path rest ih =>
    have hpath := hpaths path List.mem_cons_self
    have ih := ih fun p hp => hpaths p (List.mem_cons_of_mem _ hp)
    rcases h.isFile_cases path with heq | ⟨hnot, -, -, hread⟩
    · have hfile : s.tree.isFile path = true := by rwa [← FileTree.isFile_congr heq]
      rw [List.filter_cons_of_pos hfile, readFiles, readFiles, readFile_congr heq]
      cases hread : s.readFile path with
      | error e => exact Or.inl ⟨e, rfl, rfl⟩
      | ok file =>
        have hfilePath : file.path = path := by
          rw [readFile] at hread
          split at hread
          · cases hread
          · split at hread
            · cases hread
            · rw [← Except.ok.inj hread]
        rcases ih with ⟨e, ht, hs⟩ | ⟨files, ht, hs, hsilent⟩
        · exact Or.inl ⟨e, by rw [ht], by rw [hs]⟩
        · refine Or.inr ⟨file :: files, by rw [ht], ?_, fun f hf hnot => ?_⟩
          · rw [hs, List.filter_cons_of_pos (by rw [hfilePath, hfile])]
          · rcases List.mem_cons.mp hf with rfl | hf
            · rw [hfilePath, hfile] at hnot
              cases hnot
            · exact hsilent f hf hnot
    · rw [List.filter_cons_of_neg (by rw [hnot]; exact Bool.false_ne_true), readFiles, hread]
      rcases ih with ⟨e, ht, hs⟩ | ⟨files, ht, hs, hsilent⟩
      · exact Or.inl ⟨e, by rw [ht], hs⟩
      · refine Or.inr ⟨⟨path, .silent⟩ :: files, by rw [ht], ?_, fun f hf hnot => ?_⟩
        · simp only [hs, List.filter_cons, hnot, Bool.false_eq_true, if_false]
        · rcases List.mem_cons.mp hf with rfl | hf
          · rfl
          · exact hsilent f hf hnot

/-- **The same settings hold**, or settings cannot be had for the same reason. -/
theorem load_effect_eq (directory : FilePath) :
    (t.load directory).map Settings.effect = (s.load directory).map Settings.effect := by
  rw [load, load, loadFiles, loadFiles, h.discover_eq_filter directory]
  have hfiles : ∀ p ∈ t.discover directory, t.tree.isFile p = true :=
    fun p hp => isFile_of_mem_discover hp
  rcases h.readFiles_cases hfiles with ⟨e, ht, hs⟩ | ⟨files, ht, hs, hsilent⟩
  · rw [ht, hs]
  · rw [ht, hs, h.home_eq]
    exact (mergeSettings_filter fun f hf hkeep =>
      hsilent f hf hkeep ▸ FileSettings.givesNothing_silent).symm

end AddsSilent

/-! ### The file that is started -/

/-- **A directory counts as the home directory** if its path is that of the home directory but for
idle segments. -/
theorem isHome_iff {directory : FilePath} : s.isHome directory = true ↔
    ∃ home, s.home = some home ∧ home.sameAs directory = true := by
  have hparent (home : FilePath) : ∃ q, (settingsPath home).parent? = some q ∧
      (q.sameAs directory = true ↔ home.sameAs directory = true) := by
    obtain ⟨q, hq, hsteps⟩ := exists_parent? (steps_settingsPath home) isIdle_settingsFileName
    exact ⟨q, hq, by rw [sameAs_iff, sameAs_iff, hsteps]⟩
  rw [isHome, globalPath?]
  cases s.home with
  | none => exact iff_of_false Bool.false_ne_true fun ⟨_, h, _⟩ => by cases h
  | some home =>
    obtain ⟨q, hq, hsame⟩ := hparent home
    rw [Option.map_some, Option.bind_some, hq, Option.any_some, hsame]
    exact ⟨fun h => ⟨home, rfl, h⟩, fun ⟨_, heq, h⟩ => Option.some.inj heq ▸ h⟩

/-- **Where a settings file is to be started**: in the home directory if that is asked for or if the
directory is the home directory, and else in the directory. -/
def IsStartPath (s : Surroundings) (directory : FilePath) (global : Bool) (path : FilePath) :
    Prop :=
  if global = true ∨ ∃ home, s.home = some home ∧ home.sameAs directory = true then
    ∃ home, s.home = some home ∧ path = settingsPath home
  else path = settingsPath directory

theorem startPath?_eq_some_iff {directory : FilePath} {global : Bool} :
    s.startPath? directory (s.scopeIn directory global) = some path ↔
      s.IsStartPath directory global path := by
  have hscope : (global || s.isHome directory) = true ↔
      global = true ∨ ∃ home, s.home = some home ∧ home.sameAs directory = true := by
    rw [Bool.or_eq_true, isHome_iff]
  rw [IsStartPath, scopeIn]
  by_cases hhome : (global || s.isHome directory) = true
  · rw [if_pos (hscope.mp hhome), if_pos hhome, startPath?, globalPath?, Option.map_eq_some_iff]
    exact exists_congr fun home => and_congr_right fun _ => eq_comm
  · rw [if_neg (mt hscope.mpr hhome), if_neg hhome, startPath?, Option.some_inj]
    exact eq_comm

/-- Why no settings file is started at the path: something is there that is not to be replaced, or
no file can be written there. -/
def IsRefused (s : Surroundings) (force : Bool) (path : FilePath) (content : String) : Prop :=
  (force = false ∧ s.tree.contains path = true) ∨ s.tree.write? path content = none

/-- **What starting a settings file comes to**: it is refused, or the template is written. -/
theorem startSettings_cases (s : Surroundings) (directory : FilePath) (global force : Bool) :
    (∃ fault, s.startSettings directory global force = .error fault ∧
      ∀ path, s.IsStartPath directory global path →
        s.IsRefused force path (s.scopeIn directory global).template) ∨
    ∃ path place after, s.startSettings directory global force
        = .ok ⟨path, (s.scopeIn directory global).template, after⟩ ∧
      s.IsStartPath directory global path ∧
      s.tree.IsWritten path (s.scopeIn directory global).template place after ∧
      (force = false → s.tree.at? path = none) := by
  rw [startSettings]
  cases hstart : s.startPath? directory (s.scopeIn directory global) with
  | none =>
    refine Or.inl ⟨_, rfl, fun path h => ?_⟩
    rw [startPath?_eq_some_iff.mpr h] at hstart
    cases hstart
  | some path =>
    have hunique {p : FilePath} (h : s.IsStartPath directory global p) : p = path :=
      Option.some.inj ((startPath?_eq_some_iff.mpr h).symm.trans hstart)
    simp only
    split
    · rename_i hthere
      rw [Bool.and_eq_true, Bool.not_eq_true'] at hthere
      exact Or.inl ⟨_, rfl, fun p h => hunique h ▸ Or.inl hthere.symm⟩
    · rename_i hthere
      split
      · rename_i after hwrite
        obtain ⟨place, hwritten⟩ := FileTree.exists_isWritten hwrite
        refine Or.inr ⟨path, place, after, rfl, startPath?_eq_some_iff.mp hstart, hwritten,
          fun hforce => ?_⟩
        rwa [hforce, Bool.not_false, Bool.and_true, FileTree.contains,
          Option.not_isSome_iff_eq_none] at hthere
      · rename_i hwrite
        refine Or.inl ?_
        split <;> exact ⟨_, rfl, fun p h => hunique h ▸ Or.inr hwrite⟩

/-- A template that is written where nothing was is a silent file that is added. -/
theorem addsSilent_of_isWritten {scope : SettingsScope} {place : List Segment} {after : FileTree}
    (h : s.tree.IsWritten path scope.template place after) (hfree : s.tree.at? path = none) :
    AddsSilent s { s with tree := after } := by
  refine ⟨rfl, fun p => ?_⟩
  rw [h.eq_put]
  rcases FileTree.at?_put h.inDirectories h.not_directory p with heq | ⟨hnone, hfile⟩
  · exact Or.inl heq
  · rw [← h.at?_eq, hfree] at hnone
    exact Or.inr ⟨hnone, _, hfile, scope.ofText_template⟩

end Surroundings

namespace CommandLine

open Surroundings

/-- **Starting a settings file is safe.** The command fails and leaves the files as they are, or it
succeeds and one place changes: the one where the settings file of the directory, or of the home
directory, is to be. It fails only if there is no home directory for the file or if the file is
refused (`CardFilter.Surroundings.IsRefused`). Unless it was told to replace what is there, nothing
was, and in every directory settings are afterwards as they were, or cannot be had for the same
reason. -/
theorem start_changes_one_file (s : Surroundings) (directory : FilePath) (global force : Bool) :
    let reply := (Command.start global force).run s directory
    (reply.exitCode = 1 ∧ reply.tree = s.tree ∧
      ∀ path, s.IsStartPath directory global path →
        s.IsRefused force path (s.scopeIn directory global).template) ∨
    (reply.exitCode = 0 ∧ ∃ path place, s.IsStartPath directory global path ∧
      reply.tree.place? path = some place ∧
      reply.tree.node? place = some (.file (s.scopeIn directory global).template) ∧
      (∀ q, q ≠ place → reply.tree.node? q = s.tree.node? q) ∧
      (force = false → s.tree.at? path = none ∧ s.tree.node? place = none ∧
        ∀ d : FilePath, (({ s with tree := reply.tree } : Surroundings).load d).map Settings.effect
          = (s.load d).map Settings.effect)) := by
  intro reply
  have hrun : reply = runStart s directory global force := rfl
  rw [runStart] at hrun
  rcases s.startSettings_cases directory global force with
    ⟨fault, hstart, hrefused⟩ | ⟨path, place, after, hstart, hpath, hwritten, hfree⟩
  · rw [hstart] at hrun
    exact Or.inl ⟨hrun ▸ rfl, hrun ▸ rfl, hrefused⟩
  · rw [hstart] at hrun
    have hafter : reply.tree = after := hrun ▸ rfl
    rw [hafter]
    refine Or.inr ⟨hrun ▸ rfl, path, place, hpath, hwritten.place?_eq, ?_, fun q hq => ?_,
      fun hforce => ⟨hfree hforce, hwritten.at?_eq ▸ hfree hforce, fun d => ?_⟩⟩
    · exact hwritten.eq_put ▸ FileTree.node?_put_self _ _ _
    · exact hwritten.eq_put ▸ FileTree.node?_put_of_ne hwritten.inDirectories hq
    · exact (addsSilent_of_isWritten hwritten (hfree hforce)).load_effect_eq d

end CommandLine

end CardFilter
