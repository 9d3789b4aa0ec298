import Mathlib
import CardFilter.Proofs.Places
import CardFilter.Settings.Discover

/-!
# Which settings files are found

The settings files of a directory are looked for from the directory upwards, and the first one that
declares itself the root ends the walk. What the walk finds therefore depends on very little: on
what the settings paths up to the root name, and on nothing else in the tree.

The walk is described by the directories whose files it lists
(`CardFilter.Surroundings.exists_walk`). As these come from the ancestors of a directory, each lies
above those before it, and no two of their files have the same path.

The main statement is `CardFilter.Surroundings.load_eq_of_root`: behind a root, two trees that agree
on the settings paths up to it have the same settings files and the same settings.
-/

namespace CardFilter

open FilePath

/-! ### What a path names -/

namespace FileTree

variable {tree tree' : FileTree} {path : FilePath}

theorem isFile_congr (h : tree.at? path = tree'.at? path) :
    tree.isFile path = tree'.isFile path := by
  rw [isFile, isFile, h]

theorem read?_congr (h : tree.at? path = tree'.at? path) :
    tree.read? path = tree'.read? path := by
  rw [read?, read?, h]

theorem isFile_of_read? {content : String} (h : tree.read? path = some content) :
    tree.isFile path = true := by
  rw [read?] at h
  rw [isFile]
  split at h
  · rename_i hat
    rw [hat]
  · cases h

end FileTree

namespace Surroundings

variable {s t : Surroundings} {directory d : FilePath} {path : FilePath}

/-! ### Settings paths -/

theorem segments_settingsFileName :
    (FilePath.ofText settingsFileName).segments = [utf8 settingsFileName] := by
  decide

theorem isIdle_settingsFileName : isIdle (utf8 settingsFileName) = false := by
  decide

theorem steps_settingsPath (directory : FilePath) :
    (settingsPath directory).steps = directory.steps ++ [utf8 settingsFileName] :=
  steps_join segments_settingsFileName isIdle_settingsFileName

theorem getLast?_settingsPath (directory : FilePath) :
    (settingsPath directory).segments.getLast? = some (utf8 settingsFileName) := by
  rw [settingsPath, segments_join (by decide), segments_settingsFileName, List.getLast?_concat]

/-- Settings paths that are the same but for idle segments name the same. -/
theorem at?_settingsPath_eq {tree : FileTree} {a b : FilePath}
    (h : (settingsPath a).sameAs (settingsPath b) = true) :
    tree.at? (settingsPath a) = tree.at? (settingsPath b) := by
  refine FileTree.at?_eq_of_sameAs h ?_ ?_ <;>
  · intro s hs
    rw [getLast?_settingsPath] at hs
    rw [← Option.some.inj hs, isIdle_settingsFileName]

/-- The settings paths of a directory and of one above it are not the same. -/
theorem sameAs_settingsPath_eq_false {a b : FilePath} (h : b.IsAbove a) :
    (settingsPath a).sameAs (settingsPath b) = false := by
  rw [Bool.eq_false_iff]
  intro hsame
  have hsteps := eq_of_beq ((Bool.and_eq_true _ _).mp hsame).2
  rw [steps_settingsPath, steps_settingsPath] at hsteps
  exact h.2 (List.append_cancel_right hsteps).symm

/-! ### The walk upwards -/

theorem isRootFile_congr (h : s.tree.at? path = t.tree.at? path) :
    s.isRootFile path = t.isRootFile path := by
  rw [isRootFile, isRootFile, FileTree.read?_congr h]

theorem isFile_of_isRootFile (h : s.isRootFile path = true) : s.tree.isFile path = true := by
  rw [isRootFile] at h
  split at h
  · cases h
  · rename_i hread
    exact FileTree.isFile_of_read? hread

theorem walk_cons (s : Surroundings) (d : FilePath) (rest : List FilePath) :
    s.walk (d :: rest) =
      if s.tree.isFile (settingsPath d) then
        if s.isRootFile (settingsPath d) then ([settingsPath d], true)
        else (settingsPath d :: (s.walk rest).1, (s.walk rest).2)
      else s.walk rest := rfl

/-- A root ends the walk. -/
theorem walk_cons_of_isRootFile (h : s.isRootFile (settingsPath d) = true)
    (rest : List FilePath) : s.walk (d :: rest) = ([settingsPath d], true) := by
  rw [walk_cons, if_pos (isFile_of_isRootFile h), if_pos h]

/-- The walk lists settings paths of the directories, and these name files. -/
theorem of_mem_walk {directories : List FilePath} (h : path ∈ (s.walk directories).1) :
    s.tree.isFile path = true ∧ ∃ d ∈ directories, path = settingsPath d := by
  induction directories with
  | nil => cases h
  | cons d rest ih =>
    have hrest (h : path ∈ (s.walk rest).1) :
        s.tree.isFile path = true ∧ ∃ a ∈ d :: rest, path = settingsPath a := by
      obtain ⟨hfile, a, ha, hpath⟩ := ih h
      exact ⟨hfile, a, List.mem_cons_of_mem _ ha, hpath⟩
    rw [walk_cons] at h
    split at h
    · rename_i hfile
      split at h
      · rw [List.mem_singleton.mp h]
        exact ⟨hfile, d, List.mem_cons_self, rfl⟩
      · rcases List.mem_cons.mp h with rfl | h
        · exact ⟨hfile, d, List.mem_cons_self, rfl⟩
        · exact hrest h
    · exact hrest h

theorem discover_eq (s : Surroundings) (directory : FilePath) : s.discover directory =
    if (s.walk directory.ancestors).2 then (s.walk directory.ancestors).1
    else match s.globalPath? with
      | none => (s.walk directory.ancestors).1
      | some g =>
        if s.tree.isFile g && !(s.walk directory.ancestors).1.any (·.sameAs g) then
          (s.walk directory.ancestors).1 ++ [g]
        else (s.walk directory.ancestors).1 := rfl

/-- **What the walk finds up to a root**: the files of some of the directories, in their order, the
last of which is a root. -/
theorem exists_walk (h : s.isRootFile (settingsPath d) = true) (below above : List FilePath) :
    ∃ listed : List FilePath, listed.Sublist (below ++ [d]) ∧
      (∃ r, listed.getLast? = some r ∧ s.isRootFile (settingsPath r) = true) ∧
      s.walk (below ++ d :: above) = (listed.map settingsPath, true) := by
  induction below with
  | nil => exact ⟨[d], List.Sublist.refl _, ⟨d, rfl, h⟩, walk_cons_of_isRootFile h above⟩
  | cons b below ih =>
    obtain ⟨listed, hsub, ⟨r, hlast, hr⟩, hwalk⟩ := ih
    rw [List.cons_append, List.cons_append, walk_cons, hwalk]
    split
    · split
      · rename_i hb
        exact ⟨[b], List.singleton_sublist.mpr List.mem_cons_self, ⟨b, rfl, hb⟩, rfl⟩
      · exact ⟨b :: listed, hsub.cons_cons b, ⟨r, by rw [List.getLast?_cons, hlast]; rfl, hr⟩, rfl⟩
    · exact ⟨listed, hsub.cons b, ⟨r, hlast, hr⟩, rfl⟩

/-- **The walk up to a root depends on the settings paths up to the root.** -/
theorem walk_congr {below : List FilePath} (h : s.isRootFile (settingsPath d) = true)
    (hagree : ∀ a ∈ below ++ [d], s.tree.at? (settingsPath a) = t.tree.at? (settingsPath a))
    (above : List FilePath) : s.walk (below ++ d :: above) = t.walk (below ++ d :: above) := by
  induction below with
  | nil =>
    have hd := hagree d List.mem_cons_self
    rw [List.nil_append, walk_cons_of_isRootFile h,
      walk_cons_of_isRootFile (isRootFile_congr hd ▸ h)]
  | cons b below ih =>
    have hb := hagree b List.mem_cons_self
    rw [List.cons_append, walk_cons, walk_cons, FileTree.isFile_congr hb, isRootFile_congr hb,
      ih fun a ha => hagree a (List.mem_cons_of_mem _ ha)]

/-! ### Reading the files -/

theorem readFile_congr (h : s.tree.at? path = t.tree.at? path) :
    s.readFile path = t.readFile path := by
  rw [readFile, readFile, FileTree.read?_congr h]

theorem readFiles_congr {paths : List FilePath}
    (h : ∀ path ∈ paths, s.tree.at? path = t.tree.at? path) :
    s.readFiles paths = t.readFiles paths := by
  induction paths with
  | nil => rfl
  | cons path rest ih =>
    rw [readFiles, readFiles, readFile_congr (h path List.mem_cons_self),
      ih fun p hp => h p (List.mem_cons_of_mem _ hp)]

/-! ### Behind a root -/

/-- **A root keeps everything else out.** Let the file of `d`, among the directories from
`directory` upwards, declare itself the root. Whatever else two trees hold, if they agree on the
settings paths up to `d` then the same files are found in both, and the same settings are loaded or
the same file is at fault. The files are those of some directories up to `d`, from `directory`
upwards, each at a path of its own, and the last of them is a root. -/
theorem load_eq_of_root {below above : List FilePath} (hhome : s.home = t.home)
    (hancestors : directory.ancestors = below ++ d :: above)
    (hroot : s.isRootFile (settingsPath d) = true)
    (hagree : ∀ a ∈ below ++ [d], s.tree.at? (settingsPath a) = t.tree.at? (settingsPath a)) :
    ∃ listed : List FilePath, listed.Sublist (below ++ [d]) ∧
      listed.Pairwise (fun a b => b.IsAbove a) ∧
      (∃ r, listed.getLast? = some r ∧ s.isRootFile (settingsPath r) = true) ∧
      s.discover directory = listed.map settingsPath ∧
      t.discover directory = listed.map settingsPath ∧
      (s.discover directory).Pairwise (fun p q => p.sameAs q = false) ∧
      s.load directory = t.load directory := by
  obtain ⟨listed, hsub, hlast, hwalk⟩ := exists_walk hroot below above
  have hwalk' := hwalk
  rw [walk_congr hroot hagree above] at hwalk'
  have hdiscover : s.discover directory = listed.map settingsPath := by
    rw [discover, hancestors, hwalk]
    rfl
  have hdiscover' : t.discover directory = listed.map settingsPath := by
    rw [discover, hancestors, hwalk']
    rfl
  have habove : listed.Pairwise fun a b => b.IsAbove a := by
    refine (pairwise_ancestors directory).sublist ?_
    rw [hancestors, List.append_cons below d above]
    exact hsub.trans (List.sublist_append_left _ _)
  refine ⟨listed, hsub, habove, hlast, hdiscover, hdiscover', ?_, ?_⟩
  · rw [hdiscover, List.pairwise_map]
    exact habove.imp sameAs_settingsPath_eq_false
  · have hfiles : s.readFiles (listed.map settingsPath)
        = t.readFiles (listed.map settingsPath) := by
      refine readFiles_congr fun path hpath => ?_
      obtain ⟨a, ha, rfl⟩ := List.mem_map.mp hpath
      exact hagree a (hsub.subset ha)
    rw [load, load, loadFiles, loadFiles, hdiscover, hdiscover', hfiles, hhome]

/-- A project with a root file in `/p`, and what else the tree holds. -/
def projectSurroundings (others : List (List Segment × FileNode)) : Surroundings :=
  ⟨⟨(["p", ".scry.toml"].map utf8, .file "root = true\n")
    :: (["p", "sub"].map utf8, .directory) :: others⟩, some (.ofText "/home")⟩

/-- In the project neither the malformed file of `/` nor that of the home directory, whose bytes are
no text, is seen. -/
theorem load_eq_of_root_malformed_above :
    (projectSurroundings []).isRootFile (settingsPath (.ofText "/p")) = true ∧
      (projectSurroundings []).load (.ofText "/p/sub") = (projectSurroundings
        [([".scry.toml"].map utf8, .file "["),
          (["home", ".scry.toml"].map utf8, .binary [0xFF])]).load (.ofText "/p/sub") := by
  have hread : (projectSurroundings []).tree.read? (settingsPath (.ofText "/p"))
      = some "root = true\n" := by decide
  have hmeant : FileSettings.ofText "root = true\n" = .ok ⟨some true, none, none, none⟩ := by cbv
  have hroot : (projectSurroundings []).isRootFile (settingsPath (.ofText "/p")) = true := by
    simp only [isRootFile, hread, hmeant]
    rfl
  have hbody : (FilePath.ofText "/p/sub").body = ["p", "sub"].map utf8 := by decide
  have hupward : bodiesUpward (["p", "sub"].map utf8) = [["p"].map utf8, []] := by cbv
  have hancestors : (FilePath.ofText "/p/sub").ancestors
      = [.ofText "/p/sub"] ++ .ofText "/p" :: [.ofText "/"] := by
    rw [ancestors, hbody, hupward]
    decide
  obtain ⟨_, -, -, -, -, -, -, hload⟩ := load_eq_of_root (s := projectSurroundings [])
    (t := projectSurroundings
      [([".scry.toml"].map utf8, .file "["), (["home", ".scry.toml"].map utf8, .binary [0xFF])])
    rfl hancestors hroot (by decide)
  exact ⟨hroot, hload⟩

end Surroundings

end CardFilter
