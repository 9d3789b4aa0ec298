import CardFilter.Proofs.Discovery

/-!
# Where the settings file of the home directory stands

The settings file of the home directory is meant to have the last word: it is put behind the files
that the walk upwards has found. There it stands only where the walk does not come through the home
directory. Below the home directory the walk finds the file as one of many, the file is not put in a
second time, and the walk goes on to the directories **above the home directory**, whose files come
behind it; one of them may even declare itself the root
(`CardFilter.Surroundings.discover_above_home`).

Nothing else can come behind it. The directories whose files do are those of
`CardFilter.Surroundings.beyondHome`, and up to the file of the home directory no file is a root
(`CardFilter.Surroundings.exists_discover_eq`).

The main statement is `CardFilter.Surroundings.getLast?_discover_iff`.
-/

namespace CardFilter

open FilePath

/-! ### Directories above one another -/

namespace FilePath

variable {d home directory : FilePath} {below above : List FilePath}

instance (d path : FilePath) : Decidable (d.IsAbove path) :=
  inferInstanceAs (Decidable (d.steps <+: path.steps ∧ d.steps ≠ path.steps))

theorem IsAbove.not_isAbove {a b : FilePath} (h : a.IsAbove b) : ¬b.IsAbove a :=
  fun h' => h.2 (h.1.eq_of_length_le h'.1.length_le)

theorem isAbove_congr {a b c : FilePath} (h : b.steps = c.steps) : a.IsAbove b ↔ a.IsAbove c := by
  rw [IsAbove, IsAbove, h]

/-- A directory of a path lies above those before it and below those behind it. -/
theorem isAbove_of_ancestors_eq (hancestors : directory.ancestors = below ++ d :: above) :
    (∀ b ∈ below, d.IsAbove b) ∧ ∀ a ∈ above, a.IsAbove d := by
  have hpairwise := pairwise_ancestors directory
  rw [hancestors, List.pairwise_append, List.pairwise_cons] at hpairwise
  exact ⟨fun b hb => hpairwise.2.2 b hb d List.mem_cons_self, hpairwise.2.1.1⟩

/-- **Among the directories of a path, those above one of them come behind it.** -/
theorem filter_isAbove (hancestors : directory.ancestors = below ++ d :: above)
    (hd : d.steps = home.steps) :
    directory.ancestors.filter (fun a => decide (a.IsAbove home)) = above := by
  obtain ⟨hbelow, habove⟩ := isAbove_of_ancestors_eq hancestors
  have hself : ¬d.IsAbove home := fun h => h.2 hd
  have hnone : below.filter (fun a => decide (a.IsAbove home)) = [] := by
    rw [List.filter_eq_nil_iff]
    intro b hb h
    exact (hbelow b hb).not_isAbove
      ((isAbove_congr hd).mpr (of_decide_eq_true h))
  have hall : above.filter (fun a => decide (a.IsAbove home)) = above :=
    List.filter_eq_self.mpr fun a ha => decide_eq_true ((isAbove_congr hd).mp (habove a ha))
  rw [hancestors, List.filter_append, hnone, List.nil_append,
    List.filter_cons_of_neg (by simpa using hself), hall]

end FilePath

namespace Surroundings

variable {s : Surroundings} {home directory d p : FilePath} {dirs below above : List FilePath}

/-! ### What the walk finds -/

theorem sameAs_settingsPath_iff {a b : FilePath} :
    (settingsPath a).sameAs (settingsPath b) = true ↔ a.steps = b.steps := by
  rw [sameAs_iff, steps_settingsPath, steps_settingsPath, List.append_left_inj]

/-- A directory has the same settings file however it is spelled. -/
theorem settingsPath_congr (s : Surroundings) {a b : FilePath} (h : a.steps = b.steps) :
    s.tree.isFile (settingsPath a) = s.tree.isFile (settingsPath b) ∧
      s.isRootFile (settingsPath a) = s.isRootFile (settingsPath b) := by
  have hat := @at?_settingsPath_eq s.tree _ _ (sameAs_settingsPath_iff.mpr h)
  exact ⟨by rw [FileTree.isFile, FileTree.isFile, hat],
    by rw [isRootFile, isRootFile, FileTree.read?, FileTree.read?, hat]⟩

/-- Nothing is found exactly where none of the directories has a settings file. -/
theorem walk_eq_nil_iff :
    (s.walk dirs).1 = [] ↔ ∀ d ∈ dirs, s.tree.isFile (settingsPath d) = false := by
  induction dirs with
  | nil => simp [walk]
  | cons d dirs ih =>
    rw [walk_cons, List.forall_mem_cons]
    cases hfile : s.tree.isFile (settingsPath d) with
    | true => simp only [if_true, Bool.true_eq_false, false_and, iff_false]; split <;> simp
    | false => simpa using ih

/-- A file that is no root does not end the walk. -/
theorem snd_walk_cons (h : s.isRootFile (settingsPath d) = false) (rest : List FilePath) :
    (s.walk (d :: rest)).2 = (s.walk rest).2 := by
  rw [walk_cons, h]
  split <;> rfl

/-- The walk ends at a root exactly where one of the directories has one. -/
theorem snd_walk_eq_true_iff :
    (s.walk dirs).2 = true ↔ ∃ d ∈ dirs, s.isRootFile (settingsPath d) = true := by
  induction dirs with
  | nil => simp [walk]
  | cons d dirs ih =>
    cases hroot : s.isRootFile (settingsPath d) with
    | true => simp [walk_cons_of_isRootFile hroot, hroot]
    | false => simp [snd_walk_cons hroot, ih, hroot]

/-- A root that ends the walk is found. -/
theorem exists_root_mem_walk_iff : (∃ r ∈ (s.walk dirs).1, s.isRootFile r = true) ↔
    ∃ d ∈ dirs, s.isRootFile (settingsPath d) = true := by
  constructor
  · rintro ⟨r, hr, hroot⟩
    obtain ⟨-, d, hd, rfl⟩ := of_mem_walk hr
    exact ⟨d, hd, hroot⟩
  · rintro ⟨d, hd, hroot⟩
    obtain ⟨below, above, rfl⟩ := List.append_of_mem hd
    obtain ⟨listed, -, ⟨r, hlast, hr⟩, hwalk⟩ := exists_walk hroot below above
    refine ⟨settingsPath r, ?_, hr⟩
    rw [hwalk]
    exact List.mem_map_of_mem (List.mem_of_getLast? hlast)

/-- A walk that does not end at a root has found none. -/
theorem isRootFile_eq_false_of_mem_walk (h : (s.walk dirs).2 = false) :
    ∀ q ∈ (s.walk dirs).1, s.isRootFile q = false := by
  intro q hq
  by_contra hroot
  rw [snd_walk_eq_true_iff.mpr (exists_root_mem_walk_iff.mp ⟨q, hq, by simpa using hroot⟩)] at h
  cases h

/-- A settings file is found before those above it, if it is no root. -/
theorem fst_walk_cons_of_isFile (h : s.tree.isFile (settingsPath d) = true)
    (rest : List FilePath) : (s.walk (d :: rest)).1 = settingsPath d ::
      (s.walk (if s.isRootFile (settingsPath d) then [] else rest)).1 := by
  rw [walk_cons, if_pos h]
  split <;> rfl

/-- **Without a root the walk goes on**, and finds what it would find from there. -/
theorem walk_append (h : (s.walk below).2 = false) (rest : List FilePath) :
    s.walk (below ++ rest) = ((s.walk below).1 ++ (s.walk rest).1, (s.walk rest).2) := by
  induction below with
  | nil => rfl
  | cons b below ih =>
    cases hb : s.isRootFile (settingsPath b) with
    | true =>
      rw [walk_cons_of_isRootFile hb] at h
      cases h
    | false =>
      rw [List.cons_append, walk_cons, walk_cons, hb, ih (snd_walk_cons hb below ▸ h)]
      split <;> rfl

/-- A root ends the walk, whatever comes behind it. -/
theorem walk_append_of_snd (h : (s.walk below).2 = true) (rest : List FilePath) :
    s.walk (below ++ rest) = s.walk below := by
  induction below with
  | nil => cases h
  | cons b below ih =>
    cases hb : s.isRootFile (settingsPath b) with
    | true => rw [List.cons_append, walk_cons_of_isRootFile hb, walk_cons_of_isRootFile hb]
    | false => rw [List.cons_append, walk_cons, walk_cons, ih (snd_walk_cons hb below ▸ h)]

/-! ### The file of the home directory -/

theorem isGlobal_iff (hhome : s.home = some home) :
    s.isGlobal p = true ↔ p.sameAs (settingsPath home) = true := by
  rw [isGlobal, globalPath?, hhome]
  rfl

/-- **The directories above the home directory that the walk comes to.** It comes there only through
the home directory, and not if the file there is a root. -/
def beyondHome (s : Surroundings) (home directory : FilePath) : List FilePath :=
  if directory.ancestors.any (·.sameAs home) && !s.isRootFile (settingsPath home) then
    directory.ancestors.filter fun d => d.IsAbove home
  else []

theorem isAbove_of_mem_beyondHome (h : d ∈ s.beyondHome home directory) : d.IsAbove home := by
  rw [beyondHome] at h
  split at h
  · exact of_decide_eq_true (List.mem_filter.mp h).2
  · exact absurd h List.not_mem_nil

/-- The walk finds the file of the home directory in the home directory only. -/
theorem isGlobal_eq_false_of_mem_walk (hhome : s.home = some home)
    (hdirs : ∀ d ∈ dirs, d.steps ≠ home.steps) (h : p ∈ (s.walk dirs).1) :
    s.isGlobal p = false := by
  obtain ⟨-, d, hd, rfl⟩ := of_mem_walk h
  rw [Bool.eq_false_iff, Ne, isGlobal_iff hhome, sameAs_settingsPath_iff]
  exact hdirs d hd

theorem discover_eq_of_home (hhome : s.home = some home) (directory : FilePath) :
    s.discover directory =
      if (s.walk directory.ancestors).2 then (s.walk directory.ancestors).1
      else if s.tree.isFile (settingsPath home) &&
          !(s.walk directory.ancestors).1.any (·.sameAs (settingsPath home)) then
        (s.walk directory.ancestors).1 ++ [settingsPath home]
      else (s.walk directory.ancestors).1 := by
  rw [discover_eq, globalPath?, hhome]
  rfl

/-- Outside the home directory its file is put behind what was found, and nothing that was found is
a root. -/
theorem discover_eq_of_outside (hhome : s.home = some home)
    (hout : ∀ d ∈ directory.ancestors, d.steps ≠ home.steps) (hp : p ∈ s.discover directory)
    (hglobal : s.isGlobal p = true) : (s.walk directory.ancestors).2 = false ∧
      s.discover directory = (s.walk directory.ancestors).1 ++ [p] := by
  have hnot : p ∉ (s.walk directory.ancestors).1 := fun h => by
    rw [isGlobal_eq_false_of_mem_walk hhome hout h] at hglobal
    cases hglobal
  rw [discover_eq_of_home hhome] at hp ⊢
  split at hp
  · exact absurd hp hnot
  · rename_i hrooted
    split at hp
    · rename_i hput
      obtain rfl := List.mem_singleton.mp ((List.mem_append.mp hp).resolve_left hnot)
      rw [if_neg hrooted, if_pos hput]
      exact ⟨by simpa using hrooted, rfl⟩
    · exact absurd hp hnot

/-- In the home directory and below it, its file is where the walk finds it. -/
theorem discover_eq_of_inside (hhome : s.home = some home)
    (hancestors : directory.ancestors = below ++ d :: above) (hd : d.steps = home.steps)
    (hp : p ∈ s.discover directory) (hglobal : s.isGlobal p = true) :
    (s.walk below).2 = false ∧ p = settingsPath d ∧ s.discover directory
      = (s.walk below).1 ++ p :: (s.walk (if s.isRootFile p then [] else above)).1 := by
  obtain ⟨hbelow, habove⟩ := isAbove_of_ancestors_eq hancestors
  have hnotbelow : p ∉ (s.walk below).1 := fun h => by
    rw [isGlobal_eq_false_of_mem_walk hhome
      (fun b hb => hd ▸ (hbelow b hb).2.symm) h] at hglobal
    cases hglobal
  have hnotabove : p ∉ (s.walk above).1 := fun h => by
    rw [isGlobal_eq_false_of_mem_walk hhome (fun a ha => hd ▸ (habove a ha).2) h] at hglobal
    cases hglobal
  rw [discover_eq_of_home hhome, hancestors] at hp ⊢
  cases hrooted : (s.walk below).2 with
  | true =>
    rw [walk_append_of_snd hrooted, if_pos hrooted] at hp
    exact absurd hp hnotbelow
  | false =>
    rw [walk_append hrooted, ← (settingsPath_congr s hd).1] at hp ⊢
    cases hthere : s.tree.isFile (settingsPath d) with
    | false =>
      rw [walk_cons, hthere] at hp
      have hp : p ∈ (s.walk below).1 ++ (s.walk above).1 := by simpa using hp
      exact absurd hp (by simp [hnotbelow, hnotabove])
    | true =>
      -- the file is found where it is, and is not put in a second time
      have hany : ((s.walk below).1 ++ (s.walk (d :: above)).1).any
          (·.sameAs (settingsPath home)) = true := by
        rw [fst_walk_cons_of_isFile hthere]
        simp [sameAs_settingsPath_iff.mpr hd]
      rw [hany, Bool.not_true, Bool.and_false, if_neg Bool.false_ne_true, ite_self,
        fst_walk_cons_of_isFile hthere] at hp ⊢
      obtain rfl : p = settingsPath d := by
        rcases List.mem_cons.mp ((List.mem_append.mp hp).resolve_left hnotbelow) with h | h
        · exact h
        · split at h
          · exact absurd h List.not_mem_nil
          · exact absurd h hnotabove
      exact ⟨rfl, rfl, rfl⟩

/-! ### A root above the home directory -/

/-- A root file above the home directory `/home/u`, which has a settings file and holds `work`. -/
def sharedSurroundings : Surroundings :=
  ⟨⟨[(["home", ".scry.toml"].map utf8, .file "root = true\n"),
    (["home", "u", ".scry.toml"].map utf8, .file ""),
    (["home", "u", "work"].map utf8, .directory)]⟩, some (.ofText "/home/u")⟩

theorem isRootFile_sharedSurroundings :
    sharedSurroundings.isRootFile (settingsPath (.ofText "/home/u")) = false ∧
      sharedSurroundings.isRootFile (settingsPath (.ofText "/home")) = true := by
  have hempty : FileSettings.ofText "" = .ok ⟨none, none, none, none⟩ := by cbv
  have hroot : FileSettings.ofText "root = true\n" = .ok ⟨some true, none, none, none⟩ := by cbv
  have hread : sharedSurroundings.tree.read? (settingsPath (.ofText "/home/u")) = some "" ∧
      sharedSurroundings.tree.read? (settingsPath (.ofText "/home")) = some "root = true\n" := by
    decide
  simp only [isRootFile, hread.1, hread.2, hempty, hroot]
  exact ⟨rfl, rfl⟩

theorem ancestors_work : (FilePath.ofText "/home/u/work").ancestors
    = [.ofText "/home/u/work", .ofText "/home/u", .ofText "/home", .ofText "/"] := by
  have hbody : (FilePath.ofText "/home/u/work").body = ["home", "u", "work"].map utf8 := by decide
  have hupward : bodiesUpward (["home", "u", "work"].map utf8)
      = [["home", "u"].map utf8, ["home"].map utf8, []] := by cbv
  rw [ancestors, hbody, hupward]
  decide

theorem discover_sharedSurroundings : sharedSurroundings.discover (.ofText "/home/u/work")
    = [.ofText "/home/u/.scry.toml", .ofText "/home/.scry.toml"] := by
  have hwalk : sharedSurroundings.walk
      [.ofText "/home/u/work", .ofText "/home/u", .ofText "/home", .ofText "/"]
      = ([.ofText "/home/u/.scry.toml", .ofText "/home/.scry.toml"], true) := by
    have hfiles : sharedSurroundings.tree.isFile (settingsPath (.ofText "/home/u/work")) = false ∧
      sharedSurroundings.tree.isFile (settingsPath (.ofText "/home/u")) = true := by decide
    rw [walk_cons, hfiles.1, walk_cons, hfiles.2, isRootFile_sharedSurroundings.1,
      walk_cons_of_isRootFile isRootFile_sharedSurroundings.2]
    decide
  rw [discover, ancestors_work, hwalk]
  rfl

/-- **The file of the home directory does not have the last word** in a directory below, where a
directory above the home directory has a settings file, and it counts beside that file even if that
one declares itself the root. -/
theorem discover_above_home : ∃ (s : Surroundings) (home directory p q : FilePath),
    s.home = some home ∧ s.discover directory = [p, q] ∧ s.isGlobal p = true ∧
      s.isGlobal q = false ∧ s.isRootFile q = true :=
  ⟨sharedSurroundings, .ofText "/home/u", .ofText "/home/u/work", .ofText "/home/u/.scry.toml",
    .ofText "/home/.scry.toml", rfl, discover_sharedSurroundings, by decide, by decide,
    isRootFile_sharedSurroundings.2⟩

/-! ### The last word -/

/-- **What stands before the file of the home directory and what behind it**: before it, files that
are no roots; behind it, the files of the directories beyond the home directory. -/
theorem exists_discover_eq (hhome : s.home = some home) (hp : p ∈ s.discover directory)
    (hglobal : s.isGlobal p = true) : ∃ before : List FilePath,
      s.discover directory = before ++ p :: (s.walk (s.beyondHome home directory)).1 ∧
      ∀ q ∈ before, s.isRootFile q = false := by
  by_cases hin : ∃ d ∈ directory.ancestors, d.steps = home.steps
  · obtain ⟨d, hmem, hd⟩ := hin
    obtain ⟨below, above, hancestors⟩ := List.append_of_mem hmem
    obtain ⟨hrooted, hpd, hdiscover⟩ := discover_eq_of_inside hhome hancestors hd hp hglobal
    have hroot : s.isRootFile p = s.isRootFile (settingsPath home) := by
      rw [hpd, (settingsPath_congr s hd).2]
    have hany : directory.ancestors.any (·.sameAs home) = true :=
      List.any_eq_true.mpr ⟨d, hmem, sameAs_iff.mpr hd⟩
    refine ⟨(s.walk below).1, ?_, isRootFile_eq_false_of_mem_walk hrooted⟩
    rw [hdiscover, hroot, beyondHome, hany, filter_isAbove hancestors hd]
    cases s.isRootFile (settingsPath home) <;> rfl
  · obtain ⟨hrooted, hdiscover⟩ :=
      discover_eq_of_outside hhome (fun d hd h => hin ⟨d, hd, h⟩) hp hglobal
    have hany : directory.ancestors.any (·.sameAs home) = false := by
      rw [Bool.eq_false_iff, Ne, List.any_eq_true]
      exact fun ⟨d, hd, h⟩ => hin ⟨d, hd, sameAs_iff.mp h⟩
    refine ⟨(s.walk directory.ancestors).1, ?_, isRootFile_eq_false_of_mem_walk hrooted⟩
    rw [hdiscover, beyondHome, hany]
    rfl

/-- **Whether the file of the home directory has the last word.** Where it counts, it is the last
file exactly if none of the directories beyond the home directory has a settings file, and another
file that declares itself the root counts beside it exactly if one of these directories has one. -/
theorem getLast?_discover_iff (hhome : s.home = some home) (hp : p ∈ s.discover directory)
    (hglobal : s.isGlobal p = true) :
    ((s.discover directory).getLast? = some p ↔
      ∀ d ∈ s.beyondHome home directory, s.tree.isFile (settingsPath d) = false) ∧
    ((∃ r ∈ s.discover directory, s.isGlobal r = false ∧ s.isRootFile r = true) ↔
      ∃ d ∈ s.beyondHome home directory, s.isRootFile (settingsPath d) = true) := by
  obtain ⟨before, hdiscover, hbefore⟩ := exists_discover_eq hhome hp hglobal
  have hbehind : ∀ q ∈ (s.walk (s.beyondHome home directory)).1, s.isGlobal q = false :=
    fun q => isGlobal_eq_false_of_mem_walk hhome fun d hd => (isAbove_of_mem_beyondHome hd).2
  rw [hdiscover, ← walk_eq_nil_iff, ← exists_root_mem_walk_iff]
  refine ⟨⟨fun hlast => ?_, fun hnil => by rw [hnil, List.getLast?_concat]⟩, ?_, ?_⟩
  · by_contra hne
    obtain ⟨init, q, hq⟩ := (List.eq_nil_or_concat' _).resolve_left hne
    have hmem : q ∈ (s.walk (s.beyondHome home directory)).1 := by simp [hq]
    rw [hq, ← List.cons_append, ← List.append_assoc, List.getLast?_concat] at hlast
    rw [← Option.some.inj hlast, hbehind q hmem] at hglobal
    cases hglobal
  · rintro ⟨r, hr, hother, hroot⟩
    rcases List.mem_append.mp hr with hr | hr
    · rw [hbefore r hr] at hroot
      cases hroot
    · rcases List.mem_cons.mp hr with rfl | hr
      · rw [hglobal] at hother
        cases hother
      · exact ⟨r, hr, hroot⟩
  · rintro ⟨r, hr, hroot⟩
    exact ⟨r, by simp [hr], hbehind r hr, hroot⟩

/-- There the root file above the home directory comes behind the file of the home directory, and it
is what decides both questions. -/
theorem getLast?_discover_iff_work :
    .ofText "/home/u/.scry.toml" ∈ sharedSurroundings.discover (.ofText "/home/u/work") ∧
      sharedSurroundings.isGlobal (.ofText "/home/u/.scry.toml") = true ∧
      .ofText "/home" ∈ sharedSurroundings.beyondHome (.ofText "/home/u") (.ofText "/home/u/work") ∧
      (sharedSurroundings.discover (.ofText "/home/u/work")).getLast?
        ≠ some (.ofText "/home/u/.scry.toml") ∧
      ∃ r ∈ sharedSurroundings.discover (.ofText "/home/u/work"),
        sharedSurroundings.isGlobal r = false ∧ sharedSurroundings.isRootFile r = true := by
  have hmem : .ofText "/home/u/.scry.toml"
      ∈ sharedSurroundings.discover (.ofText "/home/u/work") := by
    rw [discover_sharedSurroundings]
    exact List.mem_cons_self
  have hglobal : sharedSurroundings.isGlobal (.ofText "/home/u/.scry.toml") = true := by decide
  have hbeyond : .ofText "/home"
      ∈ sharedSurroundings.beyondHome (.ofText "/home/u") (.ofText "/home/u/work") := by
    rw [beyondHome, ancestors_work, isRootFile_sharedSurroundings.1]
    decide
  obtain ⟨hlast, hroot⟩ := getLast?_discover_iff rfl hmem hglobal
  refine ⟨hmem, hglobal, hbeyond, fun h => ?_,
    hroot.mpr ⟨_, hbeyond, isRootFile_sharedSurroundings.2⟩⟩
  have hnone := hlast.mp h _ hbeyond
  rw [isFile_of_isRootFile isRootFile_sharedSurroundings.2] at hnone
  cases hnone

end Surroundings

end CardFilter
