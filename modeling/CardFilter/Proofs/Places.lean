import CardFilter.FileTree
import CardFilter.Proofs.Paths

/-!
# Where a path leads in a file tree

A path is followed from the root step by step, and what it names is what stands at the place where
it leads. Two things are needed of this:

* paths that are the same but for idle segments lead to the same place
  (`CardFilter.FileTree.at?_eq_of_sameAs`), provided that they end in a name;
* **a file that is written changes nothing else** (`CardFilter.FileTree.at?_put`): a path names
  what it named before, or it leads to the new file. The tree is not asked to be well-formed for
  this. It is enough that every directory on the way to the file is there
  (`CardFilter.FileTree.InDirectories`), which holds wherever a path leads.
-/

namespace CardFilter.FileTree

open FilePath

variable {tree : FileTree} {place q r : List Segment} {segments : List Segment}

/-- Where an absolute path leads, if it can be followed. -/
def place? (tree : FileTree) (path : FilePath) : Option (List Segment) :=
  if path.isAbsolute then tree.follow? [] path.segments else none

theorem at?_eq_bind (tree : FileTree) (path : FilePath) :
    tree.at? path = (tree.place? path).bind tree.node? := by
  rw [at?, place?]
  split <;> rfl

/-! ### Idle segments -/

theorem follow?_cons (tree : FileTree) (place : List Segment) (s : Segment)
    (segments : List Segment) : tree.follow? place (s :: segments) =
      if tree.node? place = some .directory then
        if isIdle s then tree.follow? place segments
        else if s = upward then tree.follow? place.dropLast segments
        else if (tree.node? (place ++ [s])).isSome then tree.follow? (place ++ [s]) segments
        else none
      else none := rfl

theorem follow?_cons_of_ne {s : Segment} (h : tree.node? place ≠ some .directory) :
    tree.follow? place (s :: segments) = none := by
  rw [follow?_cons, if_neg h]

theorem follow?_cons_of_isIdle {s : Segment} (h : tree.node? place = some .directory)
    (hs : isIdle s = true) : tree.follow? place (s :: segments) = tree.follow? place segments := by
  rw [follow?_cons, if_pos h, if_pos hs]

/-- **Idle segments lead nowhere else**, where the last segment is a name. -/
theorem follow?_names (hlast : ∀ s ∈ segments.getLast?, isIdle s = false) :
    tree.follow? place segments = tree.follow? place (names segments) := by
  induction segments generalizing place with
  | nil => rfl
  | cons s rest ih =>
    cases rest with
    | nil => rw [names_cons_of_not_isIdle (hlast s rfl), names_nil]
    | cons t rest =>
      have ih (place : List Segment) := @ih place hlast
      cases hs : isIdle s with
      | false =>
        rw [names_cons_of_not_isIdle hs, follow?_cons tree place s (t :: rest),
          follow?_cons tree place s (names (t :: rest)), ih, ih, ih]
      | true =>
        rw [names_cons_of_isIdle hs]
        by_cases hplace : tree.node? place = some .directory
        · rw [follow?_cons_of_isIdle hplace hs, ih]
        · -- the name that follows asks for a directory as well
          obtain ⟨u, more, hmore⟩ : ∃ u more, names (t :: rest) = u :: more := by
            refine List.exists_cons_of_ne_nil fun hnil => ?_
            have hmem := List.getLast_mem (List.cons_ne_nil t rest)
            have hidle := hlast _ (List.getLast?_eq_some_getLast (List.cons_ne_nil t rest))
            rw [names, List.filter_eq_nil_iff] at hnil
            exact hnil _ hmem (by rw [hidle]; rfl)
          rw [hmore, follow?_cons_of_ne hplace, follow?_cons_of_ne hplace]

/-- **Paths that are the same but for idle segments name the same**, if they end in a name. -/
theorem at?_eq_of_sameAs {p p' : FilePath} (h : p.sameAs p' = true)
    (hp : ∀ s ∈ p.segments.getLast?, isIdle s = false)
    (hp' : ∀ s ∈ p'.segments.getLast?, isIdle s = false) : tree.at? p = tree.at? p' := by
  obtain ⟨habsolute, hsteps⟩ := (Bool.and_eq_true _ _).mp h
  rw [beq_iff_eq] at habsolute hsteps
  have hfollow {p : FilePath} (hp : ∀ s ∈ p.segments.getLast?, isIdle s = false)
      (habs : p.isAbsolute = true) : tree.follow? [] p.segments = tree.follow? [] p.steps := by
    obtain ⟨first, rest, hsegments⟩ := List.exists_cons_of_ne_nil (segments_ne_nil p)
    obtain ⟨rfl, hrest⟩ := (isAbsolute_iff hsegments).mp habs
    have hnames : tree.follow? [] rest = tree.follow? [] (names rest) := by
      obtain ⟨t, rest, rfl⟩ := List.exists_cons_of_ne_nil hrest
      rw [hsegments, List.getLast?_cons_cons] at hp
      exact follow?_names hp
    rw [steps_eq hsegments, if_neg (by simp [hrest]), hsegments, follow?_cons, follow?_cons,
      if_pos isIdle_empty, if_pos isIdle_empty, hnames]
  rw [at?, at?, ← habsolute]
  split
  · rename_i habs
    rw [hfollow hp habs, hfollow hp' (habsolute ▸ habs), hsteps]
  · rfl

/-! ### The directories on the way -/

/-- Every directory on the way to the place is there. -/
def InDirectories (tree : FileTree) (place : List Segment) : Prop :=
  ∀ q, q <+: place → q ≠ place → tree.node? q = some .directory

theorem inDirectories_root (tree : FileTree) : tree.InDirectories [] :=
  fun _ hq hne => absurd (List.prefix_nil.mp hq) hne

theorem InDirectories.concat (h : tree.InDirectories place)
    (hplace : tree.node? place = some .directory) (name : Segment) :
    tree.InDirectories (place ++ [name]) := by
  intro q hq hne
  have hq : q <+: place := (List.prefix_concat_iff.mp hq).resolve_left hne
  by_cases heq : q = place
  · rw [heq, hplace]
  · exact h q hq heq

theorem InDirectories.dropLast (h : tree.InDirectories place) :
    tree.InDirectories place.dropLast := by
  intro q hq hne
  refine h q (hq.trans (List.dropLast_prefix place)) ?_
  rintro rfl
  exact hne (hq.eq_of_length_le (List.dropLast_prefix q).length_le)

/-- **Wherever segments lead, the directories on the way are there.** -/
theorem InDirectories.follow? (h : tree.InDirectories place)
    (hfollow : tree.follow? place segments = some q) : tree.InDirectories q := by
  induction segments generalizing place with
  | nil => exact Option.some.inj hfollow ▸ h
  | cons s rest ih =>
    rw [follow?_cons] at hfollow
    split at hfollow
    · rename_i hplace
      split at hfollow
      · exact ih h hfollow
      · split at hfollow
        · exact ih h.dropLast hfollow
        · split at hfollow
          · exact ih (h.concat hplace s) hfollow
          · cases hfollow
    · cases hfollow

theorem follow?_append (others : List Segment) : tree.follow? place (segments ++ others)
    = (tree.follow? place segments).bind fun q => tree.follow? q others := by
  induction segments generalizing place with
  | nil => rfl
  | cons s rest ih =>
    rw [List.cons_append, follow?_cons, follow?_cons]
    repeat' split
    any_goals exact ih
    all_goals rfl

/-! ### A file that is put in the tree -/

section Put

variable {content : String}

theorem node?_put_self (tree : FileTree) (place : List Segment) (content : String) :
    (tree.put place content).node? place = some (.file content) := by
  simp [put, node?]

theorem lookup_filter_of_ne {nodes : List (List Segment × FileNode)} (hq : q ≠ place) :
    (nodes.filter fun (p, _) => p != place).lookup q = nodes.lookup q := by
  induction nodes with
  | nil => rfl
  | cons entry nodes ih =>
    obtain ⟨p, node⟩ := entry
    by_cases hp : p = place
    · subst hp
      simp [ih, List.lookup_cons, beq_eq_false_iff_ne.mpr hq]
    · simp [hp, ih, List.lookup_cons]

/-- **Every other place holds what it held**, if the directories on the way were there. -/
theorem node?_put_of_ne (h : tree.InDirectories place) (hq : q ≠ place) :
    (tree.put place content).node? q = tree.node? q := by
  have hlookup : (tree.put place content).nodes.lookup q = tree.nodes.lookup q := by
    rw [put, List.lookup_cons, beq_eq_false_iff_ne.mpr hq]
    exact lookup_filter_of_ne hq
  rw [node?, node?, hlookup]
  split
  · rfl
  · rename_i hnone
    by_cases hway : q <+: place
    · -- a directory on the way: it was there before
      have hdirectory := h q hway hq
      rw [node?, hnone] at hdirectory
      simp only [put, List.any_cons, List.isPrefixOf_iff_prefix.mpr hway]
      simpa using hdirectory.symm
    · have hfalse : q.isPrefixOf place = false := by
        rw [Bool.eq_false_iff]
        exact fun hpre => hway (List.isPrefixOf_iff_prefix.mp hpre)
      have hany : ((tree.nodes.filter fun (p, _) => p != place).any fun (p, _) => q.isPrefixOf p)
          = tree.nodes.any fun (p, _) => q.isPrefixOf p := by
        rw [List.any_filter]
        refine congrArg _ (funext fun entry => ?_)
        by_cases hentry : entry.1 = place <;> simp [hentry, hfalse]
      simp only [put, List.any_cons, hfalse, Bool.false_or, hany]

/-- Segments lead where they led before, or they led nowhere and now lead to the new file. -/
theorem follow?_put (h : tree.InDirectories place) (hplace : tree.node? place ≠ some .directory)
    (content : String) (q segments : List Segment) :
    (tree.put place content).follow? q segments = tree.follow? q segments ∨
      tree.follow? q segments = none ∧ tree.node? place = none ∧
        (tree.put place content).follow? q segments = some place := by
  have hfile : (tree.put place content).node? place ≠ some .directory := by
    rw [node?_put_self]
    exact fun h => by cases h
  have hdirectory (q : List Segment) : (tree.put place content).node? q = some .directory ↔
      tree.node? q = some .directory := by
    by_cases hq : q = place
    · rw [hq]
      exact iff_of_false hfile hplace
    · rw [node?_put_of_ne h hq]
  induction segments generalizing q with
  | nil => exact Or.inl rfl
  | cons s rest ih =>
    by_cases hq : tree.node? q = some .directory
    · rw [follow?_cons, follow?_cons, if_pos hq, if_pos ((hdirectory q).mpr hq)]
      split
      · exact ih _
      split
      · exact ih _
      by_cases hnext : q ++ [s] = place
      · rw [hnext, if_pos (by rw [node?_put_self]; rfl)]
        split
        · exact ih _
        · rename_i hnone
          rw [Bool.not_eq_true, Option.isSome_eq_false_iff, Option.isNone_iff_eq_none] at hnone
          cases rest with
          | nil => exact Or.inr ⟨rfl, hnone, rfl⟩
          | cons => exact Or.inl (follow?_cons_of_ne hfile)
      · rw [node?_put_of_ne h hnext]
        split
        · exact ih _
        · exact Or.inl rfl
    · rw [follow?_cons_of_ne hq, follow?_cons_of_ne (mt (hdirectory q).mp hq)]
      exact Or.inl rfl

/-- **A path names what it named before, or it leads to the new file.** -/
theorem at?_put (h : tree.InDirectories place) (hplace : tree.node? place ≠ some .directory)
    (path : FilePath) : (tree.put place content).at? path = tree.at? path ∨
      tree.at? path = tree.node? place ∧
        (tree.put place content).at? path = some (.file content) := by
  rw [at?_eq_bind, at?_eq_bind, place?, place?]
  split
  · rcases follow?_put h hplace content [] path.segments with heq | ⟨hnone, hfree, hsome⟩
    · rw [heq]
      cases hfollow : tree.follow? [] path.segments with
      | none => exact Or.inl rfl
      | some q =>
        by_cases hq : q = place
        · exact Or.inr ⟨by rw [hq]; rfl, by rw [hq]; exact node?_put_self tree place content⟩
        · exact Or.inl (node?_put_of_ne h hq)
    · rw [hnone, hsome]
      exact Or.inr ⟨hfree.symm, node?_put_self tree place content⟩
  · exact Or.inl rfl

/-- Segments that led to a place still do so. -/
theorem follow?_put_of_eq_some {segments : List Segment} (h : tree.InDirectories place)
    (hplace : tree.node? place ≠ some .directory) (hfollow : tree.follow? [] segments = some q) :
    (tree.put place content).follow? [] segments = some q := by
  rcases follow?_put h hplace content [] segments with heq | ⟨hnone, -⟩
  · rw [heq, hfollow]
  · rw [hfollow] at hnone
    cases hnone

/-- A tree in which a file was written: where the file is, and what stood there. -/
structure IsWritten (tree : FileTree) (path : FilePath) (content : String) (place : List Segment)
    (after : FileTree) : Prop where
  /-- The file is put where the path leads. -/
  eq_put : after = tree.put place content
  /-- The directories on the way were there. -/
  inDirectories : tree.InDirectories place
  /-- No directory stood there. -/
  not_directory : tree.node? place ≠ some .directory
  /-- The path named what stood there. -/
  at?_eq : tree.at? path = tree.node? place
  /-- The path leads to the file. -/
  place?_eq : after.place? path = some place

/-- A file is replaced where the path leads. -/
theorem isWritten_replaced {path : FilePath} {node : FileNode} (hat : tree.at? path = some node)
    (hnode : node ≠ .directory) (hfollow : tree.follow? [] path.segments = some place) :
    tree.IsWritten path content place (tree.put place content) := by
  have habs : path.isAbsolute = true := by
    by_contra habs
    rw [at?, if_neg habs] at hat
    cases hat
  have hin := (inDirectories_root tree).follow? hfollow
  have hplace : tree.at? path = tree.node? place := by
    rw [at?, if_pos habs, hfollow]
    rfl
  have hnot : tree.node? place ≠ some .directory := by
    rw [← hplace, hat]
    exact fun h => hnode (Option.some.inj h)
  exact ⟨rfl, hin, hnot, hplace,
    by rw [place?, if_pos habs, follow?_put_of_eq_some hin hnot hfollow]⟩

/-- A name in a directory is one step away, if anything has it. -/
theorem follow?_name {name : Segment} (hq : tree.node? q = some .directory)
    (hidle : FilePath.isIdle name = false) (hup : name ≠ upward) :
    tree.follow? q [name] =
      if (tree.node? (q ++ [name])).isSome then some (q ++ [name]) else none := by
  rw [follow?_cons, if_pos hq, if_neg (by simp [hidle]), if_neg hup]
  rfl

/-- A new file is put into the directory in which the path lies. -/
theorem isWritten_created {path : FilePath} {name : Segment} (hat : tree.at? path = none)
    (habs : path.isAbsolute = true) (hlast : path.segments.getLast? = some name)
    (hfollow : tree.follow? [] path.segments.dropLast = some q)
    (hq : tree.node? q = some .directory) (hidle : FilePath.isIdle name = false)
    (hup : name ≠ upward) :
    tree.IsWritten path content (q ++ [name]) (tree.put (q ++ [name]) content) := by
  obtain ⟨init, hsegments⟩ := List.getLast?_eq_some_iff.mp hlast
  rw [hsegments, List.dropLast_concat] at hfollow
  have hin := ((inDirectories_root tree).follow? hfollow).concat hq name
  -- the path led nowhere, so that nothing stood at its end
  have hfree : tree.node? (q ++ [name]) = none := by
    rw [at?, if_pos habs, hsegments, follow?_append, hfollow, Option.bind_some,
      follow?_name hq hidle hup] at hat
    by_contra hsome
    rw [if_pos (Option.isSome_iff_ne_none.mpr hsome)] at hat
    exact hsome hat
  have hnot : tree.node? (q ++ [name]) ≠ some .directory := by
    rw [hfree]
    exact fun h => by cases h
  refine ⟨rfl, hin, hnot, hat.trans hfree.symm, ?_⟩
  have hq' : (tree.put (q ++ [name]) content).node? q = some .directory := by
    rw [node?_put_of_ne hin (by simp), hq]
  rw [place?, if_pos habs, hsegments, follow?_append, follow?_put_of_eq_some hin hnot hfollow,
    Option.bind_some, follow?_name hq' hidle hup, node?_put_self]
  rfl

/-- **What a tree is after a file was written.** -/
theorem exists_isWritten {path : FilePath} {after : FileTree}
    (h : tree.write? path content = some after) :
    ∃ place, tree.IsWritten path content place after := by
  rw [write?] at h
  split at h
  · cases h
  · rename_i node hnode hat
    obtain ⟨place, hfollow, rfl⟩ := Option.map_eq_some_iff.mp h
    exact ⟨place, isWritten_replaced hat (fun heq => hnode (heq ▸ rfl)) hfollow⟩
  rename_i hat
  split at h
  · rename_i name habs hlast
    obtain ⟨q, hfollow, hput⟩ := Option.bind_eq_some_iff.mp h
    split at hput
    · rename_i hname
      simp only [Bool.and_eq_true, Bool.not_eq_true', decide_eq_true_eq, bne_iff_ne] at hname
      obtain ⟨⟨hq, hidle⟩, hup⟩ := hname
      cases hput
      exact ⟨q ++ [name], isWritten_created hat habs hlast hfollow hq hidle hup⟩
    · cases hput
  · cases h

end Put

end CardFilter.FileTree
