import CardFilter.FilePath
import Mathlib.Data.List.Basic
import Mathlib.Data.List.Induction

/-!
# The steps of a path

A path is one row of bytes, and everything that is asked of it is read off the parts between its
slashes. This file goes from the bytes to these segments and from the segments to the steps, which
are what paths are compared by.

* `CardFilter.FilePath.segments_ofSegments` and `CardFilter.FilePath.segments_join` give the
  segments of a path that is put together.
* `CardFilter.FilePath.steps_eq` is the only place where the anchor of a path is looked at: the
  steps are the first segment and those of the others that are not idle.
* `CardFilter.FilePath.pairwise_ancestors` says that the directories of a path are listed from the
  path upwards: each one has a proper initial part of the steps of those before it.
* A slash has a byte of its own in a text, so that the segments of a text are texts, and **a path
  put together from texts is a text** (`CardFilter.FilePath.IsText.join`,
  `CardFilter.FilePath.IsText.parent?`).
-/

namespace CardFilter.FilePath

/-! ### Splitting at slashes -/

theorem splitAtSlashes_ne_nil (bs : List UInt8) : splitAtSlashes bs ≠ [] := by
  cases bs with
  | nil => exact List.cons_ne_nil _ _
  | cons b rest =>
    rw [splitAtSlashes]
    split
    · exact List.cons_ne_nil _ _
    · split <;> exact List.cons_ne_nil _ _

theorem splitAtSlashes_slash (bs : List UInt8) :
    splitAtSlashes (slash :: bs) = [] :: splitAtSlashes bs := by
  rw [splitAtSlashes, if_pos rfl]

theorem splitAtSlashes_cons {b : UInt8} (hb : b ≠ slash) {bs part : List UInt8}
    {parts : List Segment} (h : splitAtSlashes bs = part :: parts) :
    splitAtSlashes (b :: bs) = (b :: part) :: parts := by
  rw [splitAtSlashes, if_neg hb, h]

/-- **A slash separates what stands before it from what stands after it.** -/
theorem splitAtSlashes_append_slash (bs ds : List UInt8) :
    splitAtSlashes (bs ++ slash :: ds) = splitAtSlashes bs ++ splitAtSlashes ds := by
  induction bs with
  | nil => exact splitAtSlashes_slash ds
  | cons b bs ih =>
    by_cases hb : b = slash
    · rw [hb, List.cons_append, splitAtSlashes_slash, splitAtSlashes_slash, ih, List.cons_append]
    · obtain ⟨part, parts, hparts⟩ := List.exists_cons_of_ne_nil (splitAtSlashes_ne_nil bs)
      rw [hparts, List.cons_append] at ih
      rw [List.cons_append, splitAtSlashes_cons hb ih, splitAtSlashes_cons hb hparts,
        List.cons_append]

theorem splitAtSlashes_of_not_mem {bs : List UInt8} (h : slash ∉ bs) :
    splitAtSlashes bs = [bs] := by
  induction bs with
  | nil => rfl
  | cons b bs ih =>
    rw [List.mem_cons, not_or] at h
    exact splitAtSlashes_cons (Ne.symm h.1) (ih h.2)

/-- Parts without slashes are found again when slashes are put between them. -/
theorem splitAtSlashes_intercalate {parts : List Segment} (hne : parts ≠ [])
    (h : ∀ part ∈ parts, slash ∉ part) : splitAtSlashes ([slash].intercalate parts) = parts := by
  induction parts with
  | nil => exact absurd rfl hne
  | cons part parts ih =>
    have hpart := splitAtSlashes_of_not_mem (h part List.mem_cons_self)
    cases parts with
    | nil => simpa [List.intercalate_singleton] using hpart
    | cons next parts =>
      rw [List.intercalate_cons_cons, List.append_assoc, List.singleton_append,
        splitAtSlashes_append_slash, hpart,
        ih (List.cons_ne_nil _ _) fun p hp => h p (List.mem_cons_of_mem _ hp),
        List.singleton_append]

theorem not_mem_of_mem_splitAtSlashes {bs part : List UInt8} (h : part ∈ splitAtSlashes bs) :
    slash ∉ part := by
  induction bs generalizing part with
  | nil =>
    rw [List.mem_singleton.mp h]
    exact List.not_mem_nil
  | cons b bs ih =>
    by_cases hb : b = slash
    · rw [hb, splitAtSlashes_slash] at h
      rcases List.mem_cons.mp h with rfl | h
      · exact List.not_mem_nil
      · exact ih h
    · obtain ⟨first, parts, hparts⟩ := List.exists_cons_of_ne_nil (splitAtSlashes_ne_nil bs)
      rw [hparts] at ih
      rw [splitAtSlashes_cons hb hparts] at h
      rcases List.mem_cons.mp h with rfl | h
      · rw [List.mem_cons, not_or]
        exact ⟨Ne.symm hb, ih List.mem_cons_self⟩
      · exact ih (List.mem_cons_of_mem _ h)

/-- The last part is empty where the text is empty or ends with a slash. -/
theorem getLast?_splitAtSlashes_concat (bs : List UInt8) (b : UInt8) :
    (splitAtSlashes (bs ++ [b])).getLast? = some [] ↔ b = slash := by
  by_cases hb : b = slash
  · rw [hb, splitAtSlashes_append_slash]
    simp [splitAtSlashes]
  · simp only [hb, iff_false]
    induction bs with
    | nil => simp [splitAtSlashes_cons hb (show splitAtSlashes [] = [[]] from rfl)]
    | cons d bs ih =>
      obtain ⟨part, parts, hparts⟩ :=
        List.exists_cons_of_ne_nil (splitAtSlashes_ne_nil (bs ++ [b]))
      rw [hparts] at ih
      by_cases hd : d = slash
      · rw [hd, List.cons_append, splitAtSlashes_slash, hparts]
        exact ih
      · rw [List.cons_append, splitAtSlashes_cons hd hparts]
        cases parts with
        | nil => simp
        | cons => simpa using ih

/-! ### Segments -/

variable {p q : FilePath}

theorem segments_ne_nil (p : FilePath) : p.segments ≠ [] := by
  simp [segments, splitAtSlashes_ne_nil]

theorem not_mem_of_mem_segments {s : Segment} (h : s ∈ p.segments) : slash ∉ s :=
  not_mem_of_mem_splitAtSlashes h

/-- **A path that is put together from segments has these segments.** -/
theorem segments_ofSegments {segments : List Segment} (hne : segments ≠ [])
    (h : ∀ s ∈ segments, slash ∉ s) : (ofSegments segments).segments = segments :=
  splitAtSlashes_intercalate hne h

/-- A path begins at the root when its first segment is empty and not its only one. -/
theorem isAbsolute_iff {first : Segment} {rest : List Segment} (h : p.segments = first :: rest) :
    p.isAbsolute = true ↔ first = [] ∧ rest ≠ [] := by
  rw [segments] at h
  rw [isAbsolute, decide_eq_true_eq]
  cases hbs : p.bytes with
  | nil =>
    rw [hbs, splitAtSlashes] at h
    obtain ⟨-, rfl⟩ := List.cons.inj h
    simp
  | cons b bs =>
    rw [hbs] at h
    by_cases hb : b = slash
    · rw [hb, splitAtSlashes_slash] at h
      obtain ⟨rfl, rfl⟩ := List.cons.inj h
      simp [hb, splitAtSlashes_ne_nil]
    · obtain ⟨part, parts, hparts⟩ := List.exists_cons_of_ne_nil (splitAtSlashes_ne_nil bs)
      rw [splitAtSlashes_cons hb hparts] at h
      obtain ⟨rfl, -⟩ := List.cons.inj h
      simp [hb]

/-- The segments of a directory to which more can be added: an empty one at the end, which comes of
a slash there, is none of them. -/
def openEnd (segments : List Segment) : List Segment :=
  if segments.getLast? = some [] then segments.dropLast else segments

/-- **The segments of a path in a directory** are those of the directory and its own. -/
theorem segments_join (hq : q.isAbsolute = false) :
    (p.join q).segments = openEnd p.segments ++ q.segments := by
  rcases List.eq_nil_or_concat' p.bytes with hp | ⟨bs, b, hp⟩
  · have hsegments : p.segments = [[]] := by rw [segments, hp]; rfl
    rw [join, if_pos (by simp [hp]), hsegments]
    rfl
  · have hlast : p.segments.getLast? = some [] ↔ b = slash := by
      rw [segments, hp, getLast?_splitAtSlashes_concat]
    have hne : ¬ (q.isAbsolute || p.bytes.isEmpty) = true := by simp [hq, hp]
    by_cases hb : b = slash
    · rw [openEnd, if_pos (hlast.mpr hb), join, if_neg hne, if_pos (by simp [hp, hb])]
      simp only [segments, hp, hb, List.append_assoc, List.singleton_append,
        splitAtSlashes_append_slash]
      simp [splitAtSlashes]
    · rw [openEnd, if_neg (mt hlast.mp hb), join, if_neg hne, if_neg (by simp [hp, hb])]
      simp only [segments, splitAtSlashes_append_slash]

/-! ### Steps -/

/-- The segments that are steps. -/
def names (segments : List Segment) : List Segment :=
  segments.filter fun s => !isIdle s

theorem isIdle_empty : isIdle [] = true := by decide

@[simp] theorem names_nil : names [] = [] := rfl

@[simp] theorem names_append (segments others : List Segment) :
    names (segments ++ others) = names segments ++ names others := by
  simp [names]

theorem names_cons_of_isIdle {s : Segment} (h : isIdle s = true) (segments : List Segment) :
    names (s :: segments) = names segments := by
  simp [names, h]

theorem names_cons_of_not_isIdle {s : Segment} (h : isIdle s = false) (segments : List Segment) :
    names (s :: segments) = s :: names segments := by
  simp [names, h]

theorem names_dropIdleEnd (segments : List Segment) :
    names (dropIdleEnd segments) = names segments := by
  induction segments using List.reverseRecOn with
  | nil => rfl
  | append_singleton segments s ih =>
    cases hs : isIdle s with
    | true => simpa [dropIdleEnd, hs, names] using ih
    | false => simp [dropIdleEnd, hs]

theorem dropIdleEnd_prefix_self (segments : List Segment) : dropIdleEnd segments <+: segments := by
  rw [dropIdleEnd, ← List.reverse_suffix, List.reverse_reverse]
  exact List.dropWhile_suffix _

theorem names_openEnd (segments : List Segment) : names (openEnd segments) = names segments := by
  rw [openEnd]
  split
  · rename_i h
    obtain ⟨init, rfl⟩ := List.getLast?_eq_some_iff.mp h
    simp [names_cons_of_isIdle isIdle_empty]
  · rfl

/-- **The steps of a path**: its first segment, where it is not the empty path, and the others that
are not idle. -/
theorem steps_eq {first : Segment} {rest : List Segment} (h : p.segments = first :: rest) :
    p.steps = if first = [] ∧ rest = [] then [] else first :: names rest := by
  have habsolute := isAbsolute_iff h
  rw [steps, body, anchor, h]
  by_cases hanchor : (p.isAbsolute || first == [dot]) = true
  · have hne : ¬ (first = [] ∧ rest = []) := by
      rintro ⟨rfl, rfl⟩
      simp_all
    simp [hanchor, hne, names]
  · have hfirst : first = [] → rest = [] := by
      intro hfirst
      by_contra hrest
      simp [habsolute.mpr ⟨hfirst, hrest⟩] at hanchor
    simp only [hanchor, Bool.false_eq_true, if_false, List.nil_append, List.length_nil,
      List.drop_zero]
    split
    · rename_i hempty
      obtain ⟨rfl, rfl⟩ := hempty
      rfl
    · rename_i hempty
      have hidle : isIdle first = false := by
        rw [isIdle, Bool.or_eq_false_iff, beq_eq_false_iff_ne]
        exact ⟨fun hf => hempty ⟨hf, hfirst hf⟩, by simpa using (by simpa using hanchor : _ ∧ _).2⟩
      exact names_cons_of_not_isIdle hidle rest

/-- More can be added to the segments of any path but the empty one. -/
theorem openEnd_cons {first : Segment} {rest : List Segment} (h : ¬(first = [] ∧ rest = [])) :
    openEnd (first :: rest) = first :: openEnd rest := by
  cases rest with
  | nil => simp_all [openEnd]
  | cons s rest =>
    rw [openEnd, openEnd, List.getLast?_cons_cons, List.dropLast_cons_cons]
    split <;> rfl

/-- **A relative path goes on where the directory ends**: its names follow the steps of the
directory. -/
theorem steps_join_of_relative {first : Segment} {rest : List Segment}
    (hp : p.segments = first :: rest) (hne : ¬(first = [] ∧ rest = []))
    (hq : q.isAbsolute = false) : (p.join q).steps = p.steps ++ names q.segments := by
  have hjoin := segments_join (p := p) hq
  rw [hp, openEnd_cons hne, List.cons_append] at hjoin
  have hsegments := segments_ne_nil q
  rw [steps_eq hjoin, steps_eq hp, if_neg (by simp [hsegments]), if_neg hne, names_append,
    names_openEnd, List.cons_append]

/-- **A file in a directory takes one step more than the directory.** -/
theorem steps_join {name : Segment} (hq : q.segments = [name]) (hname : isIdle name = false) :
    (p.join q).steps = p.steps ++ [name] := by
  have hne : name ≠ [] := by
    rintro rfl
    exact absurd hname (by decide)
  have hrelative : q.isAbsolute = false := by
    rw [Bool.eq_false_iff]
    exact fun h => hne ((isAbsolute_iff hq).mp h).1
  obtain ⟨first, rest, hp⟩ := List.exists_cons_of_ne_nil (segments_ne_nil p)
  by_cases hempty : first = [] ∧ rest = []
  · -- in the empty directory the name is all there is
    obtain ⟨rfl, rfl⟩ := hempty
    have hjoin : (p.join q).segments = name :: [] := by
      rw [segments_join hrelative, hp, hq]
      rfl
    rw [steps_eq hp, steps_eq hjoin]
    simp [hne]
  · rw [steps_join_of_relative hp hempty hrelative, hq, names_cons_of_not_isIdle hname, names_nil]

theorem isIdle_of_mem_anchor {s : Segment} (h : s ∈ p.anchor) : isIdle s = true := by
  obtain ⟨first, rest, hp⟩ := List.exists_cons_of_ne_nil (segments_ne_nil p)
  rw [anchor, hp] at h
  simp only at h
  split at h
  · rename_i hanchor
    rw [List.mem_singleton.mp h, isIdle, Bool.or_eq_true, beq_iff_eq]
    rcases (Bool.or_eq_true _ _).mp hanchor with habs | hdot
    · exact Or.inl ((isAbsolute_iff hp).mp habs).1
    · exact Or.inr hdot
  · exact absurd h List.not_mem_nil

/-- A path begins at the root when its first step is the empty one. -/
theorem isAbsolute_iff_head?_steps (p : FilePath) :
    p.isAbsolute = true ↔ p.steps.head? = some [] := by
  obtain ⟨first, rest, hp⟩ := List.exists_cons_of_ne_nil (segments_ne_nil p)
  rw [isAbsolute_iff hp, steps_eq hp]
  split
  · simp_all
  · rename_i hempty
    rw [List.head?_cons, Option.some_inj]
    exact ⟨fun h => h.1, fun h => ⟨h, fun hrest => hempty ⟨h, hrest⟩⟩⟩

/-- **Paths are the same but for idle segments when their steps are.** -/
theorem sameAs_iff : p.sameAs q = true ↔ p.steps = q.steps := by
  rw [sameAs, Bool.and_eq_true, beq_iff_eq, beq_iff_eq]
  refine ⟨fun h => h.2, fun h => ⟨?_, h⟩⟩
  rw [Bool.eq_iff_iff, isAbsolute_iff_head?_steps, isAbsolute_iff_head?_steps, h]

theorem isAbsolute_eq_true : p.isAbsolute = true ↔ p.bytes.head? = some slash :=
  decide_eq_true_iff

/-- A path taken from an absolute one is absolute. -/
theorem isAbsolute_join (hp : p.isAbsolute = true) (q : FilePath) :
    (p.join q).isAbsolute = true := by
  have hhead := isAbsolute_eq_true.mp hp
  have hne : p.bytes ≠ [] := fun h => by
    rw [h] at hhead
    cases hhead
  rw [join]
  split
  · rename_i h
    exact ((Bool.or_eq_true _ _).mp h).resolve_right (by simpa using hne)
  · split <;>
    · rw [isAbsolute_eq_true]
      simp [hhead]

/-- A relative path that is taken from an absolute one goes on where that one ends. -/
theorem steps_join_of_isAbsolute (hp : p.isAbsolute = true) (hq : q.isAbsolute = false) :
    (p.join q).steps = p.steps ++ names q.segments := by
  obtain ⟨first, rest, hsegments⟩ := List.exists_cons_of_ne_nil (segments_ne_nil p)
  exact steps_join_of_relative hsegments
    (fun h => ((isAbsolute_iff hsegments).mp hp).2 h.2) hq

/-- An absolute path is the same wherever it is taken from. -/
theorem join_of_isAbsolute (hq : q.isAbsolute = true) (p : FilePath) : p.join q = q := by
  rw [join, hq, Bool.true_or, if_pos rfl]

/-- The directory of an absolute path is absolute. -/
theorem isAbsolute_of_parent? (hp : p.isAbsolute = true) (h : p.parent? = some q) :
    q.isAbsolute = true := by
  obtain ⟨first, rest, hsegments⟩ := List.exists_cons_of_ne_nil (segments_ne_nil p)
  have hanchor : p.anchor = [[]] := by
    rw [anchor, hsegments, hp, ((isAbsolute_iff hsegments).mp hp).1]
    rfl
  rw [parent?, hp, hanchor] at h
  split at h
  · cases h
  · simp only [Bool.true_and] at h
    split at h
    · exact Option.some.inj h ▸ (by decide)
    · rename_i hkept
      obtain ⟨s, more, hmore⟩ := List.exists_cons_of_ne_nil (by simpa using hkept)
      rw [← Option.some.inj h, hmore, isAbsolute_eq_true, ofSegments]
      simp [List.intercalate]

/-! ### The directories above a path -/

/-- The directory lies above the path: the path begins with its steps and has more. -/
def IsAbove (directory path : FilePath) : Prop :=
  directory.steps <+: path.steps ∧ directory.steps ≠ path.steps

theorem isAbove_of_append {directory path : FilePath} (s : Segment) (more : List Segment)
    (h : path.steps = directory.steps ++ s :: more) : directory.IsAbove path := by
  rw [IsAbove, h]
  exact ⟨List.prefix_append _ _, by simp⟩

theorem bodiesUpward_empty : bodiesUpward [[]] = [] := by
  rw [bodiesUpward]
  rfl

/-- What is left of a body upwards has fewer names. -/
theorem exists_names_of_mem_bodiesUpward {body kept : List Segment}
    (h : kept ∈ bodiesUpward body) : ∃ s more, names body = names kept ++ s :: more := by
  fun_induction bodiesUpward body with
  | case1 => exact absurd h List.not_mem_nil
  | case2 body s before hbody ih =>
    have hnames : names body = names (dropIdleEnd before.reverse) ++ names [s] := by
      have heq := congrArg List.reverse hbody
      rw [List.reverse_reverse, List.reverse_cons] at heq
      rw [← names_dropIdleEnd, heq, names_append, names_dropIdleEnd]
    have hs : isIdle s = false := by
      have hhead := List.head?_dropWhile_not isIdle body.reverse
      rw [dropIdleEnd, List.reverse_reverse] at hbody
      simpa [hbody] using hhead
    rw [names_cons_of_not_isIdle hs, names_nil] at hnames
    rcases List.mem_cons.mp h with rfl | h
    · exact ⟨s, [], hnames⟩
    · obtain ⟨t, more, hmore⟩ := ih h
      exact ⟨t, more ++ [s], by rw [hnames, hmore, List.append_assoc, List.cons_append]⟩

theorem prefix_of_mem_bodiesUpward {body kept : List Segment} (h : kept ∈ bodiesUpward body) :
    kept <+: body := by
  fun_induction bodiesUpward body with
  | case1 => exact absurd h List.not_mem_nil
  | case2 body s before hbody ih =>
    have hbefore : dropIdleEnd before.reverse <+: body := by
      have heq := congrArg List.reverse hbody
      rw [List.reverse_reverse, List.reverse_cons] at heq
      exact (dropIdleEnd_prefix_self _).trans
        ((List.prefix_append _ [s]).trans (heq ▸ dropIdleEnd_prefix_self body))
    rcases List.mem_cons.mp h with rfl | h
    · exact hbefore
    · exact (ih h).trans hbefore

theorem pairwise_bodiesUpward (body : List Segment) : (bodiesUpward body).Pairwise fun a b =>
    ∃ s more, names a = names b ++ s :: more := by
  fun_induction bodiesUpward body with
  | case1 => exact List.Pairwise.nil
  | case2 body s before hbody ih =>
    exact List.pairwise_cons.mpr ⟨fun kept h => exists_names_of_mem_bodiesUpward h, ih⟩

/-- Segments of a path are split again where they are joined. -/
theorem segments_ofSegments_of_forall_mem {segments : List Segment} (hne : segments ≠ [])
    (hmem : ∀ s ∈ segments, s ∈ p.segments) : (ofSegments segments).segments = segments :=
  segments_ofSegments hne fun s hs => not_mem_of_mem_segments (hmem s hs)

theorem anchor_eq {first : Segment} {rest : List Segment} (hp : p.segments = first :: rest) :
    p.anchor = if p.isAbsolute || first == [dot] then [first] else [] := by
  rw [anchor, hp]

/-- With an anchor, what is kept comes after it. -/
theorem steps_of_anchored {first : Segment} {rest kept : List Segment}
    (hp : p.segments = first :: rest) (hanchored : (p.isAbsolute || first == [dot]) = true)
    (h : kept ∈ bodiesUpward p.body) :
    (if p.isAbsolute && kept.isEmpty then ⟨[slash]⟩ else ofSegments (p.anchor ++ kept)).steps
      = p.anchor ++ names kept := by
  have hanchor := anchor_eq hp
  rw [if_pos hanchored] at hanchor
  have hbody : p.body = rest := by rw [body, hp, hanchor]; rfl
  have hpre := prefix_of_mem_bodiesUpward h
  rw [hbody] at hpre
  have hmem : ∀ s ∈ first :: kept, s ∈ p.segments := by
    intro s hs
    rw [hp]
    exact (List.mem_cons.mp hs).elim (· ▸ List.mem_cons_self)
      fun hs => List.mem_cons_of_mem _ (hpre.subset hs)
  have habsolute := isAbsolute_iff hp
  rw [hanchor]
  split
  · rename_i hroot
    obtain ⟨habs, hkept⟩ := (Bool.and_eq_true _ _).mp hroot
    obtain ⟨rfl, -⟩ := habsolute.mp habs
    rw [List.isEmpty_iff.mp hkept]
    decide
  · rename_i hroot
    rw [List.singleton_append,
      steps_eq (segments_ofSegments_of_forall_mem (List.cons_ne_nil _ _) hmem), if_neg]
    · rfl
    · rintro ⟨rfl, rfl⟩
      simp_all

/-- Without an anchor, the first segment is a name if anything is kept. -/
theorem steps_of_unanchored {first : Segment} {rest kept : List Segment}
    (hp : p.segments = first :: rest) (hanchored : ¬(p.isAbsolute || first == [dot]) = true)
    (h : kept ∈ bodiesUpward p.body) :
    (if p.isAbsolute && kept.isEmpty then ⟨[slash]⟩ else ofSegments (p.anchor ++ kept)).steps
      = p.anchor ++ names kept := by
  have hanchor := anchor_eq hp
  rw [if_neg hanchored] at hanchor
  have hbody : p.body = first :: rest := by rw [body, hp, hanchor]; rfl
  have hpre := prefix_of_mem_bodiesUpward h
  rw [hbody] at hpre h
  rw [Bool.not_eq_true, Bool.or_eq_false_iff, beq_eq_false_iff_ne] at hanchored
  obtain ⟨habs, hdot⟩ := hanchored
  rw [hanchor, habs, Bool.false_and, if_neg (by simp), List.nil_append, List.nil_append]
  cases kept with
  | nil => decide
  | cons s kept =>
    obtain ⟨rfl, hkept⟩ := List.cons_prefix_cons.mp hpre
    have hs : isIdle s = false := by
      rw [isIdle, Bool.or_eq_false_iff, beq_eq_false_iff_ne]
      refine ⟨fun hempty => ?_, by simpa using hdot⟩
      -- a path of one empty segment has no body that could be left
      have hrest : rest = [] := by
        by_contra hrest
        simp [(isAbsolute_iff hp).mpr ⟨hempty, hrest⟩] at habs
      subst hempty hrest
      rw [bodiesUpward_empty] at h
      exact absurd h List.not_mem_nil
    rw [steps_eq (segments_ofSegments_of_forall_mem (List.cons_ne_nil _ _)
      fun t ht => hp ▸ hpre.subset ht), if_neg]
    · exact (names_cons_of_not_isIdle hs kept).symm
    · rintro ⟨rfl, -⟩
      exact absurd hs (by decide)

/-- The steps of a directory above a path. -/
theorem steps_of_mem_bodiesUpward {kept : List Segment} (h : kept ∈ bodiesUpward p.body) :
    (if p.isAbsolute && kept.isEmpty then ⟨[slash]⟩ else ofSegments (p.anchor ++ kept)).steps
      = p.anchor ++ names kept := by
  obtain ⟨first, rest, hp⟩ := List.exists_cons_of_ne_nil (segments_ne_nil p)
  by_cases hanchored : (p.isAbsolute || first == [dot]) = true
  · exact steps_of_anchored hp hanchored h
  · exact steps_of_unanchored hp hanchored h

theorem steps_eq_anchor_append (p : FilePath) : p.steps = p.anchor ++ names p.body := rfl

/-- **The directory of a path that ends in a name** has the steps before it. -/
theorem exists_parent? {steps : List Segment} {name : Segment} (h : p.steps = steps ++ [name])
    (hname : isIdle name = false) : ∃ q, p.parent? = some q ∧ q.steps = steps := by
  have hne : (dropIdleEnd p.body).reverse ≠ [] := by
    intro hnil
    rw [List.reverse_eq_nil_iff] at hnil
    rw [steps_eq_anchor_append, ← names_dropIdleEnd, hnil, names_nil, List.append_nil] at h
    rw [isIdle_of_mem_anchor (p := p) (h ▸ List.mem_concat_self)] at hname
    cases hname
  obtain ⟨s, before, hbefore⟩ := List.exists_cons_of_ne_nil hne
  have hkept : dropIdleEnd before.reverse ∈ bodiesUpward p.body := by
    rw [bodiesUpward]
    split
    · rename_i hnil
      rw [hbefore] at hnil
      cases hnil
    · rename_i heq
      rw [hbefore] at heq
      obtain ⟨rfl, rfl⟩ := List.cons.inj heq
      exact List.mem_cons_self
  refine ⟨_, by rw [parent?, hbefore]; exact (apply_ite some _ _ _).symm, ?_⟩
  rw [steps_of_mem_bodiesUpward hkept]
  -- one name is left out, and it is the last step
  have hdropped := congrArg List.reverse hbefore
  rw [List.reverse_reverse, List.reverse_cons] at hdropped
  have hlast : names (dropIdleEnd before.reverse) ++ names [s] = names p.body := by
    rw [names_dropIdleEnd, ← names_append, ← hdropped, names_dropIdleEnd]
  obtain ⟨t, more, hmore⟩ := exists_names_of_mem_bodiesUpward hkept
  rw [hmore, List.append_cancel_left_eq] at hlast
  have hnames : names [s] = [s] ∨ names [s] = [] := by
    cases hs : isIdle s <;> simp [names, hs]
  rcases hnames with hnames | hnames
  · rw [steps_eq_anchor_append, hmore, ← hlast, hnames, ← List.append_assoc] at h
    exact (List.append_inj' h rfl).1
  · rw [hnames] at hlast
    cases hlast

/-- **The directories of a path are listed from the path upwards.** -/
theorem pairwise_ancestors (p : FilePath) :
    p.ancestors.Pairwise fun a b => b.IsAbove a := by
  have habove : ∀ {a b : FilePath} {body kept : List Segment},
      a.steps = p.anchor ++ names body → b.steps = p.anchor ++ names kept →
      (∃ s more, names body = names kept ++ s :: more) → b.IsAbove a := by
    rintro a b body kept ha hb ⟨s, more, hmore⟩
    exact isAbove_of_append s more (by rw [ha, hb, hmore, List.append_assoc])
  -- the empty path lies above everything that a single dot begins
  have hempty : ∀ {a : FilePath} {steps : List Segment}, p.anchor = [[dot]] →
      a.steps = p.anchor ++ steps → (⟨[]⟩ : FilePath).IsAbove a := by
    intro a steps hdot ha
    exact isAbove_of_append [dot] steps (by rw [ha, hdot]; rfl)
  rw [ancestors, List.cons_append, List.pairwise_cons, List.pairwise_append]
  refine ⟨fun b hb => ?_, ?_, ?_, fun a ha b hb => ?_⟩
  · rcases List.mem_append.mp hb with hb | hb
    · obtain ⟨kept, hkept, rfl⟩ := List.mem_map.mp hb
      exact habove (steps_eq_anchor_append p) (steps_of_mem_bodiesUpward hkept)
        (exists_names_of_mem_bodiesUpward hkept)
    · split at hb
      · rename_i hdot
        rw [List.mem_singleton.mp hb]
        exact hempty (eq_of_beq hdot) (steps_eq_anchor_append p)
      · exact absurd hb List.not_mem_nil
  · rw [List.pairwise_map]
    exact (pairwise_bodiesUpward p.body).imp_of_mem fun ha hb h =>
      habove (steps_of_mem_bodiesUpward ha) (steps_of_mem_bodiesUpward hb) h
  · split
    · exact List.pairwise_singleton _ _
    · exact List.Pairwise.nil
  · obtain ⟨kept, hkept, rfl⟩ := List.mem_map.mp ha
    split at hb
    · rename_i hdot
      rw [List.mem_singleton.mp hb]
      exact hempty (eq_of_beq hdot) (steps_of_mem_bodiesUpward hkept)
    · exact absurd hb List.not_mem_nil

/-! ### Paths that have a text -/

/-- The path has a text. -/
def IsText (p : FilePath) : Prop :=
  ∃ text, p = ofText text

theorem text?_ne_none_iff : p.text? ≠ none ↔ p.IsText := by
  simp only [Option.ne_none_iff_exists', text?_eq_some_iff, IsText]

/-- A slash has a byte of its own, which no other character has among its bytes. -/
theorem slash_mem_utf8EncodeChar {c : Char} : slash ∈ String.utf8EncodeChar c ↔ c = '/' := by
  refine ⟨fun h => ?_, fun h => h ▸ by decide⟩
  have hval : c.val.toNat = 0x2F := by
    unfold String.utf8EncodeChar at h
    have hslash : slash.toNat = 0x2F := rfl
    simp only at h
    repeat' split at h
    all_goals
      simp only [List.mem_cons, List.not_mem_nil, or_false, ← UInt8.toNat_inj,
        UInt8.toNat_ofNat', hslash] at h
      omega
  exact Char.ext (UInt32.toNat_inj.mp hval)

/-- The path of a text is absolute when the text begins with a slash. -/
theorem isAbsolute_ofText {text : String} :
    (ofText text).isAbsolute = true ↔ text.toList.head? = some '/' := by
  rw [isAbsolute_eq_true, ofText, utf8]
  cases text.toList with
  | nil => simp
  | cons c cs =>
    rw [List.flatMap_cons, List.head?_append_of_ne_nil _ String.utf8EncodeChar_ne_nil,
      List.head?_cons, Option.some_inj]
    refine ⟨fun h => slash_mem_utf8EncodeChar.mp (List.mem_of_head? h), ?_⟩
    rintro rfl
    rfl

theorem ofText_append (s t : String) : ofText (s ++ t) = ⟨utf8 s ++ utf8 t⟩ :=
  congrArg FilePath.mk (utf8_append s t)

/-- A path that is put together from paths with texts has a text. -/
theorem IsText.join (hp : p.IsText) (hq : q.IsText) : (p.join q).IsText := by
  obtain ⟨s, rfl⟩ := hp
  obtain ⟨t, rfl⟩ := hq
  unfold FilePath.join
  split
  · exact ⟨t, rfl⟩
  · split
    · exact ⟨s ++ t, (ofText_append s t).symm⟩
    · exact ⟨s ++ ("/" ++ t), by rw [ofText_append, utf8_append]; rfl⟩

theorem splitAtSlashes_append_of_not_mem {bs cs : List UInt8} (hbs : slash ∉ bs) {part : Segment}
    {parts : List Segment} (h : splitAtSlashes cs = part :: parts) :
    splitAtSlashes (bs ++ cs) = (bs ++ part) :: parts := by
  induction bs with
  | nil => exact h
  | cons b bs ih =>
    rw [List.mem_cons, not_or] at hbs
    exact splitAtSlashes_cons (Ne.symm hbs.1) (ih hbs.2)

/-- What stands between two slashes of a text is a text. -/
theorem exists_utf8_of_mem_splitAtSlashes {cs : List Char} {s : Segment}
    (h : s ∈ splitAtSlashes (cs.flatMap String.utf8EncodeChar)) : ∃ text, s = utf8 text := by
  induction cs generalizing s with
  | nil => exact ⟨"", List.mem_singleton.mp h⟩
  | cons c cs ih =>
    rw [List.flatMap_cons] at h
    by_cases hc : c = '/'
    · have hslash : String.utf8EncodeChar c = [slash] := hc ▸ rfl
      rw [hslash, List.singleton_append, splitAtSlashes_slash] at h
      rcases List.mem_cons.mp h with rfl | h
      · exact ⟨"", rfl⟩
      · exact ih h
    · obtain ⟨first, rest, hrest⟩ := List.exists_cons_of_ne_nil
        (splitAtSlashes_ne_nil (cs.flatMap String.utf8EncodeChar))
      have hnot : slash ∉ String.utf8EncodeChar c := mt slash_mem_utf8EncodeChar.mp hc
      rw [splitAtSlashes_append_of_not_mem hnot hrest] at h
      rw [hrest] at ih
      rcases List.mem_cons.mp h with rfl | h
      · obtain ⟨text, rfl⟩ := ih List.mem_cons_self
        exact ⟨String.ofList (c :: text.toList), by simp [utf8]⟩
      · exact ih (List.mem_cons_of_mem _ h)

theorem isText_ofSegments {segments : List Segment} (h : ∀ s ∈ segments, ∃ text, s = utf8 text) :
    (ofSegments segments).IsText := by
  induction segments with
  | nil => exact ⟨"", rfl⟩
  | cons s segments ih =>
    obtain ⟨first, rfl⟩ := h s List.mem_cons_self
    obtain ⟨rest, hrest⟩ := ih fun t ht => h t (List.mem_cons_of_mem _ ht)
    cases segments with
    | nil => exact ⟨first, by simp [ofSegments, ofText, List.intercalate_singleton]⟩
    | cons t segments =>
      refine ⟨first ++ ("/" ++ rest), ?_⟩
      have hbytes : [slash].intercalate (t :: segments) = utf8 rest := congrArg FilePath.bytes hrest
      rw [ofSegments, List.intercalate_cons_cons, hbytes, ofText_append, utf8_append,
        List.append_assoc]
      rfl

/-- The directory of a path with a text has a text. -/
theorem IsText.parent? (hp : p.IsText) (h : p.parent? = some q) : q.IsText := by
  obtain ⟨text, rfl⟩ := hp
  have hanchor : ∀ s ∈ (ofText text).anchor, ∃ t, s = utf8 t := by
    intro s hs
    have hidle := isIdle_of_mem_anchor hs
    rw [isIdle, Bool.or_eq_true, beq_iff_eq, beq_iff_eq] at hidle
    rcases hidle with rfl | rfl
    · exact ⟨"", rfl⟩
    · exact ⟨".", rfl⟩
  have hbody : ∀ s ∈ (ofText text).body, ∃ t, s = utf8 t := fun s hs =>
    exists_utf8_of_mem_splitAtSlashes (List.mem_of_mem_drop hs)
  rw [FilePath.parent?] at h
  split at h
  · split at h
    · cases h
    · exact Option.some.inj h ▸ ⟨"", rfl⟩
  · rename_i last before hbefore
    have hkept : dropIdleEnd before.reverse ⊆ (ofText text).body := by
      have hreverse := congrArg List.reverse hbefore
      rw [List.reverse_reverse, List.reverse_cons] at hreverse
      refine List.Subset.trans (dropIdleEnd_prefix_self _).subset
        (List.Subset.trans ?_ (dropIdleEnd_prefix_self (ofText text).body).subset)
      rw [hreverse]
      exact List.subset_append_left _ _
    simp only at h
    split at h
    · exact Option.some.inj h ▸ ⟨"/", rfl⟩
    · rw [← Option.some.inj h]
      exact isText_ofSegments fun s hs =>
        (List.mem_append.mp hs).elim (hanchor s) fun hs => hbody s (hkept hs)

end CardFilter.FilePath
