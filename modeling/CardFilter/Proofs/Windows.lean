import CardFilter.Proofs.Finding

/-!
# The first window that matches

A search lays a window over the text, as wide as what was typed, and moves it to the right until
the characters in it are those that were typed, case set aside. Here the window is given by its
position (`CardFilter.MatchesAt`): it lies in the text, and position by position the two characters
have the same small letters.

The main statement is `CardFilter.findIgnoringCase_leftmost`. It has three parts.

* **The first window.** The search gives the window with the smallest position, and nothing else
  (`CardFilter.findIgnoringCase_eq_some_iff`).
* **Every window counts.** Where any window matches, one is found
  (`CardFilter.exists_findIgnoringCase_iff`).
* **Case is set aside on both sides.** The small letters of a character are one list, which may
  hold several characters, and two characters are the same letter exactly if these lists are equal
  (`CardFilter.sameLetter_iff`). So whether a window matches depends on the small letters only, and
  with it all that is found.
-/

namespace CardFilter

/-! ### The same letters -/

/-- **Two characters are the same letter** exactly if they have the same small letters. -/
theorem sameLetter_iff {c d : Char} :
    sameLetter c d = true ↔ smallLetters c = smallLetters d := by
  rw [sameLetter, Bool.or_eq_true, beq_iff_eq, beq_iff_eq]
  exact or_iff_right_of_imp (congrArg smallLetters)

theorem sameLetters_iff {shown typed : List Char} :
    SameLetters shown typed ↔ shown.map smallLetters = typed.map smallLetters := by
  rw [← List.forall₂_eq_eq_eq, List.forall₂_map_left_iff, List.forall₂_map_right_iff]
  simp only [SameLetters, sameLetter_iff]

/-! ### Windows -/

/-- **What was typed stands in the text from a position on**: a window of its length lies there,
and its characters have the same small letters, position by position. -/
structure MatchesAt (text typed : List Char) (start : Nat) : Prop where
  /-- The window lies in the text. -/
  inside : start + typed.length ≤ text.length
  /-- Its characters are those that were typed, case set aside. -/
  letters (i : Nat) : i < typed.length →
    text[start + i]?.map smallLetters = typed[i]?.map smallLetters

instance (text typed : List Char) (start : Nat) : Decidable (MatchesAt text typed start) :=
  decidable_of_iff (start + typed.length ≤ text.length ∧ ∀ i < typed.length,
      text[start + i]?.map smallLetters = typed[i]?.map smallLetters)
    ⟨fun h => ⟨h.1, h.2⟩, fun h => ⟨h.inside, h.letters⟩⟩

section Windows

variable {text text' typed typed' : List Char} {start : Nat} {r : CharRange}

/-- A window that matches is a stretch that shows what was typed. -/
theorem matchesAt_iff_shows :
    MatchesAt text typed start ↔ CharRange.Shows ⟨start, start + typed.length⟩ text typed := by
  have hletters : SameLetters ((text.take (start + typed.length)).drop start) typed ↔
      ∀ i < typed.length, text[start + i]?.map smallLetters = typed[i]?.map smallLetters := by
    rw [sameLetters_iff, List.ext_getElem?_iff]
    refine forall_congr' fun i => ?_
    rw [List.getElem?_map, List.getElem?_map, List.getElem?_drop, List.getElem?_take]
    by_cases hi : i < typed.length
    · rw [if_pos (Nat.add_lt_add_left hi start)]
      exact (imp_iff_right hi).symm
    -- past the window there are no characters on either side
    · rw [if_neg (by omega), List.getElem?_eq_none (Nat.le_of_not_lt hi)]
      exact iff_of_true rfl fun h => absurd h hi
  constructor
  · rintro ⟨hinside, h⟩
    exact ⟨Nat.le_add_right _ _, hinside, hletters.mpr h⟩
  · rintro ⟨-, hinside, h⟩
    exact ⟨hinside, hletters.mp h⟩

theorem CharRange.Shows.matchesAt (h : r.Shows text typed) : MatchesAt text typed r.start := by
  obtain ⟨start, stop⟩ := r
  obtain rfl : stop = start + typed.length := h.stop_eq
  exact matchesAt_iff_shows.mpr h

/-- Whether a window matches depends on the small letters only. -/
theorem MatchesAt.congr (h : MatchesAt text typed start)
    (htext : text'.map smallLetters = text.map smallLetters)
    (htyped : typed'.map smallLetters = typed.map smallLetters) :
    MatchesAt text' typed' start := by
  have htextLength : text'.length = text.length := (sameLetters_iff.mpr htext).length_eq
  have htypedLength : typed'.length = typed.length := (sameLetters_iff.mpr htyped).length_eq
  refine ⟨by rw [htextLength, htypedLength]; exact h.inside, fun i hi => ?_⟩
  calc text'[start + i]?.map smallLetters
      = text[start + i]?.map smallLetters := by
        rw [← List.getElem?_map, htext, List.getElem?_map]
    _ = typed[i]?.map smallLetters := h.letters i (htypedLength ▸ hi)
    _ = typed'[i]?.map smallLetters := by
        rw [← List.getElem?_map, ← htyped, List.getElem?_map]

theorem matchesAt_congr (htext : text'.map smallLetters = text.map smallLetters)
    (htyped : typed'.map smallLetters = typed.map smallLetters) :
    MatchesAt text' typed' start ↔ MatchesAt text typed start :=
  ⟨fun h => h.congr htext.symm htyped.symm, fun h => h.congr htext htyped⟩

end Windows

/-! ### What is found -/

section Found

variable {text typed : String} {r : CharRange}

/-- **The search gives the first window that matches**, and no other stretch. -/
theorem findIgnoringCase_eq_some_iff :
    findIgnoringCase text typed = some r ↔ MatchesAt text.toList typed.toList r.start ∧
      (∀ start < r.start, ¬MatchesAt text.toList typed.toList start) ∧
      r.stop = r.start + typed.toList.length := by
  constructor
  · intro h
    have hshows := shows_of_findIgnoringCase h
    refine ⟨hshows.matchesAt, fun start hbefore hmatches => ?_, hshows.stop_eq⟩
    obtain ⟨r', hr', hle⟩ := exists_findIgnoringCase_of_shows (matchesAt_iff_shows.mp hmatches)
    obtain rfl := Option.some.inj (h.symm.trans hr')
    exact absurd hbefore (Nat.not_lt.mpr hle)
  · rintro ⟨hmatches, hfirst, hstop⟩
    obtain ⟨r', hr', hle⟩ := exists_findIgnoringCase_of_shows (matchesAt_iff_shows.mp hmatches)
    have hshows := shows_of_findIgnoringCase hr'
    have hstart : r'.start = r.start := by
      by_contra hne
      exact hfirst r'.start (Nat.lt_of_le_of_ne hle hne) hshows.matchesAt
    have heq : r' = r := by
      rw [CharRange.mk.injEq, hshows.stop_eq, hstop, hstart]
      exact ⟨rfl, rfl⟩
    rw [hr', heq]

/-- **Where a window matches, one is found.** -/
theorem exists_findIgnoringCase_iff :
    (∃ r, findIgnoringCase text typed = some r) ↔
      ∃ start, MatchesAt text.toList typed.toList start := by
  constructor
  · rintro ⟨r, hr⟩
    exact ⟨r.start, (findIgnoringCase_eq_some_iff.mp hr).1⟩
  · rintro ⟨start, hmatches⟩
    obtain ⟨r, hr, -⟩ := exists_findIgnoringCase_of_shows (matchesAt_iff_shows.mp hmatches)
    exact ⟨r, hr⟩

end Found

/-- **The search is leftmost, complete and blind to case.** It gives a stretch exactly if a window
of the length of what was typed matches position by position; the stretch is the first of these
windows; and characters with the same small letters can be put for each other on both sides. -/
theorem findIgnoringCase_leftmost (text typed : String) :
    (∀ r, findIgnoringCase text typed = some r ↔ MatchesAt text.toList typed.toList r.start ∧
      (∀ start < r.start, ¬MatchesAt text.toList typed.toList start) ∧
      r.stop = r.start + typed.toList.length) ∧
    ((∃ r, findIgnoringCase text typed = some r) ↔
      ∃ start, MatchesAt text.toList typed.toList start) ∧
    ∀ text' typed' : String,
      text'.toList.map smallLetters = text.toList.map smallLetters →
      typed'.toList.map smallLetters = typed.toList.map smallLetters →
        findIgnoringCase text' typed' = findIgnoringCase text typed := by
  refine ⟨fun _ => findIgnoringCase_eq_some_iff, exists_findIgnoringCase_iff, ?_⟩
  intro text' typed' htext htyped
  have hlength : typed'.toList.length = typed.toList.length :=
    (sameLetters_iff.mpr htyped).length_eq
  refine Option.ext fun r => ?_
  rw [findIgnoringCase_eq_some_iff, findIgnoringCase_eq_some_iff, hlength]
  simp only [matchesAt_congr htext htyped]

/-- The sign for kelvin is the letter `k` when case is set aside, though it takes three bytes. -/
theorem findIgnoringCase_leftmost_kelvin :
    "Æther \u212Aarn".toList.map smallLetters = "æTHER Karn".toList.map smallLetters ∧
      "KA".toList.map smallLetters = "ka".toList.map smallLetters ∧
      findIgnoringCase "æTHER Karn" "ka" = some ⟨6, 8⟩ ∧
      findIgnoringCase "Æther \u212Aarn" "KA" = some ⟨6, 8⟩ := by
  have htext : "Æther \u212Aarn".toList.map smallLetters =
      "æTHER Karn".toList.map smallLetters := by decide +kernel
  have htyped : "KA".toList.map smallLetters = "ka".toList.map smallLetters := by decide +kernel
  have hfound : findIgnoringCase "æTHER Karn" "ka" = some ⟨6, 8⟩ := by decide +kernel
  obtain ⟨-, -, hblind⟩ := findIgnoringCase_leftmost "æTHER Karn" "ka"
  exact ⟨htext, htyped, hfound, (hblind _ _ htext htyped).trans hfound⟩

end CardFilter
