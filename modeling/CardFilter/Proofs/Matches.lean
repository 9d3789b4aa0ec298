import CardFilter.Proofs.Acceptance
import CardFilter.Proofs.Sources

/-!
# Matches show what was typed

A suggestion with a match is shown with a stretch of its text highlighted. This file says that the
stretch shows what was typed (`CardFilter.Source.Highlights`), for every source.

The stretch is found in one text and shown in another, which has more around it:

* a **spelling** of a key, behind the mark `-` and before the comparison;
* a **value** of a key, behind the key and the comparison, and between quotes where it needs them
  (`CardFilter.SettledKey.exists_chars_filter`);
* a **saved filter** that is offered negated, behind its new mark `-`. What was looked for is then
  the typed text without its own mark; where it starts the filter, the stretch takes in the mark,
  and shows again all that was typed.

A **card name** is looked for in the text as it is shown. This text contains the name, so a name
that contains the fragment has a match (`CardFilter.exists_matched_nameSuggestion`).

The main statement is `CardFilter.Source.matched_of_mem_suggestions`.
-/

namespace CardFilter

/-! ### Texts with more around them -/

/-- A filter that is not negated, with a mark before it. -/
theorem Filter.chars_withNegation_true {f : Filter} (h : f.isNegated = false) :
    (f.withNegation true).chars = '-' :: f.chars := by
  cases f with
  | term t =>
    cases t with
    | name negated | keyed negated =>
      obtain rfl : negated = false := h
      rfl
  | anyOf negated =>
    obtain rfl : negated = false := h
    rfl

theorem Filter.toList_render (f : Filter) : f.render.toList = f.chars :=
  String.toList_ofList

/-- **A plain text is shown as it is**, alone or between quotes. -/
theorem Value.exists_chars_text (s : String) : ∃ lead trail : List Char,
    (Value.text s).chars = lead ++ s.toList ++ trail ∧
      lead.length = if (Value.text s).render = s then 0 else 1 := by
  by_cases hbare : isBareWord s = true
  · have hchars : (Value.text s).chars = s.toList := if_pos hbare
    refine ⟨[], [], by rw [hchars, List.nil_append, List.append_nil], ?_⟩
    rw [render, hchars, String.ofList_toList, if_pos rfl, List.length_nil]
  · have hchars : (Value.text s).chars =
        (quoteFor s).mark :: s.toList ++ [(quoteFor s).mark] := if_neg hbare
    refine ⟨[(quoteFor s).mark], [(quoteFor s).mark], hchars, ?_⟩
    have hne : (Value.text s).render ≠ s := by
      intro heq
      have hlength := congrArg (fun s : String => s.toList.length) heq
      simp only [render, hchars, String.toList_ofList, List.length_append,
        List.length_cons] at hlength
      omega
    rw [if_neg hne, List.length_singleton]

/-- **Where the value starts** in the text of a filter that ends with it. -/
theorem SettledKey.exists_chars_filter (k : SettledKey) (c : Comparison) (value : String) :
    ∃ before after : List Char, (k.filter c (.text value)).chars = before ++ value.toList ++ after ∧
      before.length = valueStart (k.filter c (.text value)) value := by
  obtain ⟨lead, trail, hchars, hlead⟩ := Value.exists_chars_text value
  have hfilter : (k.filter c (.text value)).chars =
      negationChars k.negated ++ k.spelling.toList ++ c.chars ++ (Value.text value).chars := rfl
  refine ⟨negationChars k.negated ++ k.spelling.toList ++ c.chars ++ lead, trail, ?_, ?_⟩
  · rw [hfilter, hchars]
    simp only [List.append_assoc]
  · have hshown : (Value.text value).render.toList = (Value.text value).chars :=
      String.toList_ofList
    simp only [valueStart]
    rw [← hlead, hshown, hfilter]
    simp only [List.length_append]
    omega

/-- The text of a card name contains the name. -/
theorem exists_chars_nameFilter (t : Draft.Term) (name : String) : ∃ before after : List Char,
    (nameFilter t name).chars = before ++ name.toList ++ after := by
  obtain ⟨lead, trail, hchars, -⟩ := Value.exists_chars_text name
  have hfilter : (nameFilter t name).chars = negationChars t.negated ++
      (if isLiteral t then ['!'] else []) ++ (Value.text name).chars := rfl
  refine ⟨negationChars t.negated ++ (if isLiteral t then ['!'] else []) ++ lead, trail, ?_⟩
  rw [hfilter, hchars]
  simp only [List.append_assoc]

/-! ### Saved filters -/

/-- **A filter fits only without the mark**: its text does not contain what was typed, but what
was typed after a `-`, and the filter is not negated. -/
structure Filter.FitsNegated (f : Filter) (typed rest : String) (range : CharRange) : Prop where
  /-- What was typed is not found. -/
  not_found : findIgnoringCase f.render typed = none
  /-- The filter is not negated. -/
  not_negated : f.isNegated = false
  /-- A mark has been typed, and the rest behind it. -/
  typed_eq : typed.toList = '-' :: rest.toList
  /-- The rest is something. -/
  rest_ne : rest ≠ ""
  /-- The rest is found. -/
  found : findIgnoringCase f.render rest = some range

namespace SavedList

variable {l : SavedList} {typed : String} {f : Filter} {r : Suggestion}

theorem render_candidate (l : SavedList) (f : Filter) : (l.candidate f).render = f.render := by
  cases l <;> rfl

/-- The suggestion of a filter that fits only without the mark. -/
def negatedSuggestion (l : SavedList) (f : Filter) (range : CharRange) : Suggestion :=
  if range.start = 0 then ⟨l.candidate (f.withNegation true), some ⟨0, range.stop + 1⟩, .effective⟩
  else ⟨l.candidate (f.withNegation true), some (range.shift 1), .inner⟩

theorem candidate_negatedSuggestion (l : SavedList) (f : Filter) (range : CharRange) :
    (l.negatedSuggestion f range).candidate = l.candidate (f.withNegation true) := by
  unfold negatedSuggestion
  split <;> rfl

/-- **How a saved filter is suggested.** -/
theorem suggestion?_eq_some_iff : l.suggestion? typed f = some r ↔
    (∃ range, findIgnoringCase f.render typed = some range ∧
      r = ⟨l.candidate f, some range, alignmentOf f.render range⟩) ∨
    ∃ rest range, f.FitsNegated typed rest range ∧ r = l.negatedSuggestion f range := by
  unfold suggestion?
  cases hfound : findIgnoringCase f.render typed with
  | some range =>
    constructor
    · intro h
      exact .inl ⟨range, rfl, (Option.some.inj h).symm⟩
    · rintro (⟨range', hrange, rfl⟩ | ⟨rest, range', hfits, -⟩)
      · cases hrange
        rfl
      · cases hfound.symm.trans hfits.not_found
  | none =>
    constructor
    · intro h
      simp only at h
      split at h
      swap
      · cases h
      rename_i c rest htyped
      split at h
      · cases h
      rename_i hnegated
      obtain ⟨range, hrange, rfl⟩ := Option.map_eq_some_iff.mp h
      refine .inr ⟨String.ofList (c :: rest), range, ⟨hfound, by simpa using hnegated, ?_, ?_,
        hrange⟩, rfl⟩
      · rw [htyped, String.toList_ofList]
      · exact fun hnil => List.cons_ne_nil c rest (by simpa using congrArg String.toList hnil)
    · rintro (⟨range, hrange, -⟩ | ⟨rest, range, hfits, rfl⟩)
      · cases hrange
      obtain ⟨c, cs, hrest⟩ : ∃ c cs, rest.toList = c :: cs :=
        List.exists_cons_of_ne_nil (mt String.toList_eq_nil_iff.mp hfits.rest_ne)
      have htyped := hfits.typed_eq
      have hrange := hfits.found
      rw [hrest] at htyped
      rw [← String.ofList_toList (s := rest), hrest] at hrange
      simp only [htyped, hfits.not_negated, hrange]
      rfl

end SavedList

/-! ### What is highlighted -/

/-- A bare word is all that is being completed. -/
theorem fragment_of_bareWord? {t : Draft.Term} {word : String} (h : bareWord? t = some word) :
    t.fragment = word := by
  unfold bareWord? at h
  split at h
  swap
  · cases h
  rename_i hcontent
  split at h
  · cases h
  · rw [Draft.Term.fragment, hcontent]
    exact Option.some.inj h

namespace Source

/-- **What has been typed**, as the source looks for it: all of it for saved filters, the bare word
for keys, the value without its quotes for values, and for card names the name without the blanks
around it. -/
def typed (t : Draft.Term) : Source → String
  | saved _ _ => t.raw
  | keys _ | values _ | operators _ => t.fragment
  | names _ => trim t.fragment

/-- **The stretch highlights what was typed.** -/
inductive Highlights (s : Source) (t : Draft.Term) (r : Suggestion) (range : CharRange) : Prop
  /-- It shows all that was typed. -/
  | typed : range.Shows r.render.toList (s.typed t).toList → Highlights s t r range
  /-- It shows what was typed after a `-`, in a saved filter that is offered negated, and it does
  not start this filter. -/
  | afterMark {l : SavedList} {store : Store} {f : Filter} {rest : List Char} :
    s = saved l store → f ∈ store.entries → f.isNegated = false →
    r.candidate = l.candidate (f.withNegation true) → t.raw.toList = '-' :: rest →
    1 < range.start → range.Shows r.render.toList rest → Highlights s t r range

section Candidates

variable {t : Draft.Term} {r : Suggestion} {range : CharRange}

theorem highlights_saved {l : SavedList} {store : Store}
    (h : r ∈ (saved l store).candidates t) (hrange : r.matched = some range) :
    (saved l store).Highlights t r range := by
  rw [candidates] at h
  split at h
  · obtain ⟨f, -, rfl⟩ := List.mem_map.mp h
    cases hrange
  obtain ⟨f, hf, hfits⟩ := List.mem_filterMap.mp h
  rcases SavedList.suggestion?_eq_some_iff.mp hfits with
    ⟨found, hfound, rfl⟩ | ⟨rest, found, hnegated, rfl⟩
  · obtain rfl := Option.some.inj hrange
    refine .typed ?_
    rw [Suggestion.render, SavedList.render_candidate]
    exact shows_of_findIgnoringCase hfound
  have hshows := shows_of_findIgnoringCase hnegated.found
  rw [Filter.toList_render] at hshows
  have hrender : (l.candidate (f.withNegation true)).render.toList = '-' :: f.chars := by
    rw [SavedList.render_candidate, Filter.toList_render,
      Filter.chars_withNegation_true hnegated.not_negated]
  rw [SavedList.negatedSuggestion] at hrange ⊢
  split at hrange
  · rename_i hstart
    obtain rfl := Option.some.inj hrange
    rw [if_pos hstart]
    refine .typed ?_
    rw [Suggestion.render, hrender, typed, hnegated.typed_eq]
    obtain ⟨start, stop⟩ := found
    obtain rfl : start = 0 := hstart
    exact hshows.cons '-'
  · rename_i hstart
    obtain rfl := Option.some.inj hrange
    rw [if_neg hstart]
    refine .afterMark rfl hf hnegated.not_negated rfl hnegated.typed_eq
      (Nat.succ_lt_succ (Nat.pos_of_ne_zero hstart)) ?_
    have hmoved := hshows.append ['-'] []
    rw [List.append_nil] at hmoved
    rw [Suggestion.render, hrender]
    exact hmoved

theorem highlights_keys {v : Vocabulary} (h : r ∈ (keys v).candidates t)
    (hrange : r.matched = some range) : (keys v).Highlights t r range := by
  rw [candidates] at h
  split at h
  · cases h
  rename_i word hword
  obtain ⟨k, -, hspellings⟩ := List.mem_flatMap.mp h
  obtain ⟨spelling, -, hsuggested⟩ := List.mem_filterMap.mp hspellings
  obtain ⟨found, hfound, rfl⟩ := Option.map_eq_some_iff.mp hsuggested
  obtain rfl := Option.some.inj hrange
  have hmark : (if t.negated then 1 else 0) = (negationChars t.negated).length := by
    cases t.negated <;> rfl
  have hrender : (Candidate.key ⟨t.negated, spelling, .including⟩).render.toList =
      negationChars t.negated ++ spelling.toList ++ Comparison.including.chars :=
    String.toList_ofList
  refine .typed ?_
  rw [Suggestion.render, hrender, typed, fragment_of_bareWord? hword, hmark]
  exact (shows_of_findIgnoringCase hfound).append _ _

theorem highlights_values {v : Vocabulary} (h : r ∈ (values v).candidates t)
    (hrange : r.matched = some range) : (values v).Highlights t r range := by
  rw [candidates] at h
  split at h
  · cases h
  rename_i k hk
  split at h
  · cases h
  obtain ⟨value, -, hsuggested⟩ := List.mem_filterMap.mp h
  unfold SettledKey.suggestion? at hsuggested
  simp only at hsuggested
  split at hsuggested
  · cases hsuggested
    cases hrange
  obtain ⟨found, hfound, rfl⟩ := Option.map_eq_some_iff.mp hsuggested
  obtain rfl := Option.some.inj hrange
  obtain ⟨before, after, hchars, hstart⟩ := k.exists_chars_filter k.comparison value
  refine .typed ?_
  rw [Suggestion.render, Candidate.render, Filter.toList_render, hchars, typed,
    SettledKey.fragment_of_ofDraft? hk, ← hstart]
  exact (shows_of_findIgnoringCase hfound).append before after

theorem highlights_operators {v : Vocabulary} (h : r ∈ (operators v).candidates t)
    (hrange : r.matched = some range) : (operators v).Highlights t r range := by
  rw [candidates] at h
  split at h
  swap
  · cases h
  split at h
  swap
  · cases h
  obtain ⟨c, -, rfl⟩ := List.mem_map.mp h
  cases hrange

theorem highlights_names {ns : List String} (h : r ∈ (names ns).candidates t)
    (hrange : r.matched = some range) : (names ns).Highlights t r range := by
  obtain ⟨name, -, rfl⟩ := List.mem_map.mp h
  exact .typed (shows_of_findIgnoringCase hrange)

theorem highlights_of_mem_candidates {s : Source} (h : r ∈ s.candidates t)
    (hrange : r.matched = some range) : s.Highlights t r range := by
  cases s with
  | saved l store => exact highlights_saved h hrange
  | keys v => exact highlights_keys h hrange
  | values v => exact highlights_values h hrange
  | operators v => exact highlights_operators h hrange
  | names ns => exact highlights_names h hrange

/-- Whatever is highlighted lies in the text. -/
theorem Highlights.bounds {s : Source} (h : s.Highlights t r range) :
    range.start ≤ range.stop ∧ range.stop ≤ r.length := by
  cases h with
  | typed hshows => exact ⟨hshows.start_le_stop, hshows.stop_le_length⟩
  | afterMark _ _ _ _ _ _ hshows => exact ⟨hshows.start_le_stop, hshows.stop_le_length⟩

end Candidates

/-- **A name that the catalog gives has a match**: it contains the fragment, and the text of its
suggestion contains the name. -/
theorem exists_matched_nameSuggestion {t : Draft.Term} {catalog : Catalog} {name : String}
    (h : name ∈ catalog.complete (trim t.fragment)) :
    ∃ range, (nameSuggestion t name).matched = some range := by
  obtain ⟨-, found, hfound⟩ := Catalog.found_of_mem_complete h
  obtain ⟨before, after, hchars⟩ := exists_chars_nameFilter t name
  have hshows := (shows_of_findIgnoringCase hfound).append before after
  rw [← hchars, ← Filter.toList_render] at hshows
  obtain ⟨range, hrange, -⟩ := exists_findIgnoringCase_of_shows hshows
  exact ⟨range, hrange⟩

/-- **Matches show what was typed**: the stretch of a suggestion lies in its text and highlights
what was typed, and every name that a catalog gives for the term has one. -/
theorem matched_of_mem_suggestions {s : Source} {t : Draft.Term} {excluding : List Filter}
    {limit : Nat} {r : Suggestion} (h : r ∈ s.suggestions t excluding limit) :
    r.length = r.render.toList.length ∧
    (∀ range ∈ r.matched,
      range.start ≤ range.stop ∧ range.stop ≤ r.length ∧ s.Highlights t r range) ∧
    ∀ catalog : Catalog, s = names (catalog.complete (trim t.fragment)) →
      ∃ range, r.matched = some range := by
  have hcandidate := mem_candidates_of_mem_suggestions h
  refine ⟨rfl, fun range hrange => ?_, ?_⟩
  · have hhighlights := highlights_of_mem_candidates hcandidate hrange
    exact ⟨hhighlights.bounds.1, hhighlights.bounds.2, hhighlights⟩
  · rintro catalog rfl
    obtain ⟨name, hname, rfl⟩ := List.mem_map.mp hcandidate
    exact exists_matched_nameSuggestion hname

/-- A saved filter that is offered negated, and the match does not take in the mark. -/
theorem matched_of_mem_suggestions_negated :
    let f : Filter := .term (.keyed false "is" .including (.text "foil"))
    let s := saved .history ⟨none, [f]⟩
    let t := Draft.Term.ofText "-s:f"
    let r : Suggestion := ⟨.history (f.withNegation true), some ⟨2, 5⟩, .inner⟩
    r ∈ s.suggestions t [] 1 ∧ s.Highlights t r ⟨2, 5⟩ ∧
      ¬CharRange.Shows ⟨2, 5⟩ r.render.toList t.raw.toList := by
  intro f s t r
  have hmem : r ∈ s.suggestions t [] 1 := by decide +kernel
  refine ⟨hmem, ((matched_of_mem_suggestions hmem).2.1 ⟨2, 5⟩ rfl).2.2, fun h => ?_⟩
  -- what was typed is longer
  exact absurd h.stop_eq (by decide +kernel)

end Source

end CardFilter
