import CardFilter.CommandLine.ParseReport
import CardFilter.Proofs.DraftReading

/-!
# The search box and the strict reader

A search box reads groups strictly and everything else as a draft term. So a single term has two
readers, which share no code, and this file compares them:

* wherever the strict reader succeeds, the search box finds the same filter
  (`CardFilter.Outcome.valid_of_parse`), so that a report on a text that is searched for as a whole
  always knows why it is no filter;
* the filter that a search box makes of a text, whatever became of it, comes back from its
  canonical text exactly when no text in it holds both kinds of quotes
  (`CardFilter.Outcome.ofText_render_eq_valid_iff`).

Both go by what a filter is written with. A text that writes a term is not taken for a group, since
it begins neither with `(` nor with `-(` (`CardFilter.Framed.startsGroup_eq_false`), and its value
decides the rest (`CardFilter.Framed.ofTrimmed_eq_valid_iff`).
-/

namespace CardFilter

/-! ### Texts that begin with a group -/

namespace Draft

theorem piecesFrom_pieces (text : String) :
    piecesFrom .tolerant true false 0 text.toList = .ok (pieces text) := by
  unfold pieces
  split
  · assumption
  · rename_i herror
    exact absurd herror piecesFrom_tolerant_ne_error

theorem opensNegated_eq_true_iff {cs : List Char} :
    opensNegated cs = true ↔ ∃ rest, cs = '-' :: '(' :: rest := by
  unfold opensNegated
  split
  · exact iff_of_true rfl ⟨_, rfl⟩
  · rename_i hother
    refine iff_of_false Bool.false_ne_true ?_
    rintro ⟨rest, rfl⟩
    exact hother rest rfl

/-- **The first piece opens a group** where a parenthesis or a negated group opens. -/
theorem exists_cons_of_piecesFrom {mode : Mode} {bounded padded : Bool} {position : Nat} {c : Char}
    {rest : List Char} {ps : List Piece} (hc : isBlank c = false)
    (h : piecesFrom mode bounded padded position (c :: rest) = .ok ps) :
    ∃ p tail, ps = p :: tail ∧
      (p.kind = .openGroup ↔ opensNegated (c :: rest) = true ∨ c = '(') := by
  rw [piecesFrom, if_neg (by simp [hc])] at h
  split at h
  · rename_i hnegated
    split at h <;> cases h
    exact ⟨_, _, rfl, iff_of_true rfl (.inl hnegated)⟩
  rename_i hnegated
  split at h
  · rename_i hopen
    split at h <;> cases h
    exact ⟨_, _, rfl, iff_of_true rfl (.inr hopen)⟩
  rename_i hopen
  -- whatever else begins here opens no group
  have hnot : ¬(opensNegated (c :: rest) = true ∨ c = '(') := not_or_intro hnegated hopen
  split at h
  · split at h <;> cases h
    exact ⟨_, _, rfl, iff_of_false (by simp) hnot⟩
  split at h
  · split at h <;> cases h
    exact ⟨_, _, rfl, iff_of_false (by simp) hnot⟩
  split at h
  · cases h
  · split at h <;> cases h
    exact ⟨_, _, rfl, iff_of_false (by simp) hnot⟩

end Draft

open Draft

/-- A text is taken for a group when it begins with one. -/
theorem Outcome.startsGroup_iff {text : String} {c : Char} {rest : List Char}
    (htext : text.toList = c :: rest) (hc : isBlank c = false) :
    startsGroup text = true ↔ opensNegated (c :: rest) = true ∨ c = '(' := by
  have hpieces := piecesFrom_pieces text
  rw [htext] at hpieces
  obtain ⟨p, tail, hcons, hkind⟩ := exists_cons_of_piecesFrom hc hpieces
  rw [startsGroup, hcons, ← hkind]
  exact beq_iff_eq

section Framed

variable {cs word : List Char} {term : Value → Term}

/-- After its mark a term goes on with neither a mark of that kind nor a parenthesis. -/
theorem Framed.exists_negation (h : Framed cs term word) (hcs : BeginsValue cs) :
    ∃ negated d rest, word = negationChars negated ++ d :: rest ∧ d ≠ '-' ∧ d ≠ '(' := by
  cases h with
  | @name negated literal =>
    cases literal with
    | true => exact ⟨negated, '!', cs, rfl, by decide, by decide⟩
    | false =>
      obtain ⟨d, rest, rfl⟩ := List.exists_cons_of_ne_nil hcs.ne_nil
      exact ⟨negated, d, rest, rfl, hcs.ne_of_mem_head? (by decide) (by decide) d rfl,
        hcs.ne_of_mem_head? (by decide) (by decide) d rfl⟩
  | @keyed negated key c hkey haccepts =>
    obtain ⟨d, rest, rfl⟩ := List.exists_cons_of_ne_nil hkey.1
    have hd : isWordChar d = true := hkey.2 d List.mem_cons_self
    exact ⟨negated, d, _, rfl, ne_of_isWordChar hd (by decide), ne_of_isWordChar hd (by decide)⟩

/-- **A term is not taken for a group.** -/
theorem Framed.startsGroup_eq_false (h : Framed cs term word) (hcs : BeginsValue cs)
    (htrimmed : Trimmed word) : Outcome.startsGroup (String.ofList word) = false := by
  obtain ⟨negated, d, rest, rfl, hminus, hopen⟩ := h.exists_negation hcs
  rw [Bool.eq_false_iff]
  intro hstarts
  cases negated with
  | true =>
    have hfirst := (Outcome.startsGroup_iff String.toList_ofList (by decide)).mp hstarts
    rcases hfirst with hnegated | hmark
    · obtain ⟨after, heq⟩ := opensNegated_eq_true_iff.mp hnegated
      cases heq
      exact hopen rfl
    · exact absurd hmark (by decide)
  | false =>
    have hblank : isBlank d = false := htrimmed.head d rfl
    have hfirst := (Outcome.startsGroup_iff String.toList_ofList hblank).mp hstarts
    rcases hfirst with hnegated | hmark
    · obtain ⟨after, heq⟩ := opensNegated_eq_true_iff.mp hnegated
      cases heq
      exact hminus rfl
    · exact hopen hmark

/-- **What becomes of the text of a term** is decided by its value. -/
theorem Framed.ofTrimmed_eq_valid_iff (h : Framed cs term word) (hcs : BeginsValue cs)
    (htrimmed : Trimmed word) (value : Value) :
    Outcome.ofTrimmed (String.ofList word) = .valid (.term (term value)) ↔
      (Text.ofChars cs).value? false = some value := by
  have hne : word.isEmpty = false := by
    obtain ⟨negated, d, rest, rfl, -, -⟩ := h.exists_negation hcs
    cases negated <;> rfl
  have hcomplete := h.complete?_ofText hcs
  simp only [Outcome.ofTrimmed, String.toList_ofList, hne, h.startsGroup_eq_false hcs htrimmed,
    Bool.false_eq_true, if_false, hcomplete]
  cases (Text.ofChars cs).value? false with
  | none =>
    simp only [Option.map_none]
    split <;> simp
  | some read =>
    simp only [Option.map_some, Outcome.valid.injEq, Filter.term.injEq, Option.some_inj]
    refine ⟨fun heq => ?_, fun heq => by rw [heq]⟩
    rw [← h.value_eq read, heq, h.value_eq]

end Framed

namespace Outcome

variable {text : String} {f : Filter} {cs : List Char}

/-! ### What is read strictly -/

/-- **The search box finds the filter that a trimmed text writes.** -/
theorem ofTrimmed_of_written (h : f.Written cs) : ofTrimmed (String.ofList cs) = .valid f := by
  cases h with
  | term hterm =>
    obtain ⟨term, value, body, rfl, hvalue, hframed⟩ := hterm.exists_framed
    -- a term is what its value makes of it
    rw [hframed.ofTrimmed_eq_valid_iff hvalue.beginsValue hterm.trimmed]
    exact Text.value?_of_written hvalue false
  | @group negated ms body hbody hms =>
    -- a group is read strictly, and its text is trimmed already
    have hwritten : (Filter.anyOf negated ms).Written _ := .group hbody hms
    have hstarts : startsGroup (String.ofList (negationChars negated ++ '(' :: (body ++ [')']))) =
        true := by
      cases negated with
      | true => exact (startsGroup_iff String.toList_ofList (by decide)).mpr (.inl rfl)
      | false => exact (startsGroup_iff String.toList_ofList (by decide)).mpr (.inr rfl)
    have hne : (negationChars negated ++ '(' :: (body ++ [')'])).isEmpty = false := by
      cases negated <;> rfl
    have hparse : Filter.parse (String.ofList (negationChars negated ++ '(' :: (body ++ [')']))) =
        .ok (.anyOf negated ms) := by
      rwa [Filter.parse_eq_ok_iff_written, String.toList_ofList,
        trimChars_eq_self hwritten.trimmed]
    simp only [ofTrimmed, String.toList_ofList, hne, hstarts, hparse, Bool.false_eq_true, if_false,
      if_true]

theorem ofText_of_parse (h : Filter.parse text = .ok f) : ofText text = .valid f :=
  ofTrimmed_of_written (Filter.parse_eq_ok_iff_written.mp h)

/-- Blanks around a text do not matter to the strict reader. -/
theorem parse_trim : Filter.parse (trim text) = .ok f ↔ Filter.parse text = .ok f := by
  rw [Filter.parse_eq_ok_iff_written, Filter.parse_eq_ok_iff_written, trim, String.toList_ofList,
    trimChars_eq_self (trimmed_trimChars _)]

/-- What is not found to be valid is refused by the strict reader. -/
theorem exists_error_of_ne_valid (h : ∀ f, ofText text ≠ .valid f) :
    ∃ e, Filter.parse (trim text) = .error e := by
  rcases hparse : Filter.parse (trim text) with e | f
  · exact ⟨e, rfl⟩
  · exact absurd (ofText_of_parse (parse_trim.mp hparse)) (h f)

/-- **The search box agrees with the strict reader wherever this one succeeds.** So a text whose
quote had to be closed, or which is searched for as a whole, is refused by the strict reader; and a
report shows its fault beside a text that is searched for as a whole, and beside no other. -/
theorem valid_of_parse (text : String) (f : Filter) :
    (Filter.parse text = .ok f → ofText text = .valid f) ∧
      (ofText text = .autoTerminated f ∨ ofText text = .fallback f →
        ∃ e, Filter.parse text = .error e) ∧
      ((∃ e, CommandLine.strictFault? text = some e) ↔ ∃ g, ofText text = .fallback g) := by
  refine ⟨ofText_of_parse, fun houtcome => ?_, ?_⟩
  · rcases hparse : Filter.parse text with e | g
    · exact ⟨e, rfl⟩
    · rw [ofText_of_parse hparse] at houtcome
      rcases houtcome with h | h <;> cases h
  · unfold CommandLine.strictFault?
    split
    · rename_i g hfallback
      obtain ⟨e, he⟩ := exists_error_of_ne_valid fun f => by rw [hfallback]; simp
      rw [he]
      exact iff_of_true ⟨e, rfl⟩ ⟨g, hfallback⟩
    · rename_i hother
      exact iff_of_false (by simp) fun ⟨g, hfallback⟩ => hother g hfallback

/-- A text with blanks around it, and one whose quote is open. -/
theorem valid_of_parse_blanks :
    ofText " -T:elf " = .valid (.term (.keyed true "t" .including (.text "elf"))) ∧
      ∃ e, Filter.parse "name:\"elf" = .error e := by
  have hstarts : startsGroup "name:\"elf" = false := by
    rw [Bool.eq_false_iff, Ne, startsGroup_iff rfl (by decide)]
    decide
  have htrim : trim "name:\"elf" = "name:\"elf" := by decide
  have hclosed : ofText "name:\"elf" =
      .autoTerminated (.term (.keyed false "name" .including (.text "elf"))) := by
    rw [ofText, htrim, ofTrimmed, hstarts]
    decide +kernel
  exact ⟨(valid_of_parse _ _).1 (by decide +kernel), (valid_of_parse _ _).2.1 (.inl hclosed)⟩

/-! ### Back from the canonical text -/

theorem draftable_nameSearch (s : String) :
    ∃ t, Filter.nameSearch s = .term t ∧ t.Draftable :=
  ⟨_, rfl, trivial, fun _ hbody => by cases hbody⟩

/-- **The filters that a search box makes**: one that was read strictly, or a single draftable
term. -/
theorem of_filter? (h : (ofText text).filter? = some f) :
    f.WellFormed ∨ ∃ t, f = .term t ∧ t.Draftable := by
  unfold ofText ofTrimmed at h
  split at h
  · cases h
  split at h
  · split at h
    · rename_i hparse
      cases h
      exact .inl (Filter.wellFormed_of_parse hparse)
    · cases h
      exact .inr (draftable_nameSearch _)
  · split at h
    · rename_i t ht
      cases h
      exact .inr ⟨t, rfl, Draft.Term.of_promote?_ofText ht⟩
    split at h
    · rename_i t ht
      cases h
      exact .inr ⟨t, rfl, Draft.Term.of_promote?_ofText ht⟩
    · cases h
      exact .inr (draftable_nameSearch _)

/-- **A term comes back from its canonical text** exactly when its value can stand between
quotes. -/
theorem ofText_render_term_iff {t : Term} (h : t.KeyAccepts) :
    ofText t.render = .valid (.term t) ↔ t.value.WellFormed := by
  obtain ⟨term, ht, hframed⟩ := h.exists_framed
  have hbegins := t.value.beginsValue_chars
  have htrimmed : Trimmed t.chars := hframed.trimmed hbegins.ne_nil t.value.trimmed_chars
  have hiff := hframed.ofTrimmed_eq_valid_iff hbegins htrimmed t.value
  rw [ht] at hiff
  rw [ofText, Term.render, trim, String.toList_ofList, trimChars_eq_self htrimmed, hiff]
  exact Text.value?_chars_iff

/-- **What a search box finds comes back from its canonical text** exactly when no text in it holds
both kinds of quotes. -/
theorem ofText_render_eq_valid_iff (h : (ofText text).filter? = some f) :
    ofText f.render = .valid f ↔
      ∀ t ∈ f.terms, ∀ s, t.value = .text s → ¬('"' ∈ s.toList ∧ '\'' ∈ s.toList) := by
  rcases of_filter? h with hwellFormed | ⟨t, rfl, ht⟩
  · refine iff_of_true (ofText_of_parse (Filter.parse_render_of_wellFormed hwellFormed)) ?_
    intro t ht s hs
    -- a well-formed filter always comes back, and no text in it holds both quotes
    have hvalue := (Term.wellFormed_iff.mp (hwellFormed.of_mem_terms ht)).2
    rwa [hs] at hvalue
  · rw [Filter.terms, List.forall_mem_singleton, ← ht.wellFormed_value_iff]
    exact ofText_render_term_iff ht.key

/-- A name with both kinds of quotes in it is lost. -/
theorem ofText_render_both_quotes :
    (ofText "a\"b'c").filter? = some (Filter.nameSearch "a\"b'c") ∧
      ofText (Filter.nameSearch "a\"b'c").render ≠ .valid (Filter.nameSearch "a\"b'c") := by
  have hstarts : startsGroup "a\"b'c" = false := by
    rw [Bool.eq_false_iff, Ne, startsGroup_iff rfl (by decide)]
    decide
  have htrim : trim "a\"b'c" = "a\"b'c" := by decide
  have hfilter : (ofText "a\"b'c").filter? = some (Filter.nameSearch "a\"b'c") := by
    rw [ofText, htrim, ofTrimmed, hstarts]
    decide
  refine ⟨hfilter, fun hvalid => ?_⟩
  have hquotes := (ofText_render_eq_valid_iff hfilter).mp hvalid _ List.mem_cons_self _ rfl
  exact absurd hquotes (by decide)

end Outcome

end CardFilter
