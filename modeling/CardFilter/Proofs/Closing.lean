import CardFilter.Proofs.OpenQuotes

/-!
# Closing a quote at the end

A draft term whose quote is still open can be completed as if the quote was closed at the end of
the text. This file shows that it is the same to type the missing mark: the text that goes on with
the mark completes to this very term as it stands, and a search box that had to close a quote finds
the same filter in the closed text (`CardFilter.Outcome.valid_of_autoTerminated`).

* **A draft is read from the left.** Nothing before a quote is read with a look behind its mark,
  which ends a key and makes no symbol of a comparison longer. So the negation mark, the `!`, the
  key and its comparison stay what they are when the text of the quote changes
  (`CardFilter.Draft.Term.exists_lead_ofText`), and the missing mark closes the quote and does
  nothing else (`CardFilter.Draft.Term.ofText_push`).
* **Closing matters to an open quote only**: any other draft completes with it as without
  (`CardFilter.Draft.Term.completeClosing?_cases`).
* **A mark at the end takes no part in the rest**: it is no blank, and the text begins with a group
  or not as it did before (`CardFilter.Outcome.startsGroup_push`).
-/

namespace CardFilter

namespace Draft

/-! ### An open quote -/

namespace Text

variable {q : Quote} {s : String} {cs : List Char}

/-- **A text is open** when it begins with a quote whose mark does not occur any more. -/
theorem ofChars_eq_unterminated_iff :
    ofChars cs = .unterminated q s ↔ cs = q.mark :: s.toList ∧ q.mark ∉ s.toList := by
  constructor
  · intro h
    rcases cs with _ | ⟨c, body⟩
    · cases h
    rw [ofChars] at h
    split at h
    · cases h
    rename_i hquote
    split at h
    · rename_i hcut
      cases h
      rw [String.toList_ofList, ← Quote.eq_mark_of_ofChar? hquote]
      exact ⟨rfl, Quote.eq_mark_of_ofChar? hquote ▸ not_mem_of_cutAtMark?_eq_none hcut⟩
    · cases h
    · cases h
  · rintro ⟨rfl, hs⟩
    have hcut : cutAtMark? q.mark s.toList = none := by
      rw [Option.eq_none_iff_forall_not_mem]
      rintro ⟨before, after⟩ hcut
      rw [eq_append_of_cutAtMark? hcut] at hs
      exact hs (by simp)
    simp only [ofChars, Quote.ofChar?_mark, hcut, String.ofList_toList]

/-- The mark behind it closes the quote. -/
theorem value?_balanced (hs : s ≠ "") :
    (balanced q s).value? false = (unterminated q s).value? true := by
  have hne : s.toList.isEmpty = false := by simpa using hs
  simp [value?, hne]

/-- **What closing changes**: the value of an open quote with something after it. -/
theorem value?_cases (text : Text) :
    text.value? true = text.value? false ∨
      text.value? false = none ∧ ∃ q s, text = .unterminated q s ∧ s ≠ "" := by
  cases text with
  | bare s => exact .inl rfl
  | balanced q s => exact .inl rfl
  | unterminated q s =>
    by_cases hs : s = ""
    · subst hs
      exact .inl rfl
    · exact .inr ⟨rfl, q, s, rfl, hs⟩

end Text

/-! ### What stands before a quote -/

/-- The content with another text. -/
def Content.withText : Content → Text → Content
  | .name literal _, text => .name literal text
  | .keyed key operator _, text => .keyed key operator text

@[simp] theorem Content.withText_text (content : Content) :
    content.withText content.text = content := by
  cases content <;> rfl

namespace Term

variable {q : Quote} {s text : String} {cs value : List Char} {operator : Operator}
  {content : Content}

/-- **An operator** is read in front of any text that does not make it longer. -/
theorem exists_symbol_of_readOperator? (h : readOperator? cs = some (operator, value)) :
    ∃ symbol, symbol ≠ [] ∧ cs = symbol ++ value ∧
      ∀ value', (∀ d ∈ value'.head?, d ≠ '=') →
        readOperator? (symbol ++ value') = some (operator, value') := by
  unfold readOperator? at h
  split at h
  · rename_i c rest hread
    cases h
    refine ⟨c.chars, by cases c <;> simp [Comparison.chars],
      Comparison.eq_append_of_read? hread, fun value' hvalue' => ?_⟩
    simp only [readOperator?, Comparison.read?_chars_append hvalue']
  · split at h
    · cases h
      refine ⟨['!'], by simp, rfl, fun value' hvalue' => ?_⟩
      have hread : Comparison.read? ('!' :: value') = none :=
        Comparison.read?_eq_none_iff.mpr (.inr ⟨rfl, hvalue'⟩)
      simp only [List.singleton_append, readOperator?, hread]
    · cases h

/-- **A key and its operator** are read in front of any text that does not make the operator
longer. -/
theorem exists_lead_of_readKeyed? (h : readKeyed? cs = some content) :
    ∃ lead value, cs = lead ++ value ∧ content.text = Text.ofChars value ∧
      ∀ value', (∀ d ∈ value'.head?, d ≠ '=') →
        readKeyed? (lead ++ value') = some (content.withText (Text.ofChars value')) := by
  simp only [readKeyed?] at h
  split at h
  · cases h
  rename_i hkey
  split at h
  · cases h
  rename_i hlookup
  obtain ⟨⟨operator, value⟩, hoperator, rfl⟩ := Option.map_eq_some_iff.mp h
  obtain ⟨symbol, hne, hsplit, hread⟩ := exists_symbol_of_readOperator? hoperator
  refine ⟨cs.takeWhile isWordChar ++ symbol, value, ?_, rfl, fun value' hvalue' => ?_⟩
  · rw [List.append_assoc, ← hsplit, List.takeWhile_append_dropWhile]
  -- the symbol ends the key, whatever stands behind it
  have hword : ∀ c ∈ cs.takeWhile isWordChar, isWordChar c = true := fun c hc =>
    List.mem_takeWhile_imp hc
  have hend : ∀ d ∈ (symbol ++ value').head?, isWordChar d = false := by
    intro d hd
    rw [List.head?_append_of_ne_nil _ hne, ← List.head?_append_of_ne_nil _ hne, ← hsplit] at hd
    exact eq_false_of_head?_dropWhile hd
  have htake : (cs.takeWhile isWordChar ++ (symbol ++ value')).takeWhile isWordChar =
      cs.takeWhile isWordChar := takeWhile_append_of_head? hword hend
  have hdrop : (cs.takeWhile isWordChar ++ (symbol ++ value')).dropWhile isWordChar =
      symbol ++ value' := dropWhile_append_of_head? hword hend
  simp only [readKeyed?, List.append_assoc, htake, hdrop, if_neg hkey, hlookup,
    hread value' hvalue', Option.map_some]
  rfl

/-- **What stands before a quote** is read in the same way before another one of its kind. -/
theorem exists_lead_readContent (cs : List Char) :
    ∃ lead value, cs = lead ++ value ∧ (readContent cs).text = Text.ofChars value ∧
      ∀ (q : Quote) (value' : List Char), value.head? = some q.mark →
        value'.head? = some q.mark →
          readContent (lead ++ value') = (readContent cs).withText (Text.ofChars value') := by
  by_cases hbang : ∃ name, cs = '!' :: name
  · obtain ⟨name, rfl⟩ := hbang
    exact ⟨['!'], name, rfl, rfl, fun _ _ _ _ => rfl⟩
  have hhead : ∀ d ∈ cs.head?, d ≠ '!' := by
    rintro d hd rfl
    exact hbang (List.head?_eq_some_iff.mp hd)
  rcases hkeyed : readKeyed? cs with _ | content
  · rw [readContent_of_ne_bang hhead, hkeyed]
    refine ⟨[], cs, rfl, rfl, fun q value' _ hvalue' => ?_⟩
    obtain ⟨body, rfl⟩ := List.head?_eq_some_iff.mp hvalue'
    have hquote : BeginsValue (q.mark :: body) := .inr ⟨q, body, rfl⟩
    rw [List.nil_append, readContent_of_ne_bang (hquote.ne_of_mem_head? (by decide) (by decide)),
      readKeyed?_of_beginsValue hquote]
    rfl
  · obtain ⟨lead, value, rfl, htext, hread⟩ := exists_lead_of_readKeyed? hkeyed
    rw [readContent_of_ne_bang hhead, hkeyed]
    refine ⟨lead, value, rfl, htext, fun q value' hvalue hvalue' => ?_⟩
    have hequal : ∀ d ∈ value'.head?, d ≠ '=' := by
      rintro d hd rfl
      rw [hvalue'] at hd
      cases q <;> cases hd
    rw [List.head?_append, hvalue, ← hvalue', ← List.head?_append] at hhead
    rw [readContent_of_ne_bang hhead, hread value' hequal]
    rfl

theorem ofText_of_minus {rest : List Char} (h : text.toList = '-' :: rest) :
    ofText text = ⟨true, readContent rest, text⟩ := by
  simp only [ofText, h]

theorem ofText_of_ne_minus (h : ∀ d ∈ text.toList.head?, d ≠ '-') :
    ofText text = ⟨false, readContent text.toList, text⟩ := by
  unfold ofText
  split
  · rename_i htext
    exact absurd rfl (h '-' (by rw [htext]; rfl))
  · rfl

/-- **What stands before a quote**, the negation mark included. -/
theorem exists_lead_ofText (text : String) :
    ∃ lead value, text.toList = lead ++ value ∧
      (ofText text).content.text = Text.ofChars value ∧
      ∀ (q : Quote) (text' : String) (value' : List Char), value.head? = some q.mark →
        value'.head? = some q.mark → text'.toList = lead ++ value' →
          ofText text' = ⟨(ofText text).negated,
            (ofText text).content.withText (Text.ofChars value'), text'⟩ := by
  by_cases hminus : ∃ rest, text.toList = '-' :: rest
  · obtain ⟨rest, htext⟩ := hminus
    obtain ⟨lead, value, rfl, hvalue, hread⟩ := exists_lead_readContent rest
    rw [ofText_of_minus htext]
    refine ⟨'-' :: lead, value, htext, hvalue, fun q text' value' hq hq' htext' => ?_⟩
    rw [List.cons_append] at htext'
    rw [ofText_of_minus htext', hread q value' hq hq']
  · have hhead : ∀ d ∈ text.toList.head?, d ≠ '-' := by
      rintro d hd rfl
      exact hminus (List.head?_eq_some_iff.mp hd)
    obtain ⟨lead, value, hsplit, hvalue, hread⟩ := exists_lead_readContent text.toList
    rw [ofText_of_ne_minus hhead]
    refine ⟨lead, value, hsplit, hvalue, fun q text' value' hq hq' htext' => ?_⟩
    rw [hsplit, List.head?_append, hq, ← hq', ← List.head?_append, ← htext'] at hhead
    rw [ofText_of_ne_minus hhead, htext', hread q value' hq hq']

/-- **The missing mark closes the text** of a draft term and changes nothing else. -/
theorem ofText_push (h : (ofText text).content.text = .unterminated q s) :
    q.mark ∈ text.toList ∧ ofText (text.push q.mark) =
      ⟨(ofText text).negated, (ofText text).content.withText (.balanced q s),
        text.push q.mark⟩ := by
  obtain ⟨lead, value, hsplit, hvalue, hread⟩ := exists_lead_ofText text
  obtain ⟨rfl, hs⟩ := Text.ofChars_eq_unterminated_iff.mp (hvalue.symm.trans h)
  refine ⟨by rw [hsplit]; simp, ?_⟩
  have hpush : (text.push q.mark).toList = lead ++ q.enclose s.toList := by
    rw [String.toList_push, hsplit, List.append_assoc]
    rfl
  rw [hread q _ (q.enclose s.toList) rfl rfl hpush, Text.ofChars_enclose hs, String.ofList_toList]

/-! ### What a draft completes to -/

/-- **A draft completes by its value**, so that it may be exchanged for an equal one. -/
theorem promote?_withText {d : Term} {closing closing' : Bool} {t : Text} {raw : String}
    (h : t.value? closing' = d.content.text.value? closing) :
    promote? closing' ⟨d.negated, d.content.withText t, raw⟩ = d.promote? closing := by
  obtain ⟨negated, content, _⟩ := d
  cases content <;> simp only [Content.withText, promote?, h, Content.text]

/-- **What closing changes**: a draft that does not complete without it, and whose text is open. -/
theorem completeClosing?_cases (d : Term) :
    d.completeClosing? = d.complete? ∨
      d.complete? = none ∧ ∃ q s, d.content.text = .unterminated q s ∧ s ≠ "" := by
  rcases d.content.text.value?_cases with hvalue | ⟨hvalue, hopen⟩
  · have hsame : promote? true ⟨d.negated, d.content.withText d.content.text, d.raw⟩ =
        d.promote? false := promote?_withText hvalue
    rw [Content.withText_text] at hsame
    exact .inl hsame
  · refine .inr ⟨?_, hopen⟩
    rw [Option.eq_none_iff_forall_not_mem]
    intro t ht
    have hnot := (of_promote? ht).2
    rw [hvalue] at hnot
    cases hnot

/-- **Closing a text is the same as typing the mark.** -/
theorem completeClosing?_eq_push (h : (ofText text).content.text = .unterminated q s)
    (hs : s ≠ "") : (ofText text).completeClosing? = (ofText (text.push q.mark)).complete? := by
  rw [(ofText_push h).2]
  refine (promote?_withText ?_).symm
  rw [h, Text.value?_balanced hs]

end Term

end Draft

/-! ### The search box -/

namespace Outcome

open Draft

variable {q : Quote} {text : String} {f : Filter} {t : Term}

/-- A mark at the end is no blank. -/
theorem trim_push (htrimmed : Trimmed text.toList) (hne : text.toList ≠ []) :
    trim (text.push q.mark) = text.push q.mark := by
  have hpush : Trimmed (text.toList ++ [q.mark]) := by
    refine ⟨fun c hc => htrimmed.head c ?_, fun c hc => ?_⟩
    · rwa [List.head?_append_of_ne_nil _ hne] at hc
    · obtain rfl : q.mark = c := by simpa using hc
      exact q.isBlank_mark
  rw [trim, String.toList_push, trimChars_eq_self hpush, ← String.toList_push, String.ofList_toList]

/-- A mark at the end opens no group. -/
theorem startsGroup_push (htrimmed : Trimmed text.toList) (hmem : q.mark ∈ text.toList) :
    startsGroup (text.push q.mark) = startsGroup text := by
  obtain ⟨c, rest, htext⟩ := List.exists_cons_of_ne_nil (List.ne_nil_of_mem hmem)
  have hblank : isBlank c = false := htrimmed.head c (by rw [htext]; rfl)
  have hpush : (text.push q.mark).toList = c :: (rest ++ [q.mark]) := by
    rw [String.toList_push, htext]
    rfl
  have hscreens : Screens (c :: rest) [q.mark] := screens_of_mem (htext ▸ hmem)
  rw [Bool.eq_iff_iff, startsGroup_iff hpush hblank, startsGroup_iff htext hblank,
    ← List.cons_append, hscreens.opensNegated_append]

/-- What is found with a closed quote is the completion of a single draft. -/
theorem exists_of_ofTrimmed_eq_autoTerminated (h : ofTrimmed text = .autoTerminated f) :
    text.toList ≠ [] ∧ startsGroup text = false ∧ (Term.ofText text).complete? = none ∧
      ∃ t, (Term.ofText text).completeClosing? = some t ∧ f = .term t := by
  unfold ofTrimmed at h
  split at h
  · cases h
  rename_i hne
  split at h
  · split at h <;> cases h
  rename_i hstarts
  split at h
  · cases h
  rename_i hcomplete
  split at h
  · rename_i t ht
    cases h
    exact ⟨by simpa using hne, by simpa using hstarts, hcomplete, t, ht, rfl⟩
  · cases h

/-- A draft that completes is found as it stands. -/
theorem ofTrimmed_of_complete? (hne : text.toList ≠ []) (hstarts : startsGroup text = false)
    (h : (Term.ofText text).complete? = some t) : ofTrimmed text = .valid (.term t) := by
  have hempty : text.toList.isEmpty = false := List.isEmpty_eq_false_iff.mpr hne
  simp only [ofTrimmed, hempty, hstarts, h, Bool.false_eq_true, if_false]

/-- **The closed text is found as it stands.** -/
theorem ofText_push_of_autoTerminated (h : ofText text = .autoTerminated f) :
    ∃ q : Quote, ofText ((trim text).push q.mark) = .valid f := by
  obtain ⟨hne, hstarts, hcomplete, t, ht, rfl⟩ := exists_of_ofTrimmed_eq_autoTerminated h
  have htrimmed : Trimmed (trim text).toList := by
    rw [trim, String.toList_ofList]
    exact trimmed_trimChars _
  rcases (Term.ofText (trim text)).completeClosing?_cases with hsame | ⟨-, q, s, hopen, hs⟩
  · rw [hsame, hcomplete] at ht
    cases ht
  refine ⟨q, ?_⟩
  rw [ofText, trim_push htrimmed hne]
  refine ofTrimmed_of_complete? (by simp) ?_ ?_
  · rw [startsGroup_push htrimmed (Term.ofText_push hopen).1, hstarts]
  · rw [← Term.completeClosing?_eq_push hopen hs, ht]

/-- **To close a quote at the end is to type its mark.** What a draft completes to as it stands, it
completes to with closing; where its text is open, and something stands after the quote, it
completes with closing to what the text with the mark completes to without; and what a search box
finds with a closed quote, it finds as it stands in the trimmed text with the mark. -/
theorem valid_of_autoTerminated (text : String) :
    (∀ t, (Term.ofText text).complete? = some t →
      (Term.ofText text).completeClosing? = some t) ∧
      (∀ q s, (Term.ofText text).content.text = .unterminated q s → s ≠ "" →
        (Term.ofText text).completeClosing? =
          (Term.ofText (text.push q.mark)).complete?) ∧
      ∀ f, ofText text = .autoTerminated f →
        ∃ q : Quote, ofText ((trim text).push q.mark) = .valid f := by
  refine ⟨fun t ht => ?_, fun q s hopen hs => Term.completeClosing?_eq_push hopen hs,
    fun f h => ofText_push_of_autoTerminated h⟩
  rcases (Term.ofText text).completeClosing?_cases with hsame | ⟨hnone, -⟩
  · rw [hsame, ht]
  · rw [hnone] at ht
    cases ht

/-- A negated key with an open regular expression, and blanks around it. -/
theorem valid_of_autoTerminated_regex :
    (Term.ofText "o:draw").completeClosing? =
        some (.keyed false "o" .including (.text "draw")) ∧
      (Term.ofText "-o:/a b").completeClosing? = (Term.ofText "-o:/a b/").complete? ∧
      ∃ q : Quote, ofText ("-o:/a b".push q.mark) =
        .valid (.term (.keyed true "o" .including (.regex "a b"))) := by
  have hstarts : startsGroup "-o:/a b" = false := by
    rw [Bool.eq_false_iff, Ne, startsGroup_iff rfl (by decide)]
    decide
  have htrim : trim " -o:/a b " = "-o:/a b" := by decide
  have hclosed : ofText " -o:/a b " =
      .autoTerminated (.term (.keyed true "o" .including (.regex "a b"))) := by
    rw [ofText, htrim, ofTrimmed, hstarts]
    decide +kernel
  have hvalid := (valid_of_autoTerminated " -o:/a b ").2.2 _ hclosed
  rw [htrim] at hvalid
  exact ⟨(valid_of_autoTerminated "o:draw").1 _ (by decide +kernel),
    (valid_of_autoTerminated "-o:/a b").2.1 .regex "a b" (by decide +kernel) (by decide), hvalid⟩

end Outcome

end CardFilter
