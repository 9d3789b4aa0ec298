import CardFilter.Outcome
import CardFilter.Proofs.RoundTrip

/-!
# What is read while a term is being typed

The draft of a term is found by taking prefixes off its text, without any tokens: a `-`, then a `!`
or a key with its comparison, and what is left is the value. This file describes the draft of every
text that is put together from these parts (`CardFilter.Draft.Term.complete?_name` and
`CardFilter.Draft.Term.complete?_keyed`), and of a value it only asks where it begins
(`CardFilter.BeginsValue`): with a quote, or else it is a word to its end. So the same two
lemmas cover what the strict reader accepts and the canonical texts that it does not.

Around a value the marks and the key of a term are always read in the same way
(`CardFilter.Framed.complete?_ofText`), so that only the values remain to be compared:

* a text that writes a value is read as this value (`CardFilter.Draft.Text.value?_of_written`);
* the canonical text of a value is read as the value exactly when it can stand between quotes
  (`CardFilter.Draft.Text.value?_chars_iff`).

Conversely, every term that a draft completes to has a key that accepts its comparison, and a
regular expression without slashes (`CardFilter.Draft.Term.of_promote?_ofText`).
-/

namespace CardFilter

namespace Draft

/-! ### The value -/

section Value

variable {value : Value} {cs rest : List Char}

/-- A word is bare text. -/
theorem Text.ofChars_word (h : IsWord cs) : Text.ofChars cs = .bare (String.ofList cs) := by
  obtain ⟨hne, hword⟩ := h
  obtain ⟨c, rest, rfl⟩ := List.exists_cons_of_ne_nil hne
  have hquote := Quote.ofChar?_of_isWordChar (hword c List.mem_cons_self)
  simp only [Text.ofChars, hquote]

/-- A text between quotes that do not occur in it. -/
theorem Text.ofChars_enclose {q : Quote} (h : q.mark ∉ cs) :
    Text.ofChars (q.enclose cs) = .balanced q (String.ofList cs) := by
  have hcut : cutAtMark? q.mark (cs ++ [q.mark]) = some (cs, []) := cutAtMark?_append h
  simp only [Text.ofChars, Quote.enclose, Quote.ofChar?_mark, hcut]

/-- **A quote that closes before the end** makes the whole text bare. -/
theorem Text.ofChars_enclose_of_mem {q : Quote} (h : q.mark ∈ cs) :
    Text.ofChars (q.enclose cs) = .bare (String.ofList (q.enclose cs)) := by
  obtain ⟨before, after, rfl, hbefore⟩ := List.eq_append_cons_of_mem h
  have hcut : cutAtMark? q.mark ((before ++ q.mark :: after) ++ [q.mark]) =
      some (before, after ++ [q.mark]) := by
    rw [List.append_assoc, List.cons_append]
    exact cutAtMark?_append hbefore
  have hne : after ++ [q.mark] ≠ [] :=
    List.append_ne_nil_of_right_ne_nil after (List.cons_ne_nil q.mark [])
  obtain ⟨d, tail, htail⟩ := List.exists_cons_of_ne_nil hne
  rw [htail] at hcut
  simp only [Text.ofChars, Quote.enclose, Quote.ofChar?_mark, hcut]

/-- **What writes a value is read as this value.** -/
theorem Text.value?_of_written (h : value.Written cs) (closing : Bool) :
    (Text.ofChars cs).value? closing = some value := by
  cases h with
  | word hword => simp [Text.ofChars_word hword, Text.value?, hword.1]
  | enclosed hbody => simp only [Text.ofChars_enclose hbody, Text.value?]

/-- A value that cannot stand between quotes holds those of its canonical text. -/
theorem chars_of_not_wellFormed (h : ¬value.WellFormed) :
    ∃ q : Quote, q.mark ∈ value.content.toList ∧ value.chars = q.enclose value.content.toList := by
  cases value with
  | text s =>
    obtain ⟨hdouble, hsingle⟩ := not_not.mp h
    have hword : ¬Value.isBareWord s = true := fun hword =>
      ne_of_isWordChar ((Value.isBareWord_eq_true_iff.mp hword).1.2 _ hdouble) (by decide) rfl
    have hquote : Value.quoteFor s = .double := by simp [Value.quoteFor, hsingle]
    refine ⟨.double, hdouble, ?_⟩
    rw [Value.chars, if_neg hword, hquote]
    rfl
  | regex s => exact ⟨.regex, not_not.mp h, rfl⟩

/-- **The canonical text of a value is read as the value** exactly when it can stand between
quotes; else it is bare text, quotes included. -/
theorem Text.value?_chars_iff :
    (Text.ofChars value.chars).value? false = some value ↔ value.WellFormed := by
  refine ⟨fun h => ?_, fun h => value?_of_written h.written_chars false⟩
  by_contra hnot
  obtain ⟨q, hmem, hchars⟩ := chars_of_not_wellFormed hnot
  rw [hchars, ofChars_enclose_of_mem hmem] at h
  have hvalue :
      some (Value.text (String.ofList (q.enclose value.content.toList))) = some value := by
    rw [← h, Text.value?, String.toList_ofList]
    rfl
  cases value with
  | text s =>
    -- the text would be its own text between quotes
    have hlength := congrArg (fun s => s.toList.length) (Value.text.inj (Option.some.inj hvalue))
    simp [Quote.enclose, Value.content] at hlength
    omega
  | regex s => cases hvalue

end Value

namespace Term

/-! ### Marks and keys -/

section Reading

variable {negated literal : Bool} {key cs : List Char} {c : Comparison} {k : Key}

theorem ofText_append (hcs : ∀ d ∈ cs.head?, d ≠ '-') :
    ofText (String.ofList (negationChars negated ++ cs)) =
      ⟨negated, readContent cs, String.ofList (negationChars negated ++ cs)⟩ := by
  rw [ofText, String.toList_ofList]
  cases negated with
  | true => rfl
  | false =>
    rw [negationChars, if_neg Bool.false_ne_true, List.nil_append]
    split
    · exact absurd rfl (hcs '-' rfl)
    · rfl

theorem readContent_of_ne_bang (hcs : ∀ d ∈ cs.head?, d ≠ '!') :
    readContent cs = (readKeyed? cs).getD (.name false (Text.ofChars cs)) := by
  unfold readContent
  split
  · exact absurd rfl (hcs '!' rfl)
  · rfl

/-- **A key is found** by the letters up to its comparison. -/
theorem readKeyed?_symbol (hkey : IsWord key)
    (hlookup : Vocabulary.standard.lookup? (lowercase (String.ofList key)) = some k)
    (hcs : ∀ d ∈ cs.head?, d ≠ '=') :
    readKeyed? (key ++ (c.chars ++ cs)) =
      some (.keyed (lowercase (String.ofList key)) (.complete c) (Text.ofChars cs)) := by
  have htake : (key ++ (c.chars ++ cs)).takeWhile isWordChar = key :=
    takeWhile_append_of_head? hkey.2 c.isWordChar_of_mem_head?
  have hdrop : (key ++ (c.chars ++ cs)).dropWhile isWordChar = c.chars ++ cs :=
    dropWhile_append_of_head? hkey.2 c.isWordChar_of_mem_head?
  have hne : key.isEmpty = false := List.isEmpty_eq_false_iff.mpr hkey.1
  have hread : readOperator? (c.chars ++ cs) = some (.complete c, cs) := by
    simp only [readOperator?, Comparison.read?_chars_append hcs]
  simp only [readKeyed?, htake, hdrop, String.toList_ofList, hne, Bool.false_eq_true, if_false,
    Vocabulary.lookupIgnoringCase?, hlookup, hread, Option.map_some]

/-- **The draft of a key with its comparison**, and whatever stands after it. -/
theorem ofText_keyed (hkey : IsWord key)
    (hlookup : Vocabulary.standard.lookup? (lowercase (String.ofList key)) = some k)
    (hcs : ∀ d ∈ cs.head?, d ≠ '=') :
    ofText (String.ofList (negationChars negated ++ (key ++ (c.chars ++ cs)))) =
      ⟨negated, .keyed (lowercase (String.ofList key)) (.complete c) (Text.ofChars cs),
        String.ofList (negationChars negated ++ (key ++ (c.chars ++ cs)))⟩ := by
  have hhead : ∀ d, isWordChar d = false → ∀ e ∈ (key ++ (c.chars ++ cs)).head?, e ≠ d := by
    intro d hd e he
    obtain ⟨first, rest, rfl⟩ := List.exists_cons_of_ne_nil hkey.1
    cases he
    exact ne_of_isWordChar (hkey.2 e List.mem_cons_self) hd
  rw [ofText_append (hhead '-' (by decide)), readContent_of_ne_bang (hhead '!' (by decide)),
    readKeyed?_symbol hkey hlookup hcs]
  rfl

/-- A value alone has no key. -/
theorem readKeyed?_of_beginsValue (h : BeginsValue cs) : readKeyed? cs = none := by
  rcases h with ⟨hne, hword⟩ | ⟨q, rest, rfl⟩
  · -- a word is all key, and then nothing is left for a comparison
    have hdrop : cs.dropWhile isWordChar = [] := List.dropWhile_eq_nil_iff.mpr hword
    simp only [readKeyed?, hdrop]
    split
    · rfl
    split
    · rfl
    · rfl
  · -- a quote is no letter of a key
    have htake : (q.mark :: rest).takeWhile isWordChar = [] := by
      rw [List.takeWhile_cons_of_neg]
      cases q <;> decide
    simp only [readKeyed?, htake]
    rfl

/-- **A name completes when its value does.** -/
theorem complete?_name (h : BeginsValue cs) :
    (ofText (String.ofList (negationChars negated ++ (literalChars literal ++ cs)))).complete? =
      ((Text.ofChars cs).value? false).map (.name negated literal ·) := by
  have hminus : ∀ d ∈ (literalChars literal ++ cs).head?, d ≠ '-' := by
    cases literal with
    | true => rintro d hd rfl; cases hd
    | false => exact h.ne_of_mem_head? (by decide) (by decide)
  have hcontent : readContent (literalChars literal ++ cs) = .name literal (Text.ofChars cs) := by
    cases literal with
    | true => rfl
    | false =>
      change readContent cs = _
      rw [readContent_of_ne_bang (h.ne_of_mem_head? (by decide) (by decide)),
        readKeyed?_of_beginsValue h]
      rfl
  rw [ofText_append hminus, hcontent]
  rfl

/-- **A keyed term completes when its value does**, if its key accepts the comparison. -/
theorem complete?_keyed (hkey : IsWord key)
    (haccepts : Vocabulary.standard.Accepts (lowercase (String.ofList key)) c)
    (h : BeginsValue cs) :
    (ofText (String.ofList (negationChars negated ++ (key ++ (c.chars ++ cs))))).complete? =
      ((Text.ofChars cs).value? false).map
        (.keyed negated (lowercase (String.ofList key)) c ·) := by
  obtain ⟨k, hlookup, hc⟩ := Vocabulary.accepts_iff_lookup?.mp haccepts
  rw [ofText_keyed hkey hlookup (h.ne_of_mem_head? (by decide) (by decide))]
  simp only [complete?, promote?, Operator.comparison?, hlookup, hc, if_true]

end Reading

end Term

end Draft

/-! ### Texts of terms -/

section Framed

variable {cs word : List Char} {term : Value → Term}

theorem Framed.value_eq (h : Framed cs term word) (value : Value) : (term value).value = value := by
  cases h <;> rfl

/-- **A term completes when its value does.** -/
theorem Framed.complete?_ofText (h : Framed cs term word) (hcs : BeginsValue cs) :
    (Draft.Term.ofText (String.ofList word)).complete? =
      ((Draft.Text.ofChars cs).value? false).map term := by
  cases h with
  | name => exact Draft.Term.complete?_name hcs
  | keyed hkey haccepts => exact Draft.Term.complete?_keyed hkey haccepts hcs

end Framed

/-! ### What a draft completes to -/

/-- **The term could be typed**, were it not for the quotes: the key accepts the comparison, and a
regular expression holds no slash. -/
structure Term.Draftable (t : Term) : Prop where
  /-- The key accepts the comparison. -/
  key : t.KeyAccepts
  /-- A regular expression holds no slash. -/
  regex : ∀ body, t.value = .regex body → '/' ∉ body.toList

/-- What may still be wrong with such a term is that its text holds both kinds of quotes. -/
theorem Term.Draftable.wellFormed_value_iff {t : Term} (h : t.Draftable) :
    t.value.WellFormed ↔
      ∀ s, t.value = .text s → ¬('"' ∈ s.toList ∧ '\'' ∈ s.toList) := by
  constructor
  · intro hvalue s hs
    rwa [hs] at hvalue
  · intro htext
    cases hvalue : t.value with
    | text s => exact htext s hvalue
    | regex body => exact h.regex body hvalue

namespace Draft

/-- The text of the value of a draft term. -/
def Content.text : Content → Text
  | .name _ text => text
  | .keyed _ _ text => text

variable {closing : Bool}

/-- Whatever a draft term is read from, its value is read from some of it. -/
theorem Term.exists_text_readContent (cs : List Char) :
    ∃ value, (readContent cs).text = Text.ofChars value := by
  unfold readContent
  split
  · exact ⟨_, rfl⟩
  rcases hkeyed : readKeyed? _ with _ | content
  · exact ⟨_, rfl⟩
  · unfold readKeyed? at hkeyed
    simp only at hkeyed
    split at hkeyed
    · cases hkeyed
    split at hkeyed
    · cases hkeyed
    · obtain ⟨⟨operator, value⟩, -, rfl⟩ := Option.map_eq_some_iff.mp hkeyed
      exact ⟨value, rfl⟩

theorem Term.of_promote? {d : Term} {t : CardFilter.Term} (h : d.promote? closing = some t) :
    t.KeyAccepts ∧ d.content.text.value? closing = some t.value := by
  unfold promote? at h
  split at h
  · rename_i hcontent
    obtain ⟨value, hvalue, rfl⟩ := Option.map_eq_some_iff.mp h
    exact ⟨trivial, by rw [hcontent]; exact hvalue⟩
  · rename_i hcontent
    split at h
    swap
    · cases h
    rename_i hlookup
    split at h
    swap
    · cases h
    rename_i hc
    obtain ⟨value, hvalue, rfl⟩ := Option.map_eq_some_iff.mp h
    exact ⟨Vocabulary.accepts_iff_lookup?.mpr ⟨_, hlookup, hc⟩, by rw [hcontent]; exact hvalue⟩

/-- **The state of the quotes of a text**, case by case. -/
theorem Text.ofChars_cases (cs : List Char) :
    Text.ofChars cs = .bare (String.ofList cs) ∨
      (∃ q body, Quote.mark q ∉ body ∧ Text.ofChars cs = .balanced q (String.ofList body)) ∨
        ∃ q body, Quote.mark q ∉ body ∧ Text.ofChars cs = .unterminated q (String.ofList body) := by
  unfold Text.ofChars
  split
  · exact .inl rfl
  split
  · exact .inl rfl
  split
  · rename_i hcut
    exact .inr (.inr ⟨_, _, not_mem_of_cutAtMark?_eq_none hcut, rfl⟩)
  · rename_i hcut
    exact .inr (.inl ⟨_, _, not_mem_of_cutAtMark? hcut, rfl⟩)
  · exact .inl rfl

/-- **A regular expression that is read holds no slash.** -/
theorem Text.slash_not_mem {cs : List Char} {body : String}
    (h : (Text.ofChars cs).value? closing = some (.regex body)) : '/' ∉ body.toList := by
  have hquoted : ∀ (q : Quote) (inner : List Char), q.mark ∉ inner →
      quotedValue q (String.ofList inner) = .regex body → '/' ∉ body.toList := by
    intro q inner hinner heq
    cases q with
    | double | single => cases heq
    | regex =>
      cases heq
      rwa [String.toList_ofList]
  rcases ofChars_cases cs with hbare | ⟨q, inner, hinner, htext⟩ | ⟨q, inner, hinner, htext⟩
  · rw [hbare, value?] at h
    split at h <;> cases h
  · rw [htext, value?, Option.some_inj] at h
    exact hquoted q inner hinner h
  · rw [htext, value?] at h
    split at h
    · exact hquoted q inner hinner (Option.some_inj.mp h)
    · cases h

/-- **A draft that is read from a text completes to a draftable term.** -/
theorem Term.of_promote?_ofText {text : String} {t : CardFilter.Term}
    (h : (ofText text).promote? closing = some t) : t.Draftable := by
  obtain ⟨hkey, hvalue⟩ := Term.of_promote? h
  -- a draft that is not read from a text could hold any regular expression
  obtain ⟨cs, hcs⟩ : ∃ cs, (ofText text).content.text = Text.ofChars cs := by
    unfold ofText
    split <;> exact Term.exists_text_readContent _
  refine ⟨hkey, fun body hbody => ?_⟩
  have hregex : (Text.ofChars cs).value? closing = some (.regex body) := by
    rw [← hcs, hvalue, hbody]
  exact Text.slash_not_mem hregex

end Draft

end CardFilter
