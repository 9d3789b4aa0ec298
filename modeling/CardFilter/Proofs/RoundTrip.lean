import CardFilter.Proofs.Written

/-!
# Filters and their canonical text

Not every filter can be written. A key must be a spelling of the vocabulary, a regular expression
must do without slashes, and since the language has no escapes, a text that holds both a double and
a single quote fits between neither. `CardFilter.Filter.WellFormed` collects these conditions, and
they are all there is:

* what is read is well-formed, whatever the text (`CardFilter.Filter.Written.wellFormed`);
* a well-formed filter is written by its canonical text
  (`CardFilter.Filter.WellFormed.written_chars`).

Together with `CardFilter.Filter.parse_eq_ok_iff_written` this gives the main statement,
`CardFilter.Filter.parse_render_eq_ok_iff_wellFormed`: a filter comes back from its canonical text
exactly when it is well-formed, and so does every filter that was read.

## Groups

The canonical text of a group puts the word `or` between its members. The tokens of that text are
found one member at a time (`CardFilter.WritesMembers.cons`): a member ends before a blank, and the
rest is the same kind of text, further to the right.
-/

namespace CardFilter

/-! ### Well-formed filters -/

/-- The value can stand between quotes: no text holds both of them, and no regular expression holds
a slash. -/
def Value.WellFormed : Value → Prop
  | .text s => ¬('"' ∈ s.toList ∧ '\'' ∈ s.toList)
  | .regex s => '/' ∉ s.toList

/-- The key is a standard spelling that accepts the comparison, and the value can be written. -/
def Term.WellFormed : Term → Prop
  | .name _ _ value => value.WellFormed
  | .keyed _ key c value => Vocabulary.standard.Accepts key c ∧ value.WellFormed

/-- **Every term of the filter can be written**, and a group has members. -/
def Filter.WellFormed : Filter → Prop
  | .term t => t.WellFormed
  | .anyOf _ ms => ms ≠ [] ∧ ∀ m ∈ ms, m.WellFormed

instance : DecidablePred Value.WellFormed
  | .text s => inferInstanceAs (Decidable (¬('"' ∈ s.toList ∧ '\'' ∈ s.toList)))
  | .regex s => inferInstanceAs (Decidable ('/' ∉ s.toList))

instance : DecidablePred Term.WellFormed
  | .name _ _ value => inferInstanceAs (Decidable value.WellFormed)
  | .keyed _ key c value =>
    inferInstanceAs (Decidable (Vocabulary.standard.Accepts key c ∧ value.WellFormed))

instance : DecidablePred Filter.WellFormed
  | .term t => inferInstanceAs (Decidable t.WellFormed)
  | .anyOf _ ms => inferInstanceAs (Decidable (ms ≠ [] ∧ ∀ m ∈ ms, m.WellFormed))

/-- The key of the term, if it has one, accepts its comparison. -/
def Term.KeyAccepts : Term → Prop
  | .name _ _ _ => True
  | .keyed _ key c _ => Vocabulary.standard.Accepts key c

theorem Term.wellFormed_iff {t : Term} : t.WellFormed ↔ t.KeyAccepts ∧ t.value.WellFormed := by
  cases t with
  | name => exact (and_iff_right trivial).symm
  | keyed => exact Iff.rfl

theorem Value.wellFormed_text_iff {cs : List Char} :
    (Value.text (String.ofList cs)).WellFormed ↔ ¬('"' ∈ cs ∧ '\'' ∈ cs) := by
  rw [WellFormed, String.toList_ofList]

theorem Filter.WellFormed.of_mem_terms {f : Filter} {t : Term} (h : f.WellFormed)
    (ht : t ∈ f.terms) : t.WellFormed := by
  cases f with
  | term u =>
    rw [List.mem_singleton.mp ht]
    exact h
  | anyOf negated ms => exact h.2 t ht

/-! ### What is written is well-formed -/

theorem Value.Written.wellFormed {value : Value} {cs : List Char} (h : value.Written cs) :
    value.WellFormed := by
  cases h with
  | word hword =>
    refine wellFormed_text_iff.mpr fun hquotes => ?_
    exact ne_of_isWordChar (hword.2 _ hquotes.1) (by decide) rfl
  | @enclosed q cs hbody =>
    cases q with
    | double => exact wellFormed_text_iff.mpr fun hquotes => hbody hquotes.1
    | single => exact wellFormed_text_iff.mpr fun hquotes => hbody hquotes.2
    | regex =>
      change '/' ∉ (String.ofList cs).toList
      rwa [String.toList_ofList]

theorem Term.Written.wellFormed {t : Term} {cs : List Char} (h : t.Written cs) :
    t.WellFormed := by
  cases h with
  | name hvalue => exact hvalue.wellFormed
  | keyed _ haccepts hvalue => exact ⟨haccepts, hvalue.wellFormed⟩

theorem Token.Splits.tail {position : Nat} {cs : List Char} {t : Token} {ts : List Token}
    (h : Token.Splits position cs (t :: ts)) : ∃ place after, Token.Splits place after ts := by
  obtain ⟨lead, rest, -, -, -, hrest⟩ := h.exists_blanks
  obtain ⟨word, after, -, -, -, hafter⟩ := Token.Splits.cons_iff.mp hrest
  exact ⟨_, after, hafter⟩

/-- Members that tokens of a text form are well-formed. -/
theorem wellFormed_of_isMembers {position : Nat} {cs : List Char} {ts : List Token}
    {ms : List Term} (hms : Grammar.IsMembers .standard ts ms)
    (h : Token.Splits position cs ts) : ∀ m ∈ ms, m.WellFormed := by
  induction hms generalizing position cs with
  | @last ts _ hterm =>
    rw [← List.append_nil ts] at h
    obtain ⟨-, word, -, -, -, -, hword, -⟩ := Term.written_of_splits hterm h
    exact List.forall_mem_singleton.mpr hword.wellFormed
  -- the text of the other members begins after the separating word
  | or hterm _ _ ih =>
    obtain ⟨-, word, after, place, -, -, hword, hafter⟩ := Term.written_of_splits hterm h
    obtain ⟨place, rest, hrest⟩ := hafter.tail
    exact List.forall_mem_cons.mpr ⟨hword.wellFormed, ih hrest⟩
  | apart hterm _ _ ih =>
    obtain ⟨-, word, after, place, -, -, hword, hafter⟩ := Term.written_of_splits hterm h
    exact List.forall_mem_cons.mpr ⟨hword.wellFormed, ih hafter⟩

/-- **What is written is well-formed.** -/
theorem Filter.Written.wellFormed {f : Filter} {cs : List Char} (h : f.Written cs) :
    f.WellFormed := by
  cases h with
  | term hterm => exact hterm.wellFormed
  | group _ hms =>
    obtain ⟨ts, hts, hmembers⟩ := hms
    exact ⟨by cases hmembers <;> exact List.cons_ne_nil _ _, wellFormed_of_isMembers hmembers hts⟩

/-! ### What is well-formed is written -/

theorem Value.isBareWord_eq_true_iff {s : String} :
    isBareWord s = true ↔ IsWord s.toList ∧ isOrWord s = false := by
  simp [isBareWord, IsWord]

/-- The quotes around a text, unless it holds both of them. -/
theorem Value.written_quoteFor {s : String} (h : (text s).WellFormed) :
    (text s).Written ((quoteFor s).enclose s.toList) := by
  have hquoted : ∀ q : Quote, q ≠ .regex → q.mark ∉ s.toList →
      (text s).Written (q.enclose s.toList) := by
    intro q hq hbody
    have hwritten := Value.Written.enclosed hbody
    rw [String.ofList_toList] at hwritten
    cases q with
    | double | single => exact hwritten
    | regex => exact absurd rfl hq
  rw [quoteFor]
  split
  · rename_i hquotes
    have hsingle : '\'' ∉ s.toList := by simpa using (Bool.and_eq_true_iff.mp hquotes).2
    exact hquoted .single (by decide) hsingle
  · rename_i hquotes
    -- double quotes are taken unless only single ones fit
    have hdouble : '"' ∉ s.toList := fun hdouble => by
      have hsingle : '\'' ∈ s.toList := by simpa [hdouble] using hquotes
      exact h ⟨hdouble, hsingle⟩
    exact hquoted .double (by decide) hdouble

/-- The canonical text of a value writes it. -/
theorem Value.WellFormed.written_chars {value : Value} (h : value.WellFormed) :
    value.Written value.chars := by
  cases value with
  | text s =>
    rw [Value.chars]
    split
    · rename_i hbare
      have hword := Value.Written.word (isBareWord_eq_true_iff.mp hbare).1
      rwa [String.ofList_toList] at hword
    · exact written_quoteFor h
  | regex s =>
    have hwritten := Value.Written.enclosed (q := .regex) h
    rwa [String.ofList_toList] at hwritten

/-- **The canonical text of a value** is a word other than `or`, or stands between quotes; and in
either case it tells the value, whether it can be read or not. -/
theorem Value.isWord_or_eq_enclose (value : Value) :
    (IsWord value.chars ∧ isOrWord (String.ofList value.chars) = false ∧
        value = .text (String.ofList value.chars)) ∨
      ∃ q : Quote, value.chars = q.enclose value.content.toList ∧
        value = Draft.Text.quotedValue q value.content := by
  cases value with
  | text s =>
    rw [Value.chars]
    split
    · rename_i hbare
      obtain ⟨hword, hor⟩ := isBareWord_eq_true_iff.mp hbare
      rw [String.ofList_toList]
      exact .inl ⟨hword, hor, rfl⟩
    · refine .inr ⟨quoteFor s, rfl, ?_⟩
      unfold quoteFor
      split <;> rfl
  | regex s => exact .inr ⟨.regex, rfl, rfl⟩

theorem Value.isOrWord_chars (value : Value) : isOrWord (String.ofList value.chars) = false := by
  rcases value.isWord_or_eq_enclose with ⟨-, hor, -⟩ | ⟨q, hchars, -⟩
  · exact hor
  · rw [hchars]
    exact isOrWord_enclose q _

theorem Value.beginsValue_chars (value : Value) : BeginsValue value.chars := by
  rcases value.isWord_or_eq_enclose with ⟨hword, -⟩ | ⟨q, hchars, -⟩
  · exact .inl hword
  · exact .inr ⟨q, _, hchars⟩

theorem Value.trimmed_chars (value : Value) : Trimmed value.chars := by
  rcases value.isWord_or_eq_enclose with ⟨hword, -⟩ | ⟨q, hchars, -⟩
  · exact trimmed_of_isWord hword
  · rw [hchars]
    exact trimmed_enclose q _

/-- **The canonical text of a term** is that of its value with its marks and its key. -/
theorem Term.KeyAccepts.exists_framed {t : Term} (h : t.KeyAccepts) :
    ∃ term, term t.value = t ∧ Framed t.value.chars term t.chars := by
  cases t with
  | name negated literal value =>
    have hframed : Framed value.chars (.name negated literal ·) _ := .name
    rw [← List.append_assoc] at hframed
    exact ⟨_, rfl, hframed⟩
  | keyed negated key c value =>
    -- a standard key is its own form in lower case
    obtain ⟨hword, hlower⟩ := Vocabulary.standard_spelling_of_accepts h
    have hframed : Framed value.chars
        (.keyed negated (lowercase (String.ofList key.toList)) c ·) _ :=
      .keyed hword (by rwa [String.ofList_toList, hlower])
    rw [String.ofList_toList, hlower, ← List.append_assoc, ← List.append_assoc] at hframed
    exact ⟨_, rfl, hframed⟩

/-- **The canonical text of a well-formed term writes it.** -/
theorem Term.WellFormed.written_chars {t : Term} (h : t.WellFormed) : t.Written t.chars := by
  obtain ⟨hkey, hvalue⟩ := Term.wellFormed_iff.mp h
  obtain ⟨term, ht, hframed⟩ := hkey.exists_framed
  have hwritten := hframed.written hvalue.written_chars t.value.isOrWord_chars
  rwa [ht] at hwritten

/-! ### The text of a group -/

theorem GroupBody.of_isWordChar {cs : List Char} (h : ∀ c ∈ cs, isWordChar c = true) :
    GroupBody cs :=
  .of_forall fun c hc => ⟨Quote.ofChar?_of_isWordChar (h c hc),
    ne_of_isWordChar (h c hc) (by decide), ne_of_isWordChar (h c hc) (by decide)⟩

theorem Value.Written.groupBody {value : Value} {cs : List Char} (h : value.Written cs) :
    GroupBody cs := by
  cases h with
  | word hword => exact .of_isWordChar hword.2
  | enclosed hbody => exact .quoted hbody .nil

/-- No quote and no parenthesis comes with the marks and the key of a term. -/
theorem Framed.groupBody {cs word : List Char} {term : Value → Term} (h : Framed cs term word)
    (hcs : GroupBody cs) : GroupBody word := by
  have hminus : ∀ negated, GroupBody (negationChars negated) := fun negated =>
    .of_all (by cases negated <;> decide)
  cases h with
  | @name negated literal =>
    have hbang : GroupBody (literalChars literal) := .of_all (by cases literal <;> decide)
    exact (hminus negated).append (hbang.append hcs)
  | @keyed negated key c hkey haccepts =>
    have hsymbol : GroupBody c.chars := .of_all (by cases c <;> decide)
    exact (hminus negated).append ((GroupBody.of_isWordChar hkey.2).append (hsymbol.append hcs))

/-- A term can stand in a group. -/
theorem Term.Written.groupBody {t : Term} {cs : List Char} (h : t.Written cs) : GroupBody cs := by
  obtain ⟨term, value, body, -, hvalue, hframed⟩ := h.exists_framed
  exact hframed.groupBody hvalue.groupBody

/-- A term at the start of a text, where it ends before a blank or the end. -/
theorem Term.Written.exists_splits {t : Term} {cs after : List Char} {ts : List Token}
    (h : t.Written cs) (hafter : ∀ d ∈ after.head?, isBlank d = true)
    (hts : Token.Splits (byteLength cs) after ts) :
    ∃ us, Grammar.IsTerm .standard us t ∧ Token.Splits 0 (cs ++ after) (us ++ ts) := by
  obtain ⟨ks, hkinds, hjoined⟩ :=
    h.exists_joined fun d hd => isWordChar_eq_false_of_isBlank (hafter d hd)
  refine ⟨_, Grammar.isTerm_iff_placed.mpr ⟨0, ks, hkinds, rfl⟩, ?_⟩
  rw [← Nat.zero_add (byteLength cs)] at hts
  exact splits_placed_iff.mpr ⟨cs, after, rfl, hjoined, hts⟩

/-- A single member. -/
theorem WritesMembers.singleton {m : Term} {cs : List Char} (h : m.Written cs) :
    WritesMembers [m] cs := by
  obtain ⟨us, hterm, hsplits⟩ := h.exists_splits (by simp) (.nil)
  rw [List.append_nil, List.append_nil] at hsplits
  exact ⟨us, hsplits, .last hterm⟩

/-- **One more member**, with the word `or` after it. -/
theorem WritesMembers.cons {m : Term} {ms : List Term} {cs body : List Char} (h : m.Written cs)
    (hms : WritesMembers ms body) :
    WritesMembers (m :: ms) (cs ++ ([' ', 'o', 'r', ' '] ++ body)) := by
  have hor : (TokenKind.word (String.ofList ['o', 'r'])).Written ['o', 'r'] := .word (by decide)
  have hend : (TokenKind.word (String.ofList ['o', 'r'])).EndsBefore (' ' :: body) := by
    intro d hd
    cases hd
    decide
  have hblank : ∀ d ∈ (' ' :: (['o', 'r'] ++ (' ' :: body))).head?, isBlank d = true := by
    intro d hd
    cases hd
    decide
  -- the other members stand after the first one, two blanks and the word
  obtain ⟨ts, hts, hmembers⟩ :=
    (writesMembers_iff (byteLength cs + ' '.utf8Size + 2 + ' '.utf8Size)).mp hms
  rw [Token.tokensFrom_eq_ok_iff] at hts
  have hrest : Token.Splits (byteLength cs) (' ' :: (['o', 'r'] ++ (' ' :: body))) _ :=
    .blank (by decide) (.token hor hend (.blank (by decide) hts))
  obtain ⟨us, hterm, hsplits⟩ := h.exists_splits hblank hrest
  exact ⟨_, hsplits, .or hterm ⟨_, rfl, by decide⟩ hmembers⟩

namespace Filter

variable {ms : List Term}

theorem groupBody_memberChars (h : ∀ m ∈ ms, m.WellFormed) : GroupBody (memberChars ms) := by
  fun_induction memberChars ms with
  | case1 => exact .nil
  | case2 m => exact (h m List.mem_cons_self).written_chars.groupBody
  | case3 m n rest ih =>
    obtain ⟨hm, hrest⟩ := List.forall_mem_cons.mp h
    have hor : GroupBody [' ', 'o', 'r', ' '] := .of_all (by decide)
    exact (hm.written_chars.groupBody.append hor).append (ih hrest)

theorem writesMembers_memberChars (hne : ms ≠ []) (h : ∀ m ∈ ms, m.WellFormed) :
    WritesMembers ms (memberChars ms) := by
  fun_induction memberChars ms with
  | case1 => exact absurd rfl hne
  | case2 m => exact .singleton (h m List.mem_cons_self).written_chars
  | case3 m n rest ih =>
    obtain ⟨hm, hrest⟩ := List.forall_mem_cons.mp h
    rw [List.append_assoc]
    exact .cons hm.written_chars (ih (List.cons_ne_nil n rest) hrest)

/-- **The canonical text of a well-formed filter writes it.** -/
theorem WellFormed.written_chars {f : Filter} (h : f.WellFormed) : f.Written f.chars := by
  cases f with
  | term t => exact .term (Term.WellFormed.written_chars h)
  | anyOf negated ms =>
    obtain ⟨hne, hms⟩ := h
    rw [Filter.chars, List.append_assoc, List.cons_append]
    exact .group (groupBody_memberChars hms) (writesMembers_memberChars hne hms)

/-! ### The round trip -/

theorem parse_render_of_wellFormed {f : Filter} (h : f.WellFormed) : parse f.render = .ok f := by
  have hwritten := h.written_chars
  rwa [parse_eq_ok_iff_written, render, String.toList_ofList, trimChars_eq_self hwritten.trimmed]

theorem wellFormed_of_parse {text : String} {f : Filter} (h : parse text = .ok f) :
    f.WellFormed :=
  (parse_eq_ok_iff_written.mp h).wellFormed

/-- **A filter comes back from its canonical text exactly when it is well-formed**; and every
filter that is read from some text is, so that reading its canonical text gives the same filter
again. -/
theorem parse_render_eq_ok_iff_wellFormed (f : Filter) (text : String) :
    (parse f.render = .ok f ↔ f.WellFormed) ∧
      (parse text = .ok f → f.WellFormed ∧ parse f.render = .ok f) := by
  refine ⟨⟨wellFormed_of_parse, parse_render_of_wellFormed⟩, fun h => ?_⟩
  have hwellFormed := wellFormed_of_parse h
  exact ⟨hwellFormed, parse_render_of_wellFormed hwellFormed⟩

/-- A group whose values need both kinds of quotes. -/
theorem parse_render_group :
    let f : Filter := .anyOf false
      [.keyed true "t" .including (.text "or"), .name false true (.text "a(\"b")]
    parse "( -T:or !'a(\"b' )" = .ok f ∧ f.WellFormed ∧ parse f.render = .ok f := by
  intro f
  have h : parse "( -T:or !'a(\"b' )" = .ok f := by decide +kernel
  exact ⟨h, (parse_render_eq_ok_iff_wellFormed f _).2 h⟩

end Filter

end CardFilter
