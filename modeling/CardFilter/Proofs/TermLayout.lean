import CardFilter.Proofs.Closing
import CardFilter.Proofs.TokenLayout

/-!
# How a draft term is spelled

A draft term says of a text that is being typed what each part of it is: the negation mark, then the
mark `!` or a key with an operator, and the name or the value with the state of its quotes. This
file says what a text must look like for a draft term to say so
(`CardFilter.Draft.Term.Spelled`), part by part and without reading anything. The main statement is
`CardFilter.Draft.Term.ofText_eq_iff_spelled`: the draft that is read from a text is the only one
that the text spells. So the text can be put together again from the draft, up to the case of the
letters in the key, and nothing but the text decides what is read.

* **A text has one state of its quotes** (`CardFilter.Draft.Text.ofChars_eq_iff`). It is bare when
  no quote begins it, and also when the quote that begins it is closed before the end.
* **An operator is the longest one** that stands behind the key
  (`CardFilter.Draft.Term.readOperator?_eq_some_iff`), where the mark `!` counts as one: it is read
  only where no comparison stands.
* **A key is a whole word** of the vocabulary that an operator follows
  (`CardFilter.Draft.BeginsKeyed`); a text that does not begin so is a name.
-/

namespace CardFilter.Draft

/-! ### The state of the quotes -/

namespace Text

/-- **What a text is spelled with**: itself when it is bare, and then a quote that begins it occurs
again before the end; or itself behind its quote, or between its quotes, and then the quote does
not occur in it. -/
def Spelled : Text → List Char → Prop
  | bare s, cs => cs = s.toList ∧ ∀ (q : Quote) (body : List Char), cs = q.mark :: body →
      ∃ inner after, body = inner ++ q.mark :: after ∧ after ≠ []
  | balanced q s, cs => cs = q.enclose s.toList ∧ q.mark ∉ s.toList
  | unterminated q s, cs => cs = q.mark :: s.toList ∧ q.mark ∉ s.toList

variable {t : Text} {cs : List Char}

theorem spelled_ofChars (cs : List Char) : (ofChars cs).Spelled cs := by
  rcases cs with _ | ⟨c, body⟩
  · exact ⟨rfl, fun q body h => by cases h⟩
  rw [ofChars]
  split
  · -- no quote begins the text
    rename_i hquote
    refine ⟨String.toList_ofList.symm, fun q body h => ?_⟩
    rw [(List.cons.inj h).1, Quote.ofChar?_mark] at hquote
    cases hquote
  rename_i q hquote
  obtain rfl := Quote.eq_mark_of_ofChar? hquote
  split
  · rename_i hcut
    have hmark := not_mem_of_cutAtMark?_eq_none hcut
    exact ⟨by rw [String.toList_ofList], by rwa [String.toList_ofList]⟩
  · rename_i before hcut
    obtain ⟨hmark, rfl⟩ := cutAtMark?_eq_some_iff.mp hcut
    exact ⟨by rw [String.toList_ofList]; rfl, by rwa [String.toList_ofList]⟩
  · -- the quote is closed before the end
    rename_i before d after hcut
    refine ⟨String.toList_ofList.symm, fun r body h => ?_⟩
    obtain ⟨hmark, rfl⟩ := List.cons.inj h
    rw [← hmark]
    exact ⟨before, d :: after, eq_append_of_cutAtMark? hcut, List.cons_ne_nil d after⟩

/-- **A text has one state of its quotes.** -/
theorem ofChars_eq_iff : ofChars cs = t ↔ t.Spelled cs := by
  constructor
  · rintro rfl
    exact spelled_ofChars cs
  intro h
  cases t with
  | bare s =>
    obtain ⟨rfl, hquote⟩ := h
    rcases ofChars_cases s.toList with hbare | ⟨q, body, hbody, hquoted⟩ | ⟨q, body, hbody, hopen⟩
    · rw [hbare, String.ofList_toList]
    · -- the quote would be closed at the end for the first time
      have hs := spelled_ofChars s.toList
      rw [hquoted] at hs
      obtain ⟨inner, after, heq, hafter⟩ := hquote q _ hs.1
      obtain ⟨init, last, rfl⟩ := (List.eq_nil_or_concat' after).resolve_left hafter
      rw [String.toList_ofList, ← List.cons_append, ← List.append_assoc] at heq
      rw [(List.append_inj' heq rfl).1] at hbody
      exact absurd (by simp) hbody
    · have hs := spelled_ofChars s.toList
      rw [hopen] at hs
      obtain ⟨inner, after, heq, -⟩ := hquote q _ hs.1
      rw [String.toList_ofList] at heq
      rw [heq] at hbody
      exact absurd (by simp) hbody
  | balanced q s =>
    obtain ⟨rfl, hs⟩ := h
    rw [ofChars_enclose hs, String.ofList_toList]
  | unterminated q s => exact ofChars_eq_unterminated_iff.mpr h

end Text

/-! ### Operators -/

/-- The characters that an operator is written with. -/
def Operator.chars : Operator → List Char
  | complete c => c.chars
  | bang => ['!']

theorem Operator.chars_injective : Function.Injective Operator.chars := by
  rintro (c | _) (d | _) h
  · cases c <;> cases d <;> simp_all [chars, Comparison.chars]
  · cases c <;> cases h
  · cases d <;> cases h
  · rfl

section Operators

variable {operator : Operator} {cs rest : List Char}

/-- **A comparison is read** wherever the symbol of one stands. -/
theorem exists_read?_of_prefix {c : Comparison} (h : c.chars <+: cs) :
    ∃ d rest, Comparison.read? cs = some (d, rest) := by
  obtain ⟨tail, rfl⟩ := h
  rcases hread : Comparison.read? (c.chars ++ tail) with _ | ⟨d, rest⟩
  · exfalso
    unfold Comparison.read? at hread
    split at hread
    case h_8 _ hle hge hne hlt hgt heq hcolon =>
      cases c with
      | including => exact hcolon tail rfl
      | equal => exact heq tail rfl
      | notEqual => exact hne tail rfl
      | less => exact hlt tail rfl
      | lessOrEqual => exact hle tail rfl
      | greater => exact hgt tail rfl
      | greaterOrEqual => exact hge tail rfl
    all_goals cases hread
  · exact ⟨d, rest, rfl⟩

namespace Term

/-- **The longest operator** at the start of a text is read, and nothing else. -/
theorem readOperator?_eq_some_iff :
    readOperator? cs = some (operator, rest) ↔ cs = operator.chars ++ rest ∧
      ∀ longer : Operator, longer.chars <+: cs → longer.chars.length ≤ operator.chars.length := by
  rcases hread : Comparison.read? cs with _ | ⟨c, after⟩
  · -- no comparison stands here, so that nothing is longer than the mark `!`
    have hnone : ∀ c : Comparison, ¬c.chars <+: cs := by
      intro c hc
      obtain ⟨d, rest, hsome⟩ := exists_read?_of_prefix hc
      rw [hread] at hsome
      cases hsome
    simp only [readOperator?, hread]
    constructor
    · intro h
      split at h
      · cases h
        refine ⟨rfl, fun longer hlonger => ?_⟩
        cases longer with
        | complete c => exact absurd hlonger (hnone c)
        | bang => exact Nat.le_refl _
      · cases h
    · rintro ⟨rfl, -⟩
      cases operator with
      | complete c => exact absurd (List.prefix_append _ _) (hnone c)
      | bang => rfl
  · obtain ⟨rfl, hend⟩ := Comparison.read?_eq_some_iff.mp hread
    have hlongest : ∀ longer : Operator, longer.chars <+: c.chars ++ after →
        longer.chars.length ≤ c.chars.length := by
      intro longer hlonger
      cases longer with
      | complete d => exact Comparison.isProlongedBy_eq_false_iff.mp hend d hlonger
      | bang => cases c <;> decide
    simp only [readOperator?, hread]
    constructor
    · intro h
      cases h
      exact ⟨rfl, hlongest⟩
    · rintro ⟨happend, hother⟩
      have hle : operator.chars.length ≤ c.chars.length :=
        hlongest operator (happend ▸ List.prefix_append _ _)
      have hge : c.chars.length ≤ operator.chars.length :=
        hother (.complete c) (List.prefix_append _ _)
      obtain ⟨hchars, rfl⟩ := List.append_inj happend (Nat.le_antisymm hge hle)
      rw [← @Operator.chars_injective (.complete c) operator hchars]

/-- **An operator is read** wherever one stands. -/
theorem exists_readOperator?_iff :
    (∃ operator rest, readOperator? cs = some (operator, rest)) ↔
      ∃ operator : Operator, operator.chars <+: cs := by
  constructor
  · rintro ⟨operator, rest, h⟩
    exact ⟨operator, rest, (readOperator?_eq_some_iff.mp h).1.symm⟩
  · rintro ⟨operator, hoperator⟩
    rcases hread : readOperator? cs with _ | ⟨found, rest⟩
    · exfalso
      unfold readOperator? at hread
      split at hread
      · cases hread
      rename_i hnone
      split at hread
      · cases hread
      rename_i hbang
      cases operator with
      | complete c =>
        obtain ⟨d, rest, hsome⟩ := exists_read?_of_prefix hoperator
        rw [hnone] at hsome
        cases hsome
      | bang =>
        obtain ⟨rest, rfl⟩ := hoperator
        exact hbang rest rfl
    · exact ⟨found, rest, rfl⟩

end Term

end Operators

/-! ### Keys -/

/-- **A key with an operator behind it** stands at the start of the text: a whole word whose
lower-case form is a spelling of the standard vocabulary, and then an operator. -/
def BeginsKeyed (cs : List Char) : Prop :=
  ∃ word after, cs = word ++ after ∧ IsWord word ∧ (∀ d ∈ after.head?, isWordChar d = false) ∧
    (∃ k, Vocabulary.standard.lookup? (lowercase (String.ofList word)) = some k) ∧
    ∃ operator : Operator, operator.chars <+: after

/-- **What a content is spelled with.** A name stands behind the mark `!`, or where neither this
mark nor a key with an operator stands. A key is a word that becomes this spelling in lower case;
behind it stands the operator, the longest one that stands there, and then the value. -/
def Content.Spelled : Content → List Char → Prop
  | .name literal text, cs => ∃ body, cs = literalChars literal ++ body ∧ text.Spelled body ∧
      (literal = false → cs.head? ≠ some '!' ∧ ¬BeginsKeyed cs)
  | .keyed key operator value, cs => ∃ word body, cs = word ++ (operator.chars ++ body) ∧
      IsWord word ∧ lowercase (String.ofList word) = key ∧
      (∃ k, Vocabulary.standard.lookup? key = some k) ∧
      (∀ longer : Operator, longer.chars <+: operator.chars ++ body →
        longer.chars.length ≤ operator.chars.length) ∧ value.Spelled body

section Contents

variable {key : String} {operator : Operator} {value : Text} {content : Content} {cs : List Char}

/-- No operator begins with a character of a word. -/
theorem Operator.isWordChar_of_mem_head? {rest : List Char} :
    ∀ d ∈ (operator.chars ++ rest).head?, isWordChar d = false := by
  cases operator with
  | complete c => exact c.isWordChar_of_mem_head?
  | bang =>
    rintro d hd
    cases hd
    decide

/-- **A key with its operator and value** is read where they are spelled. -/
theorem readKeyed?_eq_some_iff :
    Term.readKeyed? cs = some content ↔
      (∃ key operator value, content = .keyed key operator value) ∧ content.Spelled cs := by
  constructor
  · intro h
    simp only [Term.readKeyed?, String.toList_ofList] at h
    split at h
    · cases h
    rename_i hkey
    split at h
    · cases h
    rename_i k hlookup
    obtain ⟨⟨operator, value⟩, hoperator, rfl⟩ := Option.map_eq_some_iff.mp h
    obtain ⟨happend, hlongest⟩ := Term.readOperator?_eq_some_iff.mp hoperator
    refine ⟨⟨_, _, _, rfl⟩, cs.takeWhile isWordChar, value, ?_, ⟨?_, ?_⟩, rfl, ⟨k, hlookup⟩,
      happend ▸ hlongest, Text.spelled_ofChars value⟩
    · rw [← happend, List.takeWhile_append_dropWhile]
    · rwa [List.isEmpty_iff] at hkey
    · exact fun c hc => List.mem_takeWhile_imp hc
  · rintro ⟨⟨key, operator, value, rfl⟩, hspelled⟩
    obtain ⟨word, body, rfl, hword, rfl, ⟨k, hlookup⟩, hlongest, hvalue⟩ := hspelled
    have htake : (word ++ (operator.chars ++ body)).takeWhile isWordChar = word :=
      takeWhile_append_of_head? hword.2 Operator.isWordChar_of_mem_head?
    have hdrop : (word ++ (operator.chars ++ body)).dropWhile isWordChar = operator.chars ++ body :=
      dropWhile_append_of_head? hword.2 Operator.isWordChar_of_mem_head?
    have hne : word.isEmpty = false := List.isEmpty_eq_false_iff.mpr hword.1
    have hread := Term.readOperator?_eq_some_iff.mpr ⟨rfl, hlongest⟩
    simp only [Term.readKeyed?, htake, hdrop, String.toList_ofList, hne, Bool.false_eq_true,
      if_false, Vocabulary.lookupIgnoringCase?, hlookup, hread, Option.map_some]
    rw [Text.ofChars_eq_iff.mpr hvalue]

/-- **Something with a key is read** exactly where a key with an operator begins the text. -/
theorem exists_readKeyed?_iff :
    (∃ content, Term.readKeyed? cs = some content) ↔ BeginsKeyed cs := by
  constructor
  · rintro ⟨content, h⟩
    obtain ⟨⟨key, operator, value, rfl⟩, hspelled⟩ := readKeyed?_eq_some_iff.mp h
    obtain ⟨word, body, rfl, hword, rfl, hlookup, -, -⟩ := hspelled
    exact ⟨word, _, rfl, hword, Operator.isWordChar_of_mem_head?, hlookup, operator,
      List.prefix_append _ _⟩
  · rintro ⟨word, after, rfl, hword, hafter, hlookup, hoperator⟩
    obtain ⟨operator, body, hread⟩ := Term.exists_readOperator?_iff.mpr hoperator
    obtain ⟨rfl, hlongest⟩ := Term.readOperator?_eq_some_iff.mp hread
    exact ⟨_, readKeyed?_eq_some_iff.mpr ⟨⟨_, _, _, rfl⟩, word, body, rfl, hword, rfl, hlookup,
      hlongest, Text.spelled_ofChars body⟩⟩

theorem BeginsKeyed.head?_ne (h : BeginsKeyed cs) : cs.head? ≠ some '!' := by
  obtain ⟨word, after, rfl, ⟨hne, hword⟩, -, -, -⟩ := h
  obtain ⟨c, rest, rfl⟩ := List.exists_cons_of_ne_nil hne
  intro hbang
  obtain rfl := Option.some.inj hbang
  exact absurd (hword '!' List.mem_cons_self) (by decide)

/-- **The content of a text** is the one that the text spells. -/
theorem readContent_eq_iff : Term.readContent cs = content ↔ content.Spelled cs := by
  by_cases hbang : cs.head? = some '!'
  · -- the mark `!` leaves no choice
    obtain ⟨name, rfl⟩ := List.head?_eq_some_iff.mp hbang
    change Content.name true (Text.ofChars name) = content ↔ _
    constructor
    · rintro rfl
      exact ⟨name, rfl, Text.spelled_ofChars name, fun h => by cases h⟩
    · intro h
      cases content with
      | name literal text =>
        obtain ⟨body, hbody, htext, hother⟩ := h
        cases literal with
        | false => exact absurd hbang (hother rfl).1
        | true =>
          obtain rfl := (List.cons.inj hbody).2
          rw [Text.ofChars_eq_iff.mpr htext]
      | keyed key operator value =>
        have hkeyed := readKeyed?_eq_some_iff.mpr ⟨⟨_, _, _, rfl⟩, h⟩
        exact absurd hbang (exists_readKeyed?_iff.mp ⟨_, hkeyed⟩).head?_ne
  have hhead : ∀ d ∈ cs.head?, d ≠ '!' := by
    rintro d hd rfl
    exact hbang hd
  rw [Term.readContent_of_ne_bang hhead]
  rcases hkeyed : Term.readKeyed? cs with _ | found
  · have hnone : ¬BeginsKeyed cs := by
      intro hbegins
      obtain ⟨content, hsome⟩ := exists_readKeyed?_iff.mpr hbegins
      rw [hkeyed] at hsome
      cases hsome
    rw [Option.getD_none]
    constructor
    · rintro rfl
      exact ⟨cs, rfl, Text.spelled_ofChars cs, fun _ => ⟨hbang, hnone⟩⟩
    · intro h
      cases content with
      | name literal text =>
        obtain ⟨body, rfl, htext, -⟩ := h
        cases literal with
        | false => rw [← Text.ofChars_eq_iff.mpr htext]; rfl
        | true => exact absurd rfl hbang
      | keyed key operator value =>
        have hsome := readKeyed?_eq_some_iff.mpr ⟨⟨_, _, _, rfl⟩, h⟩
        exact absurd (exists_readKeyed?_iff.mp ⟨_, hsome⟩) hnone
  · rw [Option.getD_some]
    constructor
    · rintro rfl
      exact (readKeyed?_eq_some_iff.mp hkeyed).2
    · intro h
      cases content with
      | name literal text =>
        obtain ⟨body, rfl, -, hother⟩ := h
        cases literal with
        | false => exact absurd (exists_readKeyed?_iff.mp ⟨_, hkeyed⟩) (hother rfl).2
        | true => exact absurd rfl hbang
      | keyed key operator value =>
        have hsome := readKeyed?_eq_some_iff.mpr ⟨⟨_, _, _, rfl⟩, h⟩
        exact Option.some.inj (hkeyed.symm.trans hsome)

end Contents

/-! ### Terms -/

/-- The text without the negation mark that may begin it. -/
def withoutMinus : List Char → List Char
  | '-' :: rest => rest
  | cs => cs

/-- **A draft term is spelled by a text**: the text is kept, the term is negated exactly when the
text has a negation mark in front, and what stands behind this mark spells the content. -/
structure Term.Spelled (t : Term) (text : String) : Prop where
  /-- The text is kept. -/
  raw : t.raw = text
  /-- Nothing but the negation mark stands before the content. -/
  negation : text.toList = negationChars t.negated ++ withoutMinus text.toList
  /-- The content is spelled by what follows. -/
  content : t.content.Spelled (withoutMinus text.toList)

theorem withoutMinus_of_head?_ne {cs : List Char} (h : cs.head? ≠ some '-') :
    withoutMinus cs = cs := by
  unfold withoutMinus
  split
  · exact absurd rfl h
  · rfl

/-- The negation mark is the only thing that stands before the content. -/
theorem eq_negationChars_append_iff {negated : Bool} {cs : List Char} :
    cs = negationChars negated ++ withoutMinus cs ↔ negated = (cs.head? == some '-') := by
  by_cases hminus : cs.head? = some '-'
  · obtain ⟨rest, rfl⟩ := List.head?_eq_some_iff.mp hminus
    cases negated <;> simp [negationChars, withoutMinus]
  · rw [withoutMinus_of_head?_ne hminus, beq_eq_false_iff_ne.mpr hminus]
    cases negated <;> simp [negationChars]

theorem Term.ofText_eq (text : String) :
    ofText text =
      ⟨text.toList.head? == some '-', readContent (withoutMinus text.toList), text⟩ := by
  by_cases hminus : text.toList.head? = some '-'
  · obtain ⟨rest, htext⟩ := List.head?_eq_some_iff.mp hminus
    rw [ofText_of_minus htext, htext]
    rfl
  · have hhead : ∀ d ∈ text.toList.head?, d ≠ '-' := by
      rintro d hd rfl
      exact hminus hd
    rw [ofText_of_ne_minus hhead, withoutMinus_of_head?_ne hminus,
      beq_eq_false_iff_ne.mpr hminus]

/-- **The draft of a text is the one that the text spells**, so that nothing of the text is lost.
It has a key exactly where, behind the negation mark if there is one, a whole word of the
vocabulary begins the text and an operator follows it. -/
theorem Term.ofText_eq_iff_spelled (text : String) :
    (∀ t, ofText text = t ↔ t.Spelled text) ∧
      ((∃ key operator value, (ofText text).content = .keyed key operator value) ↔
        BeginsKeyed (withoutMinus text.toList)) := by
  have hspelled : ∀ t, ofText text = t ↔ t.Spelled text := by
    rintro ⟨negated, content, raw⟩
    rw [ofText_eq, Term.mk.injEq]
    constructor
    · rintro ⟨hnegated, hcontent, hraw⟩
      exact ⟨hraw.symm, eq_negationChars_append_iff.mpr hnegated.symm,
        readContent_eq_iff.mp hcontent⟩
    · rintro ⟨hraw, hnegation, hcontent⟩
      exact ⟨(eq_negationChars_append_iff.mp hnegation).symm, readContent_eq_iff.mpr hcontent,
        hraw.symm⟩
  refine ⟨hspelled, ?_⟩
  rw [← exists_readKeyed?_iff]
  constructor
  · rintro ⟨key, operator, value, hcontent⟩
    have hkeyed := ((hspelled _).mp rfl).content
    rw [hcontent] at hkeyed
    exact ⟨_, readKeyed?_eq_some_iff.mpr ⟨⟨key, operator, value, rfl⟩, hkeyed⟩⟩
  · rintro ⟨content, hread⟩
    obtain ⟨⟨key, operator, value, rfl⟩, hkeyed⟩ := readKeyed?_eq_some_iff.mp hread
    exact ⟨key, operator, value, by rw [ofText_eq]; exact readContent_eq_iff.mpr hkeyed⟩

/-- The quote that begins the value is closed before the end, so that the value is bare. -/
example : Term.ofText "-IS!=\"a\"b" =
    ⟨true, .keyed "is" (.complete .notEqual) (.bare "\"a\"b"), "-IS!=\"a\"b"⟩ := by
  decide +kernel

end CardFilter.Draft
