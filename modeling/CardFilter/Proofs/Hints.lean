import CardFilter.Proofs.FaultCauses
import Mathlib.Data.List.Infix

/-!
# Which advice is given

Advice on a mistake is found by the words of the message. A message can quote the text, and what it
quotes can hold the words of some advice. This file says what that comes to
(`CardFilter.Filter.isAdvised_of_parse`): the advice is the first, in the order in which it is
looked for, that **fits the cause or has its words in what is quoted**. Where nothing of the kind is
quoted it is the advice that fits the cause. But for a key with the name `nested` the advice is
given that belongs to a group in a group (`CardFilter.Filter.exists_misadvised`).

Two things are quoted: the token that follows a complete filter, and a key that is not known or that
has a mark. A key is a word, so that of all the words that are looked for it can hold only one,
`nested`; and a key that is known does not even hold this.

To find the words of an advice in a message is to find them in what is quoted, because the rest of
the message **misses** them (`CardFilter.misses`): no end of it goes over into these words.
-/

namespace CardFilter

/-! ### Words in a text -/

section Words

variable {needle before cs after : List Char} {s : String}

theorem occursIn_ofList :
    occursIn (String.ofList needle) (String.ofList cs) = occursInChars needle cs := by
  rw [occursIn, String.toList_ofList, String.toList_ofList]

theorem occursInChars_eq_true_iff : occursInChars needle cs = true ↔ needle <:+: cs := by
  induction cs with
  | nil => simp [occursInChars]
  | cons c cs ih => simp [occursInChars, ih, List.infix_cons_iff]

/-- **The text misses the words**, whatever comes after it: at no place of it the words begin and
go on to its end or to their own. -/
def misses (needle : List Char) : List Char → Bool
  | [] => true
  | c :: cs =>
    !(c :: cs).isPrefixOf needle && !needle.isPrefixOf (c :: cs) && misses needle cs

/-- What misses the words can be left out before a text. -/
theorem infix_append_iff_of_misses (h : misses needle before = true) :
    needle <:+: before ++ cs ↔ needle <:+: cs := by
  induction before with
  | nil => rfl
  | cons c before ih =>
    simp only [misses, Bool.and_eq_true, Bool.not_eq_true', Bool.eq_false_iff, ne_eq,
      List.isPrefixOf_iff_prefix] at h
    obtain ⟨⟨hbefore, hneedle⟩, hrest⟩ := h
    rw [List.cons_append, List.infix_cons_iff, ih hrest]
    refine or_iff_right fun hprefix => ?_
    -- both would begin the same text
    rcases List.prefix_or_prefix_of_prefix hprefix (List.prefix_append (c :: before) cs) with h | h
    · exact hneedle h
    · exact hbefore h

/-- And behind it. -/
theorem infix_append_iff_of_misses_reverse (h : misses needle.reverse after.reverse = true) :
    needle <:+: cs ++ after ↔ needle <:+: cs := by
  rw [← List.reverse_infix, List.reverse_append, infix_append_iff_of_misses h, List.reverse_infix]

theorem occursIn_append_of_misses (h : misses needle before = true) :
    occursIn (String.ofList needle) (String.ofList before ++ s) =
      occursIn (String.ofList needle) s := by
  rw [Bool.eq_iff_iff, occursIn, occursIn, occursInChars_eq_true_iff, occursInChars_eq_true_iff,
    String.toList_append, String.toList_ofList, String.toList_ofList, infix_append_iff_of_misses h]

theorem occursIn_append_of_misses_reverse (h : misses needle.reverse after.reverse = true) :
    occursIn (String.ofList needle) (s ++ String.ofList after) =
      occursIn (String.ofList needle) s := by
  rw [Bool.eq_iff_iff, occursIn, occursIn, occursInChars_eq_true_iff, occursInChars_eq_true_iff,
    String.toList_append, String.toList_ofList, String.toList_ofList,
    infix_append_iff_of_misses_reverse h]

/-- **What is quoted in a frame**, where the frame misses the words. -/
theorem occursIn_framed (hbefore : misses needle before = true)
    (hafter : misses needle.reverse after.reverse = true) :
    occursIn (String.ofList needle) (String.ofList before ++ s ++ String.ofList after) =
      occursIn (String.ofList needle) s :=
  (occursIn_append_of_misses_reverse hafter).trans (occursIn_append_of_misses hbefore)

end Words

/-! ### The advice -/

/-- Advice on a mistake. -/
inductive Advice
  /-- To close the quote. -/
  | closeQuote
  /-- To close the regular expression. -/
  | closeRegex
  /-- To make one group of two. -/
  | joinGroups
  /-- To look the keys up. -/
  | listKeys
  /-- To put filters on both sides of the word `or`. -/
  | fillSides
  deriving DecidableEq, Repr

namespace Advice

/-- All advice, in the order in which it is looked for. -/
def all : List Advice :=
  [closeQuote, closeRegex, joinGroups, listKeys, fillSides]

/-- The words of a message that it is found by. -/
def words : Advice → String
  | closeQuote => "unclosed quote"
  | closeRegex => "unclosed regex"
  | joinGroups => "nested"
  | listKeys => "unknown filter key"
  | fillSides => "'or'"

/-- The advice in words. -/
def text : Advice → String
  | closeQuote => "Add a closing quote to complete the value"
  | closeRegex => "Close the regular expression with '/'"
  | joinGroups => "Groups cannot contain other groups; list the filters in one group"
  | listKeys => "Run 'scry keys' to list the recognized filter keys"
  | fillSides => "'or' needs a filter on both sides, e.g. '(t:instant or t:sorcery)'"

end Advice

/-- **The advice that belongs to the cause**, whatever the text. The word `or` is to be given
filters on both sides where it is out of place, and where it is missing between two filters. -/
def SyntaxFault.advice? : SyntaxFault → Option Advice
  | .lexical .unclosedQuote => some .closeQuote
  | .lexical .unclosedRegex => some .closeRegex
  | .lexical .nestedGroup => some .joinGroups
  | .grammatical fault =>
    match fault with
    | .unknownKey _ => some .listKeys
    | .orFirst | .orTwice | .orLast | .orOutsideGroup | .unseparatedMembers => some .fillSides
    | .trailing found => if found = "'or'" then some .fillSides else none
    | _ => none
  | _ => none

/-- What the message quotes from the text. -/
def SyntaxFault.quotation : SyntaxFault → String
  | .grammatical (.trailing found) => found
  | .grammatical (.markedKey key) | .grammatical (.unknownKey key) => "'" ++ key ++ "'"
  | _ => ""

/-- **The hint is the first advice whose words are in the message.** -/
theorem QueryError.hint_eq_find? (e : QueryError) :
    e.hint = (Advice.all.find? fun a => occursIn a.words e.message).map Advice.text := by
  simp only [hint, Advice.all, List.find?_cons, List.find?_nil, Advice.words]
  repeat' split
  all_goals simp_all [Advice.text]

/-! ### Words in what is quoted -/

theorem Vocabulary.standard_spellings_nested : ∀ k ∈ standard.keys, ∀ s ∈ k.spellings,
    occursIn "nested" s = false := by
  decide +kernel

/-- The lower-case form of a text ends with that of its rest. -/
theorem lowercaseAfter_suffix_append (before as bs : List Char) :
    lowercaseAfter (as.reverse ++ before) bs <:+ lowercaseAfter before (as ++ bs) := by
  induction as generalizing before with
  | nil => exact List.suffix_refl _
  | cons a as ih =>
    rw [List.reverse_cons, List.append_assoc]
    exact (ih (a :: before)).trans (List.suffix_append _ _)

/-- Small letters stay in the lower-case form. -/
theorem lowercaseAfter_append_of_small (before bs : List Char) {as : List Char}
    (h : ∀ a ∈ as, a ≠ 'Σ' ∧ smallLetters a = [a]) :
    lowercaseAfter before (as ++ bs) = as ++ lowercaseAfter (as.reverse ++ before) bs := by
  induction as generalizing before with
  | nil => rfl
  | cons a as ih =>
    obtain ⟨hsigma, hsmall⟩ := h a List.mem_cons_self
    have hne : (a == 'Σ') = false := beq_false_of_ne hsigma
    rw [List.cons_append, lowercaseAfter, hne, hsmall,
      ih (a :: before) fun b hb => h b (List.mem_cons_of_mem a hb)]
    simp

/-- **No known key holds the word**, in any case. -/
theorem occursIn_nested_of_lookup? {key : String} {k : Key}
    (h : Vocabulary.standard.lookupIgnoringCase? key = some k) : occursIn "nested" key = false := by
  obtain ⟨hk, hspelling⟩ := Vocabulary.lookup?_eq_some_iff.mp h
  by_contra hoccurs
  rw [Bool.not_eq_false, occursIn, occursInChars_eq_true_iff] at hoccurs
  obtain ⟨front, rear, hkey⟩ := hoccurs
  have hall : ("nested".toList.all fun a => a != 'Σ' && smallLetters a == [a]) = true := by decide
  have hsmall : ∀ a ∈ "nested".toList, a ≠ 'Σ' ∧ smallLetters a = [a] := fun a ha => by
    simpa using List.all_eq_true.mp hall a ha
  have hlower := lowercaseAfter_suffix_append [] front ("nested".toList ++ rear)
  rw [lowercaseAfter_append_of_small _ rear hsmall, ← List.append_assoc front, hkey] at hlower
  have hfound : occursIn "nested" (lowercase key) = true := by
    have hchars : (lowercase key).toList = lowercaseAfter [] key.toList := String.toList_ofList
    rw [occursIn, occursInChars_eq_true_iff, hchars]
    exact (List.prefix_append _ _).isInfix.trans hlower.isInfix
  rw [Vocabulary.standard_spellings_nested k hk _ hspelling] at hfound
  cases hfound

theorem ne_or_of_lookup? {key : String} {k : Key}
    (h : Vocabulary.standard.lookupIgnoringCase? key = some k) : key ≠ "or" := by
  rintro rfl
  obtain ⟨hk, hspelling⟩ := Vocabulary.lookup?_eq_some_iff.mp h
  have hlower : lowercase "or" = "or" := by decide
  exact Vocabulary.standard_or k hk (hlower ▸ hspelling)

section Quoted

variable {a : Advice} {key : String} {cs : List Char}

/-- Between single quotes, the word `or` between its quotes is all there is. -/
theorem infix_quoted_iff (h : '\'' ∉ cs) :
    ['\'', 'o', 'r', '\''] <:+: '\'' :: (cs ++ ['\'']) ↔ cs = ['o', 'r'] := by
  constructor
  · rintro ⟨front, rear, heq⟩
    cases front with
    | nil =>
      have hcut : cutAtMark? '\'' (cs ++ ['\'']) = some (cs, []) := cutAtMark?_append h
      have hcut' : cutAtMark? '\'' (['o', 'r'] ++ '\'' :: rear) = some (['o', 'r'], rear) :=
        cutAtMark?_append (by decide)
      rw [← (List.cons.inj heq).2] at hcut
      exact (Prod.mk.inj (Option.some.inj (hcut.symm.trans hcut'))).1
    | cons c front =>
      -- then a third single quote would stand there
      have hcount := congrArg (List.count '\'') (List.cons.inj heq).2
      simp [List.count_eq_zero.mpr h] at hcount
      omega
  · rintro rfl
    exact List.infix_refl _

/-- A word holds none of the words of an advice, but for those that are a word. -/
theorem occursIn_word (hkey : ∀ c ∈ key.toList, isWordChar c = true) (ha : a ≠ .joinGroups) :
    occursIn a.words key = false := by
  by_contra hoccurs
  rw [Bool.not_eq_false, occursIn, occursInChars_eq_true_iff] at hoccurs
  have hmark : ∃ d ∈ a.words.toList, isWordChar d = false := by
    cases a with
    | joinGroups => exact absurd rfl ha
    | fillSides => exact ⟨'\'', by decide, by decide⟩
    | closeQuote | closeRegex | listKeys => exact ⟨' ', by decide, by decide⟩
  obtain ⟨d, hd, hnot⟩ := hmark
  rw [hkey d (hoccurs.subset hd)] at hnot
  cases hnot

theorem occursIn_or_quoted (hquote : '\'' ∉ key.toList) :
    occursIn Advice.fillSides.words ("'" ++ key ++ "'") = (key == "or") := by
  have hchars : ("'" ++ key ++ "'").toList = '\'' :: (key.toList ++ ['\'']) := by simp
  rw [Bool.eq_iff_iff, occursIn, occursInChars_eq_true_iff, hchars, beq_iff_eq, ← String.toList_inj]
  exact infix_quoted_iff hquote

theorem quote_not_mem_of_word (hkey : ∀ c ∈ key.toList, isWordChar c = true) :
    '\'' ∉ key.toList := by
  intro hmem
  have hword := hkey _ hmem
  cases hword

/-- **What a quoted word holds**: the word `or` is quoted, or a word that holds `nested`. -/
theorem occursIn_quoted_word (hkey : ∀ c ∈ key.toList, isWordChar c = true) :
    occursIn a.words ("'" ++ key ++ "'") =
      ((a == .joinGroups && occursIn "nested" key) || (a == .fillSides && key == "or")) := by
  have hword := occursIn_word (a := a) hkey
  cases a with
  | fillSides => exact occursIn_or_quoted (quote_not_mem_of_word hkey)
  | joinGroups =>
    refine (occursIn_framed (by decide) (by decide)).trans ?_
    simp
  | closeQuote | closeRegex | listKeys =>
    exact (occursIn_framed (by decide) (by decide)).trans (hword (by decide))

/-- A known key holds none of the words of an advice, nor does its message quote the word `or`. -/
theorem occursIn_known_key {k : Key}
    (hlookup : Vocabulary.standard.lookupIgnoringCase? key = some k)
    (hkey : ∀ c ∈ key.toList, isWordChar c = true) :
    occursIn a.words ("'" ++ key ++ "'") = false := by
  rw [occursIn_quoted_word hkey, occursIn_nested_of_lookup? hlookup]
  simp [ne_or_of_lookup? hlookup]

end Quoted

/-! ### Words in a message -/

theorem Token.Splits.isWord_of_mem {position : Nat} {cs : List Char} {ts : List Token} {t : Token}
    {w : String} (h : Splits position cs ts) (ht : t ∈ ts) (hkind : t.kind = .word w) :
    IsWord w.toList := by
  obtain ⟨-, word, -, -, -, hword, -⟩ := h.exists_written ht
  rw [hkind] at hword
  cases hword with
  | word hword => rwa [String.toList_ofList]

section Messages

variable {a : Advice} {ts : List Token} {key : String}

theorem Advice.occursIn_words_empty (a : Advice) : occursIn a.words "" = false := by
  cases a <;> exact occursIn_ofList.trans rfl

/-- **Whether the words of an advice are in the message of a lexical fault**: if it is the advice
that belongs to the fault. -/
theorem occursIn_lexical_message (a : Advice) (fault : LexFault) :
    occursIn a.words fault.message = decide ((SyntaxFault.lexical fault).advice? = some a) := by
  cases fault with
  | unexpectedCharacter c =>
    have hmessage : (LexFault.unexpectedCharacter c).message =
        "unexpected character " ++ ("'" ++ String.singleton c ++ "'") := by
      change "unexpected character '" ++ String.singleton c ++ "'" = _
      exact String.toList_inj.mp (by simp)
    rw [hmessage]
    have hnone : occursIn a.words ("'" ++ String.singleton c ++ "'") = false := by
      by_contra hoccurs
      rw [Bool.not_eq_false, occursIn, occursInChars_eq_true_iff] at hoccurs
      -- three characters are too few
      have hlength := hoccurs.length_le
      cases a <;> simp [Advice.words] at hlength
    cases a <;> exact (occursIn_append_of_misses (by decide)).trans hnone
  | _ => cases a <;> exact occursIn_ofList.trans (by decide)

/-- Nothing of the kind is in the description of a token that is no value. -/
theorem occursIn_describe {t : Token} (ht : t.value? = none) :
    occursIn a.words (GrammarFault.notAFilter t.kind.describe).message = false ∧
      occursIn a.words (GrammarFault.notAName t.kind.describe).message = false := by
  have hnone : occursIn a.words t.kind.describe = false := by
    obtain ⟨kind, start⟩ := t
    dsimp only
    cases kind with
    | quoted | regex | word => cases ht
    | group | minus | bang => cases a <;> exact occursIn_ofList.trans (by decide)
    | comparison c =>
      have hdescribe : (TokenKind.comparison c).describe =
          String.ofList (['\''] ++ c.chars ++ ['\'']) := by
        change "'" ++ String.ofList c.chars ++ "'" = _
        exact String.toList_inj.mp (by simp)
      rw [hdescribe]
      cases a <;> exact occursIn_ofList.trans (by cases c <;> decide)
  constructor <;>
    cases a <;> exact (occursIn_append_of_misses (by decide)).trans hnone

theorem occursIn_refusedComparison {k : Key} (c : Comparison)
    (hlookup : Vocabulary.standard.lookupIgnoringCase? key = some k)
    (hkey : ∀ c ∈ key.toList, isWordChar c = true) :
    occursIn a.words (GrammarFault.refusedComparison key c).message = false := by
  have hmessage : (GrammarFault.refusedComparison key c).message =
      "filter key " ++ ("'" ++ key ++ "'" ++ " does not accept") ++
        String.ofList ([' ', '\''] ++ c.chars ++ ['\'']) := by
    change "filter key '" ++ key ++ "' does not accept '" ++ String.ofList c.chars ++ "'" = _
    exact String.toList_inj.mp (by simp)
  have hnone := occursIn_known_key (a := a) hlookup hkey
  rw [hmessage]
  cases a <;>
    exact (occursIn_framed (by decide) (by cases c <;> decide)).trans
      ((occursIn_append_of_misses_reverse (by decide)).trans hnone)

theorem occursIn_missingValue {k : Key} (c : Comparison)
    (hlookup : Vocabulary.standard.lookupIgnoringCase? key = some k)
    (hkey : ∀ c ∈ key.toList, isWordChar c = true) :
    occursIn a.words (GrammarFault.missingValue key c).message = false := by
  have hmessage : (GrammarFault.missingValue key c).message =
      "expected a value after " ++ ("'" ++ (key ++ c.symbol) ++ "'") := by
    change "expected a value after '" ++ key ++ c.symbol ++ "'" = _
    exact String.toList_inj.mp (by simp)
  rw [hmessage]
  have hquoted : occursIn a.words ("'" ++ (key ++ c.symbol) ++ "'") = false := by
    have hword := occursIn_word (a := a) hkey
    -- only the words of the last advice begin and end with a quote
    cases a with
    | fillSides =>
      have hquote : '\'' ∉ (key ++ c.symbol).toList := by
        rw [String.toList_append, List.mem_append, not_or]
        exact ⟨quote_not_mem_of_word hkey, by cases c <;> decide⟩
      rw [occursIn_or_quoted hquote]
      refine beq_false_of_ne fun heq => ?_
      have hlast := congrArg (fun s => s.toList.getLast?) heq
      cases c <;> simp [Comparison.symbol, Comparison.chars] at hlast
    | joinGroups =>
      exact (occursIn_framed (by decide) (by decide)).trans
        ((occursIn_append_of_misses_reverse (by cases c <;> decide)).trans
          (occursIn_nested_of_lookup? hlookup))
    | closeQuote | closeRegex | listKeys =>
      exact (occursIn_framed (by decide) (by decide)).trans
        ((occursIn_append_of_misses_reverse (by cases c <;> decide)).trans (hword (by decide)))
  cases a <;> exact (occursIn_append_of_misses (by decide)).trans hquoted

/-- **Whether the words of an advice are in the message of a fault of the grammar**: if it is the
advice that belongs to the fault, or if they are in what is quoted. -/
theorem occursIn_grammatical_message {fault : GrammarFault} (a : Advice)
    (h : fault.Tells .standard ts)
    (hts : ∀ t ∈ ts, ∀ w, t.kind = .word w → ∀ c ∈ w.toList, isWordChar c = true) :
    occursIn a.words fault.message =
      (decide ((SyntaxFault.grammatical fault).advice? = some a) ||
        occursIn a.words (SyntaxFault.grammatical fault).quotation) := by
  cases fault with
  | trailing found =>
    have hframed : occursIn a.words (GrammarFault.trailing found).message =
        occursIn a.words found := by
      cases a <;> exact occursIn_framed (by decide) (by decide)
    rw [hframed]
    by_cases hor : found = "'or'"
    · subst hor
      cases a <;> exact occursIn_ofList.trans (by decide)
    · simp [SyntaxFault.advice?, SyntaxFault.quotation, hor]
  | notAFilter found =>
    obtain ⟨t, -, rfl, ht⟩ := h
    rw [(occursIn_describe ht).1]
    exact a.occursIn_words_empty.symm
  | notAName found =>
    obtain ⟨t, -, rfl, ht⟩ := h
    rw [(occursIn_describe ht).2]
    exact a.occursIn_words_empty.symm
  | markedKey key =>
    have hmessage : (GrammarFault.markedKey key).message =
        "'!' cannot be used with the filter key " ++ ("'" ++ key ++ "'") := by
      change "'!' cannot be used with the filter key '" ++ key ++ "'" = _
      exact String.toList_inj.mp (by simp)
    rw [hmessage]
    cases a <;> exact occursIn_append_of_misses (by decide)
  | unknownKey key =>
    have hmessage : (GrammarFault.unknownKey key).message =
        "unknown filter key " ++ ("'" ++ key ++ "'") := by
      change "unknown filter key '" ++ key ++ "'" = _
      exact String.toList_inj.mp (by simp)
    rw [hmessage]
    cases a with
    | listKeys =>
      rw [occursIn, occursInChars_eq_true_iff.mpr]
      · rfl
      · exact ⟨[], (" '" ++ key ++ "'").toList, by simp [Advice.words]⟩
    | closeQuote | closeRegex | joinGroups | fillSides =>
      exact occursIn_append_of_misses (by decide)
  | refusedComparison key c =>
    obtain ⟨⟨t, ht, hkind⟩, k, hlookup⟩ := h
    rw [occursIn_refusedComparison c hlookup (hts t ht key hkind)]
    exact a.occursIn_words_empty.symm
  | missingValue key c =>
    obtain ⟨⟨t, ht, hkind⟩, k, hlookup⟩ := h
    rw [occursIn_missingValue c hlookup (hts t ht key hkind)]
    exact a.occursIn_words_empty.symm
  | _ => cases a <;> exact occursIn_ofList.trans (by decide)

/-- **Whether the words of an advice are in a message.** -/
theorem Filter.Cause.occursIn_message {e : SyntaxError} (h : Cause .standard e) (a : Advice) :
    occursIn a.words e.fault.message =
      (decide (e.fault.advice? = some a) || occursIn a.words e.fault.quotation) := by
  cases h with
  | lexical e =>
    change occursIn a.words e.fault.message =
      (decide ((SyntaxFault.lexical e.fault).advice? = some a) || occursIn a.words "")
    rw [occursIn_lexical_message, a.occursIn_words_empty, Bool.or_false]
  | grammatical hsplits hreports =>
    obtain ⟨position, htells⟩ := hreports
    exact occursIn_grammatical_message a htells fun t ht w hkind =>
      (hsplits.isWord_of_mem ht hkind).2

end Messages

/-! ### The advice that is given -/

/-- **Which advice goes with an error.** -/
structure QueryError.IsAdvised (e : QueryError) : Prop where
  /-- It is the first that belongs to the cause, or has its words in what the message quotes. -/
  hint_eq : e.hint = (Advice.all.find? fun a => decide (e.cause.fault.advice? = some a) ||
    occursIn a.words e.cause.fault.quotation).map Advice.text
  /-- It is the one that belongs to the cause, if the words of no other are quoted. -/
  hint_eq_of_quotation : (∀ a, occursIn a.words e.cause.fault.quotation = true →
    e.cause.fault.advice? = some a) → e.hint = e.cause.fault.advice?.map Advice.text
  /-- Nothing is quoted but a token after the filter and a key that is not known or has a mark. The
  key is a word, and the words of an advice in it are `nested`, or all of it is the word `or`. -/
  quotation_cases : e.cause.fault.quotation = "" ∨
    (∃ kind : TokenKind, e.cause.fault = .grammatical (.trailing kind.describe)) ∨
    ∃ key, (e.cause.fault = .grammatical (.unknownKey key) ∨
        e.cause.fault = .grammatical (.markedKey key)) ∧ IsWord key.toList ∧
      ∀ a : Advice, occursIn a.words e.cause.fault.quotation =
        ((a == .joinGroups && occursIn "nested" key) || (a == .fillSides && key == "or"))

namespace Filter

variable {e : SyntaxError}

theorem Cause.quotation_cases (h : Cause .standard e) : e.fault.quotation = "" ∨
    (∃ kind : TokenKind, e.fault = .grammatical (.trailing kind.describe)) ∨
    ∃ key, (e.fault = .grammatical (.unknownKey key) ∨ e.fault = .grammatical (.markedKey key)) ∧
      IsWord key.toList ∧ ∀ a : Advice, occursIn a.words e.fault.quotation =
        ((a == .joinGroups && occursIn "nested" key) || (a == .fillSides && key == "or")) := by
  cases h with
  | lexical e => exact .inl rfl
  | grammatical hsplits hreports =>
    obtain ⟨position, htells⟩ := hreports
    rename_i fault
    cases fault with
    | trailing found =>
      obtain ⟨t, -, rfl⟩ := htells
      exact .inr (.inl ⟨t.kind, rfl⟩)
    | unknownKey key =>
      obtain ⟨⟨t, ht, hkind⟩, -⟩ := htells
      have hword := hsplits.isWord_of_mem ht hkind
      exact .inr (.inr ⟨key, .inl rfl, hword, fun a => occursIn_quoted_word hword.2⟩)
    | markedKey key =>
      obtain ⟨t, ht, hkind⟩ := htells
      have hword := hsplits.isWord_of_mem ht hkind
      exact .inr (.inr ⟨key, .inr rfl, hword, fun a => occursIn_quoted_word hword.2⟩)
    | _ => exact .inl rfl

/-- The first advice that is the given one, or that passes a test which only the given one can
pass. -/
theorem find?_advice {given : Option Advice} {test : Advice → Bool}
    (h : ∀ a, test a = true → given = some a) :
    (Advice.all.find? fun a => decide (given = some a) || test a) = given := by
  have htest : ∀ a, (decide (given = some a) || test a) = decide (given = some a) := by
    intro a
    by_cases ha : given = some a
    · simp [ha]
    · simp [ha, mt (h a) ha]
  simp only [htest]
  cases given with
  | none => rfl
  | some a => cases a <;> decide

/-- **The advice for a text that is no filter.** -/
theorem isAdvised_of_parse {text : String} {e : QueryError} (h : parse text = .error e) :
    e.IsAdvised := by
  have hoccurs : ∀ a : Advice, occursIn a.words e.message =
      (decide (e.cause.fault.advice? = some a) || occursIn a.words e.cause.fault.quotation) := by
    intro a
    rcases parseWith_eq_error_cases h with ⟨-, hcause⟩ | ⟨-, hcause⟩
    · rw [QueryError.message, hcause]
      cases a <;> exact occursIn_ofList.trans (by decide)
    · exact hcause.occursIn_message a
  have hhint := e.hint_eq_find?
  simp only [hoccurs] at hhint
  refine ⟨hhint, fun hquoted => by rw [hhint, find?_advice hquoted], ?_⟩
  rcases parseWith_eq_error_cases h with ⟨-, hcause⟩ | ⟨-, hcause⟩
  · exact .inl (by rw [hcause]; rfl)
  · exact hcause.quotation_cases

/-- A marked key that is the word `or`: the advice is the one whose words are quoted. -/
theorem isAdvised_of_parse_marked_or :
    let e : QueryError := ⟨.parsing, (GrammarFault.markedKey "or").at 0, "!or:x"⟩
    parse "!or:x" = .error e ∧ e.cause.fault.advice? = none ∧
      e.hint = some Advice.fillSides.text ∧ e.IsAdvised := by
  intro e
  have hparse : parse "!or:x" = .error e := by decide +kernel
  exact ⟨hparse, rfl, by decide +kernel, isAdvised_of_parse hparse⟩

/-- **The advice need not fit the cause.** A key that is not known gets the advice on groups, and a
closed quote after a filter the advice to close it. -/
theorem exists_misadvised :
    (∃ e, parse "nested:x" = .error e ∧ e.cause.fault = .grammatical (.unknownKey "nested") ∧
        e.cause.fault.advice? = some .listKeys ∧ e.hint = some Advice.joinGroups.text) ∧
      ∃ e, parse "a \"unclosed quote\"" = .error e ∧
        e.cause.fault = .grammatical (.trailing "quoted text \"unclosed quote\"") ∧
        e.cause.fault.advice? = none ∧ e.hint = some Advice.closeQuote.text := by
  refine ⟨⟨⟨.parsing, (GrammarFault.unknownKey "nested").at 0, "nested:x"⟩, ?_⟩,
    ⟨⟨.parsing, (GrammarFault.trailing "quoted text \"unclosed quote\"").at 2,
      "a \"unclosed quote\""⟩, ?_⟩⟩
  all_goals exact ⟨by decide +kernel, rfl, rfl, by decide +kernel⟩

end Filter

end CardFilter
