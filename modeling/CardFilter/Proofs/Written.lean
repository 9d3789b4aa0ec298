import CardFilter.Draft.Term
import CardFilter.Proofs.Grammar

/-!
# The texts that write a filter

The grammar of `CardFilter.Proofs.Grammar` speaks of tokens. This file carries it over to
characters, so that a text can be compared with the canonical text of a filter and with what is
read while it is being typed:

* `CardFilter.Value.Written` and `CardFilter.Term.Written` give the texts that write a value and a
  term; a term is written without any blanks but those between its quotes;
* `CardFilter.Filter.Written` adds the groups. The text between the parentheses is not taken apart
  any further: it splits into tokens that form the members.

The main statement is `CardFilter.Filter.parse_eq_ok_iff_written`: a text is read as a filter
exactly when it writes the filter once the blanks around it are trimmed.

## From tokens to characters

A run of touching tokens is written without blanks between them. `CardFilter.Joined` is the text of
such a run, with the condition that no token is prolonged by what comes after it; and
`CardFilter.joined_append_iff` takes a run apart at any place, which is how the marks, the key and
the value of a term are found in its text.
-/

namespace CardFilter

/-! ### Texts of runs of tokens -/

/-- **Tokens of the given kinds, written one after the other**, where `after` follows the last. -/
inductive Joined (after : List Char) : List TokenKind → List Char → Prop
  /-- No tokens. -/
  | nil : Joined after [] []
  /-- A token and those after it. -/
  | cons {k : TokenKind} {ks : List TokenKind} {word cs : List Char} :
    k.Written word → k.EndsBefore (cs ++ after) → Joined after ks cs →
    Joined after (k :: ks) (word ++ cs)

section Joined

variable {after cs : List Char} {k : TokenKind} {ks ls : List TokenKind}

theorem joined_nil_iff : Joined after [] cs ↔ cs = [] := by
  refine ⟨fun h => ?_, fun h => h ▸ .nil⟩
  cases h
  rfl

theorem joined_cons_iff :
    Joined after (k :: ks) cs ↔
      ∃ word rest, cs = word ++ rest ∧ k.Written word ∧ k.EndsBefore (rest ++ after) ∧
        Joined after ks rest := by
  constructor
  · intro h
    cases h with
    | cons hk hend hrest => exact ⟨_, _, rfl, hk, hend, hrest⟩
  · rintro ⟨word, rest, rfl, hk, hend, hrest⟩
    exact .cons hk hend hrest

theorem joined_singleton_iff : Joined after [k] cs ↔ k.Written cs ∧ k.EndsBefore after := by
  rw [joined_cons_iff]
  constructor
  · rintro ⟨word, rest, rfl, hk, hend, hrest⟩
    rw [joined_nil_iff] at hrest
    subst hrest
    exact ⟨by rwa [List.append_nil], hend⟩
  · rintro ⟨hk, hend⟩
    exact ⟨cs, [], by rw [List.append_nil], hk, hend, .nil⟩

/-- **A run of tokens can be taken apart** at any place. -/
theorem joined_append_iff :
    Joined after (ks ++ ls) cs ↔
      ∃ front back, cs = front ++ back ∧ Joined (back ++ after) ks front ∧
        Joined after ls back := by
  induction ks generalizing cs with
  | nil =>
    constructor
    · exact fun h => ⟨[], cs, rfl, .nil, h⟩
    · rintro ⟨front, back, rfl, hfront, hback⟩
      rw [joined_nil_iff] at hfront
      rwa [hfront]
  | cons k ks ih =>
    rw [List.cons_append, joined_cons_iff]
    constructor
    · rintro ⟨word, rest, rfl, hk, hend, hrest⟩
      obtain ⟨front, back, rfl, hfront, hback⟩ := ih.mp hrest
      rw [List.append_assoc] at hend
      exact ⟨word ++ front, back, by rw [List.append_assoc], .cons hk hend hfront, hback⟩
    · rintro ⟨front, back, rfl, hfront, hback⟩
      obtain ⟨word, rest, rfl, hk, hend, hrest⟩ := joined_cons_iff.mp hfront
      rw [← List.append_assoc] at hend
      exact ⟨word, rest ++ back, by rw [List.append_assoc], hk, hend,
        ih.mpr ⟨rest, back, rfl, hrest, hback⟩⟩

end Joined

/-- **A run of touching tokens at the start of a text** is what the text begins with. -/
theorem splits_placed_iff {position : Nat} {cs : List Char} {ks : List TokenKind}
    {ts : List Token} :
    Token.Splits position cs (Grammar.placed position ks ++ ts) ↔
      ∃ word after, cs = word ++ after ∧ Joined after ks word ∧
        Token.Splits (position + byteLength word) after ts := by
  induction ks generalizing position cs with
  | nil =>
    constructor
    · exact fun h => ⟨[], cs, rfl, .nil, h⟩
    · rintro ⟨word, after, rfl, hword, h⟩
      rw [joined_nil_iff] at hword
      subst hword
      exact h
  | cons k ks ih =>
    rw [Grammar.placed_cons, List.cons_append, Token.Splits.cons_iff]
    constructor
    · rintro ⟨word, after, rfl, hk, hend, h⟩
      rw [hk.width_eq, ih] at h
      obtain ⟨rest, after, rfl, hrest, h⟩ := h
      refine ⟨word ++ rest, after, by rw [List.append_assoc], .cons hk hend hrest, ?_⟩
      rwa [byteLength_append, ← Nat.add_assoc]
    · rintro ⟨words, after, rfl, hwords, h⟩
      obtain ⟨word, rest, rfl, hk, hend, hrest⟩ := joined_cons_iff.mp hwords
      refine ⟨word, rest ++ after, by rw [List.append_assoc], hk, hend, ?_⟩
      rw [byteLength_append, ← Nat.add_assoc] at h
      rw [hk.width_eq, ih]
      exact ⟨rest, after, rfl, hrest, h⟩

/-- A run of touching tokens somewhere in a text, with the blanks before it. -/
theorem splits_run_iff {position start : Nat} {cs : List Char} {ks : List TokenKind}
    {ts : List Token} (hks : ks ≠ []) :
    Token.Splits position cs (Grammar.placed start ks ++ ts) ↔
      ∃ lead word after, cs = lead ++ (word ++ after) ∧ Blanks lead ∧
        start = position + byteLength lead ∧ Joined after ks word ∧
        Token.Splits (start + byteLength word) after ts := by
  constructor
  · intro h
    obtain ⟨k, ls, rfl⟩ := List.exists_cons_of_ne_nil hks
    obtain ⟨lead, rest, rfl, hlead, hstart, hrest⟩ := h.exists_blanks
    change Token.Splits start rest (Grammar.placed start (k :: ls) ++ ts) at hrest
    obtain ⟨word, after, rfl, hword, hafter⟩ := splits_placed_iff.mp hrest
    exact ⟨lead, word, after, rfl, hlead, hstart, hword, hafter⟩
  · rintro ⟨lead, word, after, rfl, hlead, rfl, hword, hafter⟩
    exact .append_blanks hlead (splits_placed_iff.mpr ⟨word, after, rfl, hword, hafter⟩)

/-! ### The marks before a term -/

/-- The mark of an exact name. -/
def literalChars (literal : Bool) : List Char :=
  if literal then ['!'] else []

section Marks

variable {after cs : List Char}

/-- No word goes on with the symbol of a comparison. -/
theorem Comparison.isWordChar_of_mem_head? (c : Comparison) :
    ∀ d ∈ (c.chars ++ cs).head?, isWordChar d = false := by
  intro d hd
  cases c <;> cases hd <;> decide

theorem joined_minusKinds_iff {negated : Bool} :
    Joined after (Grammar.minusKinds negated) cs ↔ cs = negationChars negated := by
  cases negated with
  | false => exact joined_nil_iff
  | true =>
    rw [Grammar.minusKinds_true, joined_singleton_iff]
    constructor
    · rintro ⟨h, -⟩
      cases h
      rfl
    · rintro rfl
      exact ⟨.minus, fun d _ => rfl⟩

theorem joined_bangKinds_iff {literal : Bool} :
    Joined after (Grammar.bangKinds literal) cs ↔
      cs = literalChars literal ∧ (literal = true → ∀ d ∈ after.head?, d ≠ '=') := by
  cases literal with
  | false => simp [joined_nil_iff, literalChars]
  | true =>
    rw [Grammar.bangKinds_true, joined_singleton_iff]
    constructor
    · rintro ⟨h, hend⟩
      cases h
      exact ⟨rfl, fun _ d hd => by simpa [TokenKind.isProlongedBy] using hend d hd⟩
    · rintro ⟨rfl, hend⟩
      exact ⟨.bang, fun d hd => by simpa [TokenKind.isProlongedBy] using hend rfl d hd⟩

end Marks

/-! ### The texts of a value -/

/-- **The texts that write a value.** -/
inductive Value.Written : Value → List Char → Prop
  /-- A word writes itself. -/
  | word {cs : List Char} : IsWord cs → Written (.text (String.ofList cs)) cs
  /-- A quoted text does not hold its own quote. -/
  | enclosed {q : Quote} {cs : List Char} : q.mark ∉ cs →
    Written (Draft.Text.quotedValue q (String.ofList cs)) (q.enclose cs)

section Value

open Grammar

variable {k : TokenKind} {value : Value} {cs after : List Char}

/-- **A value is written as the tokens that stand for it.** -/
theorem Value.written_iff_exists :
    value.Written cs ↔ ∃ k, WritesValue k value ∧ k.Written cs := by
  constructor
  · rintro (hword | hbody)
    · exact ⟨.word _, .word _, .word hword⟩
    · rename_i q cs
      cases q with
      | double => exact ⟨.quoted _, .quoted _, .quoted (by decide) hbody⟩
      | single => exact ⟨.quoted _, .quoted _, .quoted (by decide) hbody⟩
      | regex => exact ⟨.regex _, .regex _, .regex hbody⟩
  · rintro ⟨k, hvalue, hk⟩
    cases hvalue with
    | word => cases hk with | word hword => exact .word hword
    | regex => cases hk with | regex hbody => exact .enclosed hbody
    | quoted =>
      cases hk with
      | @quoted q cs hq hbody =>
        have hquoted := Value.Written.enclosed hbody
        cases q with
        | double | single => exact hquoted
        | regex => exact absurd rfl hq

/-- The text begins as a value does: with a quote, unless it is a word to its end. -/
def BeginsValue (cs : List Char) : Prop :=
  IsWord cs ∨ ∃ (q : Quote) (rest : List Char), cs = q.mark :: rest

theorem Value.Written.beginsValue (h : value.Written cs) : BeginsValue cs := by
  cases h with
  | word hword => exact .inl hword
  | @enclosed q cs => exact .inr ⟨q, _, rfl⟩

theorem BeginsValue.ne_nil (h : BeginsValue cs) : cs ≠ [] := by
  rcases h with hword | ⟨q, rest, rfl⟩
  · exact hword.1
  · exact List.cons_ne_nil _ _

/-- A value does not begin with a given mark, which is neither a letter nor a quote. -/
theorem BeginsValue.ne_of_mem_head? {d : Char} (h : BeginsValue cs) (hd : isWordChar d = false)
    (hquote : Quote.ofChar? d = none) : ∀ c ∈ cs.head?, c ≠ d := by
  rintro c hc rfl
  rcases h with hword | ⟨q, rest, rfl⟩
  · rw [hword.2 c (List.mem_of_head? hc)] at hd
    cases hd
  · cases hc
    rw [Quote.ofChar?_mark] at hquote
    cases hquote

/-- A value token ends where no word goes on. -/
theorem endsBefore_of_writesValue (h : WritesValue k value)
    (hafter : ∀ d ∈ after.head?, isWordChar d = false) : k.EndsBefore after := by
  cases h with
  | word => exact hafter
  | quoted | regex => exact fun d _ => rfl

theorem isOrWord_enclose (q : Quote) (cs : List Char) :
    Value.isOrWord (String.ofList (q.enclose cs)) = false := by
  cases q <;> simp [Value.isOrWord, sameAsciiIgnoringCase, asciiLower, Quote.enclose, Quote.mark]

/-- Among the values only the word `or` is written with these letters. -/
theorem isOr_iff_of_written (hvalue : WritesValue k value) (hk : k.Written cs) :
    IsOr k ↔ Value.isOrWord (String.ofList cs) = true := by
  cases hvalue with
  | word =>
    cases hk
    simp [IsOr]
  | quoted | regex =>
    cases hk
    simp [IsOr, isOrWord_enclose]

end Value

/-! ### The texts of a term -/

/-- **The texts that write a term**: its mark, its key and comparison, and its value, with nothing
between them. -/
inductive Term.Written : Term → List Char → Prop
  /-- A name; only after the mark `!` is it the word `or`. -/
  | name {negated literal : Bool} {value : Value} {cs : List Char} :
    value.Written cs → (literal = false → Value.isOrWord (String.ofList cs) = false) →
    Written (.name negated literal value) (negationChars negated ++ (literalChars literal ++ cs))
  /-- A key in any case, a comparison that it accepts, and a value. -/
  | keyed {negated : Bool} {key : List Char} {c : Comparison} {value : Value} {cs : List Char} :
    IsWord key → Vocabulary.standard.Accepts (lowercase (String.ofList key)) c →
    value.Written cs →
    Written (.keyed negated (lowercase (String.ofList key)) c value)
      (negationChars negated ++ (key ++ (c.chars ++ cs)))

/-- **The marks and the key of a term around a value**: the text of the value becomes that of the
term which has the value. -/
inductive Framed (cs : List Char) : (Value → Term) → List Char → Prop
  /-- A name has its marks before it. -/
  | name {negated literal : Bool} :
    Framed cs (.name negated literal ·) (negationChars negated ++ (literalChars literal ++ cs))
  /-- A keyed term has its mark, its key and its comparison before the value. -/
  | keyed {negated : Bool} {key : List Char} {c : Comparison} :
    IsWord key → Vocabulary.standard.Accepts (lowercase (String.ofList key)) c →
    Framed cs (.keyed negated (lowercase (String.ofList key)) c ·)
      (negationChars negated ++ (key ++ (c.chars ++ cs)))

section Term

open Grammar

variable {ks : List TokenKind} {t : Term} {word after : List Char}

theorem Term.Written.exists_framed (h : t.Written word) :
    ∃ term value cs, t = term value ∧ value.Written cs ∧ Framed cs term word := by
  cases h with
  | name hvalue => exact ⟨_, _, _, rfl, hvalue, .name⟩
  | keyed hkey haccepts hvalue => exact ⟨_, _, _, rfl, hvalue, .keyed hkey haccepts⟩

/-- What is written around a value writes the term that has it; the word `or` is no value here. -/
theorem Framed.written {term : Value → Term} {value : Value} {cs : List Char}
    (h : Framed cs term word) (hvalue : value.Written cs)
    (hor : Value.isOrWord (String.ofList cs) = false) : (term value).Written word := by
  cases h with
  | name => exact .name hvalue fun _ => hor
  | keyed hkey haccepts => exact .keyed hkey haccepts hvalue

theorem Term.written_of_joined (hkinds : TermKinds .standard ks t)
    (hword : Joined after ks word) : t.Written word := by
  cases hkinds with
  | name hvalue hor =>
    obtain ⟨front, back, rfl, hfront, hback⟩ := joined_append_iff.mp hword
    obtain rfl := joined_minusKinds_iff.mp hfront
    obtain ⟨front, cs, rfl, hfront, hcs⟩ := joined_append_iff.mp hback
    obtain ⟨rfl, -⟩ := joined_bangKinds_iff.mp hfront
    obtain ⟨hk, -⟩ := joined_singleton_iff.mp hcs
    refine .name (Value.written_iff_exists.mpr ⟨_, hvalue, hk⟩) fun hliteral => ?_
    rw [Bool.eq_false_iff, Ne, ← isOr_iff_of_written hvalue hk]
    exact hor hliteral
  | keyed haccepts hvalue =>
    obtain ⟨front, back, rfl, hfront, hback⟩ := joined_append_iff.mp hword
    obtain rfl := joined_minusKinds_iff.mp hfront
    obtain ⟨key, rest, rfl, hkey, -, hrest⟩ := joined_cons_iff.mp hback
    obtain ⟨symbol, cs, rfl, hsymbol, -, hcs⟩ := joined_cons_iff.mp hrest
    obtain ⟨hk, -⟩ := joined_singleton_iff.mp hcs
    cases hkey with | word hkey =>
    cases hsymbol
    exact .keyed hkey haccepts (Value.written_iff_exists.mpr ⟨_, hvalue, hk⟩)

/-- **What writes a term is a run of its tokens**, where no word goes on after it. -/
theorem Term.Written.exists_joined (h : t.Written word)
    (hafter : ∀ d ∈ after.head?, isWordChar d = false) :
    ∃ ks, TermKinds .standard ks t ∧ Joined after ks word := by
  cases h with
  | @name negated literal value cs hvalue hor =>
    obtain ⟨k, hk, hcs⟩ := Value.written_iff_exists.mp hvalue
    have hname : literal = false → ¬IsOr k := fun hliteral => by
      rw [isOr_iff_of_written hk hcs, hor hliteral]
      exact Bool.false_ne_true
    -- no value begins with the `=` that would prolong the mark `!`
    refine ⟨_, .name hk hname, joined_append_iff.mpr ⟨_, _, rfl, joined_minusKinds_iff.mpr rfl,
      joined_append_iff.mpr ⟨_, cs, rfl, joined_bangKinds_iff.mpr ⟨rfl, fun _ => ?_⟩,
        joined_singleton_iff.mpr ⟨hcs, endsBefore_of_writesValue hk hafter⟩⟩⟩⟩
    rw [List.head?_append_of_ne_nil _ hvalue.beginsValue.ne_nil]
    exact hvalue.beginsValue.ne_of_mem_head? (by decide) (by decide)
  | @keyed negated key c value cs hkey haccepts hvalue =>
    obtain ⟨k, hk, hcs⟩ := Value.written_iff_exists.mp hvalue
    have hend : (TokenKind.word (String.ofList key)).EndsBefore (c.chars ++ cs ++ after) := by
      rw [List.append_assoc]
      exact c.isWordChar_of_mem_head?
    -- nor with the one that would prolong a comparison
    have hsymbol : (TokenKind.comparison c).EndsBefore (cs ++ after) := by
      intro d hd
      rw [List.head?_append_of_ne_nil _ hvalue.beginsValue.ne_nil] at hd
      have hne : d ≠ '=' := hvalue.beginsValue.ne_of_mem_head? (by decide) (by decide) d hd
      cases c <;> simp [TokenKind.isProlongedBy, Comparison.isProlongedBy, hne]
    exact ⟨_, .keyed haccepts hk, joined_append_iff.mpr ⟨_, _, rfl, joined_minusKinds_iff.mpr rfl,
      .cons (.word hkey) hend (.cons (.comparison c) hsymbol
        (joined_singleton_iff.mpr ⟨hcs, endsBefore_of_writesValue hk hafter⟩))⟩⟩

/-- **The text of a term among others** is what stands after the blanks before it. -/
theorem Term.written_of_splits {position : Nat} {cs : List Char} {us ts : List Token}
    (hterm : IsTerm .standard us t) (h : Token.Splits position cs (us ++ ts)) :
    ∃ lead word after place, cs = lead ++ (word ++ after) ∧ Blanks lead ∧ t.Written word ∧
      Token.Splits place after ts := by
  obtain ⟨start, ks, hkinds, rfl⟩ := isTerm_iff_placed.mp hterm
  obtain ⟨lead, word, after, happend, hlead, -, hword, hafter⟩ :=
    (splits_run_iff hkinds.ne_nil).mp h
  exact ⟨lead, word, after, _, happend, hlead, Term.written_of_joined hkinds hword, hafter⟩

end Term

/-! ### Members elsewhere -/

namespace Grammar

variable {v : Vocabulary} {distance : Nat} {ts : List Token} {t : Term} {ms : List Term}

theorem isTerm_shift_iff : IsTerm v (ts.map (Token.shift distance)) t ↔ IsTerm v ts t := by
  have hkinds : (ts.map (Token.shift distance)).map Token.kind = ts.map Token.kind := by
    rw [List.map_map]
    rfl
  have htouching : Touching (ts.map (Token.shift distance)) ↔ Touching ts := by
    simp [Touching, List.isChain_map]
  exact ⟨fun ⟨h, hk⟩ => ⟨htouching.mp h, hkinds ▸ hk⟩,
    fun ⟨h, hk⟩ => ⟨htouching.mpr h, hkinds.symm ▸ hk⟩⟩

/-- **Whether tokens form the members of a group does not depend on where the group stands.** -/
theorem isMembers_shift_iff :
    IsMembers v (ts.map (Token.shift distance)) ms ↔ IsMembers v ts ms := by
  constructor
  · intro h
    -- the induction is on the members, and each part of the shifted list is taken back
    generalize hus : ts.map (Token.shift distance) = us at h
    induction h generalizing ts with
    | last hterm =>
      subst hus
      exact .last (isTerm_shift_iff.mp hterm)
    | or hterm hseparator _ ih =>
      obtain ⟨front, back, rfl, rfl, hback⟩ := List.map_eq_append_iff.mp hus
      obtain ⟨separator, rest, rfl, rfl, hrest⟩ := List.map_eq_cons_iff.mp hback
      exact .or (isTerm_shift_iff.mp hterm) hseparator (ih hrest)
    | apart hterm hstart _ ih =>
      obtain ⟨front, back, rfl, hfront, hback⟩ := List.map_eq_append_iff.mp hus
      obtain ⟨init, last, rfl, rfl, hlast⟩ := List.map_eq_append_iff.mp hfront
      obtain ⟨final, rfl, rfl⟩ := List.map_eq_singleton_iff.mp hlast
      obtain ⟨next, rest, rfl, rfl, -⟩ := List.map_eq_cons_iff.mp hback
      rw [← hfront] at hterm
      rw [Token.start_shift, Token.stop_shift, Ne, Nat.add_right_cancel_iff] at hstart
      exact .apart (isTerm_shift_iff.mp hterm) hstart (ih hback)
  · intro h
    induction h with
    | last hterm => exact .last (isTerm_shift_iff.mpr hterm)
    | or hterm hseparator _ ih =>
      rw [List.map_append, List.map_cons]
      exact .or (isTerm_shift_iff.mpr hterm) hseparator ih
    | apart hterm hstart _ ih =>
      have hmoved : IsTerm v ((_ ++ [_]).map (Token.shift distance)) _ :=
        isTerm_shift_iff.mpr hterm
      rw [List.map_append, List.map_cons, List.map_append]
      rw [List.map_append] at hmoved
      refine .apart hmoved ?_ ih
      rwa [Token.start_shift, Token.stop_shift, Ne, Nat.add_right_cancel_iff]

end Grammar

/-! ### The texts of a filter -/

/-- The text between the parentheses of a group splits into tokens that form the members. -/
def WritesMembers (ms : List Term) (body : List Char) : Prop :=
  ∃ ts, Token.Splits 0 body ts ∧ Grammar.IsMembers .standard ts ms

/-- Where the text of a group starts does not matter for its members. -/
theorem writesMembers_iff {ms : List Term} {body : List Char} (position : Nat) :
    WritesMembers ms body ↔
      ∃ ts, Token.tokensFrom position body = .ok ts ∧ Grammar.IsMembers .standard ts ms := by
  simp only [Token.tokensFrom_eq_ok_iff]
  rw [← Nat.zero_add position]
  constructor
  · rintro ⟨ts, hts, hms⟩
    exact ⟨_, hts.shift position, Grammar.isMembers_shift_iff.mpr hms⟩
  · rintro ⟨ts, hts, hms⟩
    obtain ⟨us, hus, rfl⟩ := Token.splits_add_iff.mp hts
    exact ⟨us, hus, Grammar.isMembers_shift_iff.mp hms⟩

/-- **The texts that write a filter.** -/
inductive Filter.Written : Filter → List Char → Prop
  /-- A single term. -/
  | term {t : Term} {cs : List Char} : t.Written cs → Written (.term t) cs
  /-- A group. -/
  | group {negated : Bool} {ms : List Term} {body : List Char} :
    GroupBody body → WritesMembers ms body →
    Written (.anyOf negated ms) (negationChars negated ++ '(' :: (body ++ [')']))

theorem joined_group_iff {negated : Bool} {body : String} {after cs : List Char} :
    Joined after (Grammar.minusKinds negated ++ [.group body]) cs ↔
      GroupBody body.toList ∧ cs = negationChars negated ++ '(' :: (body.toList ++ [')']) := by
  rw [joined_append_iff]
  constructor
  · rintro ⟨front, back, rfl, hfront, hback⟩
    obtain rfl := joined_minusKinds_iff.mp hfront
    obtain ⟨hk, -⟩ := joined_singleton_iff.mp hback
    cases hk with | group hbody =>
    rw [String.toList_ofList]
    exact ⟨hbody, rfl⟩
  · rintro ⟨hbody, rfl⟩
    have hk : (TokenKind.group (String.ofList body.toList)).Written _ := .group hbody
    rw [String.ofList_toList] at hk
    exact ⟨_, _, rfl, joined_minusKinds_iff.mpr rfl, joined_singleton_iff.mpr ⟨hk, fun d _ => rfl⟩⟩

/-! ### No blanks at the ends -/

theorem Trimmed.append {front cs : List Char} (hfront : ∀ c ∈ front.head?, isBlank c = false)
    (hcs : cs ≠ []) (h : Trimmed cs) : Trimmed (front ++ cs) := by
  refine ⟨fun c hc => ?_, fun c hc => ?_⟩
  · cases front with
    | nil => exact h.head c hc
    | cons d front => exact hfront c hc
  · rw [List.getLast?_append_of_ne_nil _ hcs] at hc
    exact h.last c hc

theorem isBlank_of_mem_negationChars (negated : Bool) :
    ∀ c ∈ (negationChars negated).head?, isBlank c = false := by
  intro c hc
  cases negated <;> cases hc
  decide

theorem trimmed_of_isWord {cs : List Char} (h : IsWord cs) : Trimmed cs :=
  ⟨fun c hc => isBlank_eq_false_of_isWordChar (h.2 c (List.mem_of_head? hc)),
    fun c hc => isBlank_eq_false_of_isWordChar (h.2 c (List.mem_of_getLast? hc))⟩

theorem trimmed_enclose (q : Quote) (cs : List Char) : Trimmed (q.enclose cs) := by
  refine ⟨fun c hc => ?_, fun c hc => ?_⟩
  · cases hc
    exact q.isBlank_mark
  · rw [Quote.enclose, ← List.cons_append, List.getLast?_concat] at hc
    cases hc
    exact q.isBlank_mark

theorem Value.Written.trimmed {value : Value} {cs : List Char} (h : value.Written cs) :
    Trimmed cs := by
  cases h with
  | word hword => exact trimmed_of_isWord hword
  | enclosed => exact trimmed_enclose _ _

/-- No blanks come with the marks and the key of a term. -/
theorem Framed.trimmed {cs word : List Char} {term : Value → Term} (h : Framed cs term word)
    (hne : cs ≠ []) (hcs : Trimmed cs) : Trimmed word := by
  cases h with
  | @name negated literal =>
    have hbang : ∀ c ∈ (literalChars literal).head?, isBlank c = false := by
      intro c hc
      cases literal <;> cases hc
      decide
    exact .append (isBlank_of_mem_negationChars negated) (by simp [hne]) (.append hbang hne hcs)
  | @keyed negated key c hkey haccepts =>
    have hsymbol : ∀ d ∈ c.chars.head?, isBlank d = false := by
      intro d hd
      cases c <;> cases hd <;> decide
    exact .append (isBlank_of_mem_negationChars negated) (by simp [hne])
      (.append (trimmed_of_isWord hkey).head (by simp [hne]) (.append hsymbol hne hcs))

theorem Term.Written.trimmed {t : Term} {cs : List Char} (h : t.Written cs) : Trimmed cs := by
  obtain ⟨term, value, body, -, hvalue, hframed⟩ := h.exists_framed
  exact hframed.trimmed hvalue.beginsValue.ne_nil hvalue.trimmed

/-- **No text that writes a filter has blanks at its ends.** -/
theorem Filter.Written.trimmed {f : Filter} {cs : List Char} (h : f.Written cs) : Trimmed cs := by
  cases h with
  | term hterm => exact hterm.trimmed
  | @group negated ms body _ _ =>
    refine .append (isBlank_of_mem_negationChars negated) (List.cons_ne_nil _ _)
      ⟨fun c hc => ?_, fun c hc => ?_⟩
    · cases hc
      decide
    · rw [← List.cons_append, List.getLast?_concat] at hc
      cases hc
      decide

/-! ### What is read -/

namespace Filter

open Grammar

variable {f : Filter} {lead cs trail : List Char}

/-- A run of tokens between blanks. -/
theorem splits_between {word : List Char} {ks : List TokenKind} (hks : ks ≠ [])
    (hlead : Blanks lead) (htrail : Blanks trail) (hword : Joined trail ks word) :
    Token.Splits 0 (lead ++ (word ++ trail)) (placed (byteLength lead) ks) := by
  rw [← List.append_nil (placed _ ks), splits_run_iff hks]
  exact ⟨lead, word, trail, rfl, hlead, by rw [Nat.zero_add], hword,
    Token.Splits.nil_iff.mpr htrail⟩

/-- The tokens of a filter's text between blanks form the filter. -/
theorem Written.exists_isFilter (h : f.Written cs) (hlead : Blanks lead)
    (htrail : Blanks trail) :
    ∃ ts, Token.Splits 0 (lead ++ (cs ++ trail)) ts ∧ IsFilter .standard ts f := by
  cases h with
  | term hterm =>
    -- a word ends at the blanks as well as at the end of the text
    have hend : ∀ d ∈ trail.head?, isWordChar d = false := fun d hd =>
      isWordChar_eq_false_of_isBlank (htrail d (List.mem_of_head? hd))
    obtain ⟨ks, hkinds, hword⟩ := hterm.exists_joined hend
    exact ⟨_, splits_between hkinds.ne_nil hlead htrail hword,
      .term (isTerm_iff_placed.mpr ⟨_, ks, hkinds, rfl⟩)⟩
  | @group negated ms body hbody hms =>
    have hword : Joined trail (minusKinds negated ++ [.group (String.ofList body)])
        (negationChars negated ++ '(' :: (body ++ [')'])) := by
      rw [joined_group_iff, String.toList_ofList]
      exact ⟨hbody, rfl⟩
    obtain ⟨inner, hinner, hmembers⟩ :=
      (writesMembers_iff (byteLength lead + widthOf (minusKinds negated) + 1)).mp hms
    refine ⟨_, splits_between (by simp) hlead htrail hword,
      isFilter_anyOf_iff.mpr ⟨_, String.ofList body, inner, rfl, ?_, hmembers⟩⟩
    rwa [String.toList_ofList]

/-- What forms a filter is its text between blanks. -/
theorem written_of_isFilter {ts : List Token} (hfilter : IsFilter .standard ts f)
    (h : Token.Splits 0 cs ts) : f.Written (trimChars cs) := by
  rw [← List.append_nil ts] at h
  cases f with
  | term t =>
    obtain ⟨lead, word, trail, place, rfl, hlead, hword, htrail⟩ :=
      Term.written_of_splits (isFilter_term_iff.mp hfilter) h
    rw [trimChars_append hlead (Token.Splits.nil_iff.mp htrail) hword.trimmed]
    exact .term hword
  | anyOf negated ms =>
    obtain ⟨start, body, inner, rfl, hinner, hmembers⟩ := isFilter_anyOf_iff.mp hfilter
    obtain ⟨lead, word, trail, rfl, hlead, -, hjoined, htrail⟩ := (splits_run_iff (by simp)).mp h
    obtain ⟨hbody, rfl⟩ := joined_group_iff.mp hjoined
    have hwritten : (anyOf negated ms).Written _ :=
      .group hbody ((writesMembers_iff _).mpr ⟨inner, hinner, hmembers⟩)
    rw [trimChars_append hlead (Token.Splits.nil_iff.mp htrail) hwritten.trimmed]
    exact hwritten

/-- **A text is read as a filter** exactly when, trimmed, it writes the filter. -/
theorem parse_eq_ok_iff_written {text : String} :
    parse text = .ok f ↔ f.Written (trimChars text.toList) := by
  have htokens : ∀ ts, ofTokens .standard ts = .ok f ↔ IsFilter .standard ts f := fun ts =>
    ofTokens_eq_ok_iff fun w c hw => Vocabulary.not_accepts_of_isOrWord hw
  simp only [parse_eq_ok_iff_exists, htokens, Token.tokens, Token.tokensFrom_eq_ok_iff]
  constructor
  · rintro ⟨ts, hts, hfilter⟩
    exact written_of_isFilter hfilter hts
  · intro h
    obtain ⟨lead, trail, hlead, htrail, happend⟩ := exists_blanks_trimChars text.toList
    rw [happend]
    exact h.exists_isFilter hlead htrail

end Filter

end CardFilter
