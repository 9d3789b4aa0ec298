import CardFilter.Filter.Parse
import CardFilter.Proofs.Keys
import CardFilter.Proofs.Spelling
import Mathlib.Data.List.Chain

/-!
# The grammar of complete filters

The reader of filters looks ahead, and it checks in several places whether two tokens touch. The
grammar that it accepts is given here with no look at how a list of tokens is read:

* a term (`CardFilter.Grammar.IsTerm`) is a run of tokens that touch, whose kinds follow one of
  two patterns (`CardFilter.Grammar.TermKinds`);
* the members of a group (`CardFilter.Grammar.IsMembers`) are terms with the word `or` between
  them, or with nothing between them where the two do not touch;
* a filter (`CardFilter.Grammar.IsFilter`) is a term, or a group token with at most a `-` that
  touches it, where the text of the group splits into members.

The main statement, `CardFilter.Filter.parse_eq_ok_iff_isFilter`, says that these are the filters
that are read, each from the tokens that form it.

## How the reader is followed

A run of touching tokens is determined by the place where it starts and the kinds in it;
`CardFilter.Grammar.placed` lists the tokens. So each function of the reader is described once on
placed kinds. What the grammar leaves open, the reader decides by one token of look-ahead: a word
before a comparison is taken for a key. This is why the lemmas about a single term ask that no
comparison follows (`CardFilter.Grammar.NoComparison`), and why the word `or` must be no key.
-/

namespace CardFilter

namespace Grammar

/-! ### The grammar -/

/-- Each token starts where the one before it ends. -/
def Touching (ts : List Token) : Prop :=
  ts.IsChain fun a b => b.start = a.stop

/-- The mark of a negated term or group, as a token. -/
def minusKinds (negated : Bool) : List TokenKind :=
  if negated then [.minus] else []

/-- The mark of an exact name, as a token. -/
def bangKinds (literal : Bool) : List TokenKind :=
  if literal then [.bang] else []

@[simp] theorem minusKinds_true : minusKinds true = [.minus] := rfl

@[simp] theorem minusKinds_false : minusKinds false = [] := rfl

@[simp] theorem bangKinds_true : bangKinds true = [.bang] := rfl

@[simp] theorem bangKinds_false : bangKinds false = [] := rfl

/-- The value that a token stands for. -/
inductive WritesValue : TokenKind → Value → Prop
  /-- A quoted text is plain text. -/
  | quoted (s : String) : WritesValue (.quoted s) (.text s)
  /-- A word is plain text. -/
  | word (s : String) : WritesValue (.word s) (.text s)
  /-- A regular expression. -/
  | regex (s : String) : WritesValue (.regex s) (.regex s)

/-- The word `or`, in any case. -/
def IsOr (k : TokenKind) : Prop :=
  ∃ w, k = .word w ∧ Value.isOrWord w = true

/-- **The kinds of the tokens of a term.** -/
inductive TermKinds (v : Vocabulary) : List TokenKind → Term → Prop
  /-- A name; only after the mark `!` is it the word `or`. -/
  | name {negated literal : Bool} {k : TokenKind} {value : Value} :
    WritesValue k value → (literal = false → ¬IsOr k) →
    TermKinds v (minusKinds negated ++ (bangKinds literal ++ [k])) (.name negated literal value)
  /-- A key in any case, a comparison that it accepts, and a value. -/
  | keyed {negated : Bool} {w : String} {c : Comparison} {k : TokenKind} {value : Value} :
    v.Accepts (lowercase w) c → WritesValue k value →
    TermKinds v (minusKinds negated ++ [.word w, .comparison c, k])
      (.keyed negated (lowercase w) c value)

/-- **The tokens form a term.** -/
structure IsTerm (v : Vocabulary) (ts : List Token) (t : Term) : Prop where
  /-- They touch. -/
  touching : Touching ts
  /-- Their kinds are those of the term. -/
  kinds : TermKinds v (ts.map Token.kind) t

/-- **The tokens form the members of a group.** -/
inductive IsMembers (v : Vocabulary) : List Token → List Term → Prop
  /-- The last member, or the only one. -/
  | last {ts : List Token} {t : Term} : IsTerm v ts t → IsMembers v ts [t]
  /-- The word `or` separates two members. -/
  | or {ts rest : List Token} {separator : Token} {t : Term} {ms : List Term} :
    IsTerm v ts t → IsOr separator.kind → IsMembers v rest ms →
    IsMembers v (ts ++ separator :: rest) (t :: ms)
  /-- So does the space between two members that do not touch. -/
  | apart {ts rest : List Token} {final next : Token} {t : Term} {ms : List Term} :
    IsTerm v (ts ++ [final]) t → next.start ≠ final.stop → IsMembers v (next :: rest) ms →
    IsMembers v ((ts ++ [final]) ++ next :: rest) (t :: ms)

/-- **The tokens form a filter.** -/
inductive IsFilter (v : Vocabulary) : List Token → Filter → Prop
  /-- A single term. -/
  | term {ts : List Token} {t : Term} : IsTerm v ts t → IsFilter v ts (.term t)
  /-- A group whose text splits into members, with or without a mark that touches it. -/
  | group {negated : Bool} {marks inner : List Token} {g : Token} {body : String}
      {ms : List Term} :
    Touching (marks ++ [g]) → marks.map Token.kind = minusKinds negated → g.kind = .group body →
    Token.tokensFrom g.innerStart body.toList = .ok inner → IsMembers v inner ms →
    IsFilter v (marks ++ [g]) (.anyOf negated ms)

/-! ### Runs of touching tokens -/

/-- **The tokens of the given kinds, each starting where the one before it ends.** -/
def placed (position : Nat) : List TokenKind → List Token
  | [] => []
  | k :: ks => ⟨k, position⟩ :: placed (position + k.width) ks

/-- The width of a run of tokens. -/
def widthOf : List TokenKind → Nat
  | [] => 0
  | k :: ks => k.width + widthOf ks

@[simp] theorem placed_nil (position : Nat) : placed position [] = [] := rfl

@[simp] theorem placed_cons (position : Nat) (k : TokenKind) (ks : List TokenKind) :
    placed position (k :: ks) = ⟨k, position⟩ :: placed (position + k.width) ks := rfl

@[simp] theorem widthOf_nil : widthOf [] = 0 := rfl

@[simp] theorem widthOf_cons (k : TokenKind) (ks : List TokenKind) :
    widthOf (k :: ks) = k.width + widthOf ks := rfl

@[simp] theorem width_minus : TokenKind.minus.width = 1 := rfl

@[simp] theorem width_bang : TokenKind.bang.width = 1 := rfl

theorem map_kind_placed (position : Nat) (ks : List TokenKind) :
    (placed position ks).map Token.kind = ks := by
  induction ks generalizing position with
  | nil => rfl
  | cons k ks ih => rw [placed, List.map_cons, ih]

theorem placed_append (position : Nat) (ks ls : List TokenKind) :
    placed position (ks ++ ls) = placed position ks ++ placed (position + widthOf ks) ls := by
  induction ks generalizing position with
  | nil => rfl
  | cons k ks ih => rw [List.cons_append, placed, ih, placed, widthOf, Nat.add_assoc]; rfl

theorem widthOf_append (ks ls : List TokenKind) : widthOf (ks ++ ls) = widthOf ks + widthOf ls := by
  induction ks with
  | nil => simp [widthOf]
  | cons k ks ih => rw [List.cons_append, widthOf, ih, widthOf, Nat.add_assoc]

theorem touching_placed (position : Nat) (ks : List TokenKind) :
    Touching (placed position ks) := by
  induction ks generalizing position with
  | nil => exact .nil
  | cons k ks ih =>
    cases ks with
    | nil => exact .singleton _
    | cons l ks => exact .cons_cons rfl (ih _)

/-- A run of touching tokens is placed at the start of its first token. -/
theorem placed_of_touching {t : Token} {ts : List Token} (h : Touching (t :: ts)) :
    placed t.start ((t :: ts).map Token.kind) = t :: ts := by
  induction ts generalizing t with
  | nil => rfl
  | cons next ts ih =>
    obtain ⟨hnext, hrest⟩ := List.isChain_cons_cons.mp h
    rw [List.map_cons, placed]
    change t :: placed t.stop ((next :: ts).map Token.kind) = t :: next :: ts
    rw [← hnext, ih hrest]

/-- The last token of a run ends where the run ends. -/
theorem stop_of_placed {position : Nat} {ks : List TokenKind} {ts : List Token} {final : Token}
    (h : placed position ks = ts ++ [final]) : final.stop = position + widthOf ks := by
  have hkinds : ks = ts.map Token.kind ++ [final.kind] := by
    rw [← map_kind_placed position ks, h, List.map_append]
    rfl
  rw [hkinds, placed_append] at h
  have hfinal := (List.append_inj' h rfl).2
  simp only [placed, List.cons.injEq, and_true] at hfinal
  rw [hkinds, widthOf_append, Token.stop, ← hfinal]
  simp only [widthOf]
  omega

/-! ### Kinds of a term -/

section Kinds

variable {v : Vocabulary} {ks : List TokenKind} {t : Term}

/-- The kinds of a name without the mark `!`. -/
theorem TermKinds.plain {negated : Bool} {k : TokenKind} {value : Value}
    (hvalue : WritesValue k value) (hor : ¬IsOr k) :
    TermKinds v (minusKinds negated ++ [k]) (.name negated false value) := by
  rw [← List.nil_append [k], ← bangKinds_false]
  exact .name hvalue fun _ => hor

/-- The kinds of a name with the mark `!`. -/
theorem TermKinds.marked {negated : Bool} {k : TokenKind} {value : Value}
    (hvalue : WritesValue k value) :
    TermKinds v (minusKinds negated ++ [.bang, k]) (.name negated true value) := by
  rw [← List.singleton_append, ← bangKinds_true]
  exact .name hvalue (by simp)

theorem TermKinds.ne_nil (h : TermKinds v ks t) : ks ≠ [] := by
  cases h <;> simp

/-- **A term is a run of its kinds** at some place. -/
theorem isTerm_iff_placed {ts : List Token} :
    IsTerm v ts t ↔ ∃ position ks, TermKinds v ks t ∧ ts = placed position ks := by
  constructor
  · rintro ⟨htouching, hkinds⟩
    cases ts with
    | nil => exact absurd rfl hkinds.ne_nil
    | cons first ts => exact ⟨first.start, _, hkinds, (placed_of_touching htouching).symm⟩
  · rintro ⟨position, ks, hkinds, rfl⟩
    exact ⟨touching_placed position ks, by rwa [map_kind_placed]⟩

/-- The kind is a comparison. -/
def IsComparison (k : TokenKind) : Prop :=
  ∃ c, k = .comparison c

theorem isComparison_iff {t : Token} : t.isComparison = true ↔ IsComparison t.kind := by
  rw [Token.isComparison]
  cases t.kind <;> simp [IsComparison]

theorem isOr_iff {t : Token} : t.isOr = true ↔ IsOr t.kind := by
  rw [Token.isOr]
  cases t.kind <;> simp [IsOr]

/-- No comparison comes next. -/
def NoComparison (rest : List Token) : Prop :=
  ∀ next ∈ rest.head?, ¬IsComparison next.kind

@[simp] theorem noComparison_nil : NoComparison [] := by
  simp [NoComparison]

@[simp] theorem noComparison_cons {next : Token} {rest : List Token} :
    NoComparison (next :: rest) ↔ ¬IsComparison next.kind := by
  simp [NoComparison]

theorem not_isComparison_of_isOr {k : TokenKind} (h : IsOr k) : ¬IsComparison k := by
  rintro ⟨c, rfl⟩
  obtain ⟨w, heq, -⟩ := h
  cases heq

/-- **The first token of a term** is no comparison, and where `or` is no key it is not that
word. -/
theorem TermKinds.exists_cons (h : TermKinds v ks t)
    (hor : ∀ w c, Value.isOrWord w = true → ¬v.Accepts (lowercase w) c) :
    ∃ k ls, ks = k :: ls ∧ ¬IsComparison k ∧ ¬IsOr k := by
  cases h with
  | @name negated literal k value hvalue hnotOr =>
    cases negated with
    | true => exact ⟨.minus, _, rfl, by simp [IsComparison], by simp [IsOr]⟩
    | false =>
      cases literal with
      | true => exact ⟨.bang, _, rfl, by simp [IsComparison], by simp [IsOr]⟩
      | false => exact ⟨k, _, rfl, by cases hvalue <;> simp [IsComparison], hnotOr rfl⟩
  | @keyed negated w c k value haccepts hvalue =>
    cases negated with
    | true => exact ⟨.minus, _, rfl, by simp [IsComparison], by simp [IsOr]⟩
    | false =>
      refine ⟨.word w, _, rfl, by simp [IsComparison], ?_⟩
      rintro ⟨w', heq, hw'⟩
      cases heq
      exact hor w c hw' haccepts

/-- The first token of a group's text begins its first member. -/
theorem IsMembers.exists_cons {ts : List Token} {ms : List Term} (h : IsMembers v ts ms)
    (hor : ∀ w c, Value.isOrWord w = true → ¬v.Accepts (lowercase w) c) :
    ∃ first rest, ts = first :: rest ∧ ¬IsComparison first.kind ∧ ¬IsOr first.kind := by
  cases h with
  | last hterm | or hterm | apart hterm =>
    obtain ⟨position, ks, hkinds, hplaced⟩ := isTerm_iff_placed.mp hterm
    obtain ⟨k, ls, rfl, hcomparison, hnotOr⟩ := hkinds.exists_cons hor
    exact ⟨⟨k, position⟩, _, by rw [hplaced]; rfl, hcomparison, hnotOr⟩

/-- A member that does not touch the next token. -/
theorem TermKinds.isMembers_apart {position : Nat} {next : Token} {rest : List Token}
    {ms : List Term} (h : TermKinds v ks t) (hstart : next.start ≠ position + widthOf ks)
    (hrest : IsMembers v (next :: rest) ms) :
    IsMembers v (placed position ks ++ next :: rest) (t :: ms) := by
  have hterm : IsTerm v (placed position ks) t := isTerm_iff_placed.mpr ⟨position, ks, h, rfl⟩
  rcases List.eq_nil_or_concat' (placed position ks) with hnil | ⟨ts, final, hconcat⟩
  · rw [← map_kind_placed position ks, hnil] at h
    exact absurd rfl h.ne_nil
  · rw [← stop_of_placed hconcat] at hstart
    rw [hconcat] at hterm ⊢
    exact .apart hterm hstart hrest

theorem isFilter_term_iff {ts : List Token} : IsFilter v ts (.term t) ↔ IsTerm v ts t := by
  refine ⟨fun h => ?_, .term⟩
  cases h with
  | term hterm => exact hterm

/-- **A group is a group token**, after a touching mark where it is negated. -/
theorem isFilter_anyOf_iff {ts : List Token} {negated : Bool} {ms : List Term} :
    IsFilter v ts (.anyOf negated ms) ↔
      ∃ position body inner, ts = placed position (minusKinds negated ++ [.group body]) ∧
        Token.tokensFrom (position + widthOf (minusKinds negated) + 1) body.toList = .ok inner ∧
        IsMembers v inner ms := by
  constructor
  · intro h
    cases h with
    | @group _ marks inner g body _ htouching hmarks hg htokens hms =>
      have hkinds : (marks ++ [g]).map Token.kind = minusKinds negated ++ [.group body] := by
        rw [List.map_append, hmarks, ← hg]
        rfl
      have hne : marks ++ [g] ≠ [] :=
        List.append_ne_nil_of_right_ne_nil marks (List.cons_ne_nil g [])
      obtain ⟨first, rest, hfirst⟩ := List.exists_cons_of_ne_nil hne
      rw [hfirst] at htouching hkinds
      have hplaced := placed_of_touching htouching
      rw [hkinds, ← hfirst] at hplaced
      have hstart := stop_of_placed hplaced
      refine ⟨first.start, body, inner, hplaced.symm, ?_, hms⟩
      rw [Token.stop, hg, widthOf_append, ← Nat.add_assoc] at hstart
      simp only [widthOf_cons, widthOf_nil, Nat.add_zero, Nat.add_right_cancel_iff] at hstart
      rw [← hstart]
      exact htokens
  · rintro ⟨position, body, inner, rfl, htokens, hms⟩
    rw [placed_append]
    refine .group ?_ (map_kind_placed _ _) rfl htokens hms
    have htouching := touching_placed position (minusKinds negated ++ [.group body])
    rwa [placed_append] at htouching

end Kinds

end Grammar

/-! ### Reading a term -/

namespace Filter

open Grammar

variable {v : Vocabulary} {negated : Bool} {position : Nat} {rest : List Token}

/-- A value before which a comparison was read. -/
theorem readKeyed_placed {w : String} {c : Comparison} {k : TokenKind} {value : Value}
    {operator : Token} {keyAt : Nat} (haccepts : v.Accepts (lowercase w) c)
    (hvalue : WritesValue k value) :
    readKeyed v negated w keyAt c operator (⟨k, operator.stop⟩ :: rest) =
      .ok ⟨.keyed negated (lowercase w) c value, operator.stop + k.width, rest⟩ := by
  obtain ⟨key, hlookup, hc⟩ := Vocabulary.accepts_iff_lookup?.mp haccepts
  rw [readKeyed, Vocabulary.lookupIgnoringCase?, hlookup]
  simp only [hc, if_true]
  cases hvalue <;> rfl

theorem hasComparison_eq_false (t : Token) (h : NoComparison rest) :
    t.hasComparison rest = false := by
  cases rest with
  | nil => rfl
  | cons next rest =>
    have hnext : next.isComparison = false := by
      rw [Bool.eq_false_iff, Ne, isComparison_iff]
      exact h next rfl
    rw [Token.hasComparison, hnext, Bool.false_and]

/-- A name without the mark `!`. -/
theorem readUnsigned_name {k : TokenKind} {value : Value} (hvalue : WritesValue k value)
    (hor : ¬IsOr k) (hrest : NoComparison rest) :
    readUnsigned v negated ⟨k, position⟩ rest =
      .ok ⟨.name negated false value, position + k.width, rest⟩ := by
  cases hvalue with
  | quoted | regex => rfl
  | word w =>
    have hw : Value.isOrWord w = false := by
      rw [Bool.eq_false_iff]
      exact fun hw => hor ⟨w, rfl, hw⟩
    simp only [readUnsigned, hw]
    split
    · rename_i c start after
      exact absurd ⟨c, rfl⟩ (hrest _ rfl)
    · rfl

/-- A name after the mark `!`. -/
theorem readUnsigned_bang {k : TokenKind} {value : Value} (hvalue : WritesValue k value)
    (hrest : NoComparison rest) :
    readUnsigned v negated ⟨.bang, position⟩ (⟨k, position + 1⟩ :: rest) =
      .ok ⟨.name negated true value, position + 1 + k.width, rest⟩ := by
  have hstop : position + 1 = Token.stop ⟨.bang, position⟩ := rfl
  simp only [readUnsigned, readMarked]
  rw [if_pos hstop]
  cases hvalue with
  | quoted | regex => rfl
  | word w =>
    simp only [hasComparison_eq_false _ hrest]
    rfl

/-- A key, a comparison and a value. -/
theorem readUnsigned_keyed {w : String} {c : Comparison} {k : TokenKind} {value : Value}
    (haccepts : v.Accepts (lowercase w) c) (hvalue : WritesValue k value) :
    readUnsigned v negated ⟨.word w, position⟩
        (⟨.comparison c, position + (TokenKind.word w).width⟩ ::
          ⟨k, position + (TokenKind.word w).width + (TokenKind.comparison c).width⟩ :: rest) =
      .ok ⟨.keyed negated (lowercase w) c value,
        position + (TokenKind.word w).width + (TokenKind.comparison c).width + k.width, rest⟩ := by
  have hstop : position + (TokenKind.word w).width = Token.stop ⟨.word w, position⟩ := rfl
  simp only [readUnsigned]
  rw [if_pos hstop]
  exact readKeyed_placed haccepts hvalue

/-- A term that begins with `-` is the term after it, negated. -/
theorem readTerm_minus {k : TokenKind} :
    readTerm v (⟨.minus, position⟩ :: ⟨k, position + 1⟩ :: rest) =
      readUnsigned v true ⟨k, position + 1⟩ rest := by
  have hstop : position + 1 = Token.stop ⟨.minus, position⟩ := rfl
  simp only [readTerm, if_true]
  rw [if_pos hstop]

theorem readTerm_of_ne_minus {k : TokenKind} (h : k ≠ .minus) :
    readTerm v (⟨k, position⟩ :: rest) = readUnsigned v false ⟨k, position⟩ rest := by
  simp only [readTerm, if_neg h]

/-- **A term that no comparison follows is read.** -/
theorem readTerm_placed {ks : List TokenKind} {t : Term} (h : TermKinds v ks t)
    (hrest : NoComparison rest) :
    readTerm v (placed position ks ++ rest) = .ok ⟨t, position + widthOf ks, rest⟩ := by
  cases h with
  | @name negated literal k value hvalue hor =>
    have hk : k ≠ .minus := by cases hvalue <;> simp
    cases negated with
    | true =>
      cases literal with
      | true =>
        simp [readTerm_minus, readUnsigned_bang hvalue hrest]
        omega
      | false =>
        simp [readTerm_minus, readUnsigned_name hvalue (hor rfl) hrest, Nat.add_assoc]
    | false =>
      cases literal with
      | true => simp [readTerm_of_ne_minus, readUnsigned_bang hvalue hrest, Nat.add_assoc]
      | false => simp [readTerm_of_ne_minus hk, readUnsigned_name hvalue (hor rfl) hrest]
  | @keyed negated w c k value haccepts hvalue =>
    cases negated with
    | true =>
      simp [readTerm_minus, readUnsigned_keyed haccepts hvalue]
      omega
    | false =>
      simp [readTerm_of_ne_minus, readUnsigned_keyed haccepts hvalue]
      omega

/-! ### What is read is a term -/

theorem writesValue_of_value? {t : Token} {value : Value} (h : t.value? = some value) :
    WritesValue t.kind value := by
  rw [Token.value?] at h
  split at h
  all_goals
    rename_i hkind
    cases h
  · rw [hkind]; exact .word _
  · rw [hkind]; exact .quoted _
  · rw [hkind]; exact .regex _

theorem readKeyed_sound {w : String} {keyAt : Nat} {c : Comparison} {operator : Token}
    {r : ReadTerm} (h : readKeyed v negated w keyAt c operator rest = .ok r) :
    ∃ k value, v.Accepts (lowercase w) c ∧ WritesValue k value ∧
      r.term = .keyed negated (lowercase w) c value ∧
      rest = ⟨k, operator.stop⟩ :: r.rest ∧ r.stop = operator.stop + k.width := by
  -- each check of the reader either refuses or gives one of the facts that are claimed
  unfold readKeyed at h
  split at h
  · cases h
  rename_i key hlookup
  split at h
  swap
  · cases h
  rename_i hc
  split at h
  · cases h
  rename_i t rest
  split at h
  swap
  · cases h
  rename_i hstart
  split at h
  swap
  · cases h
  rename_i value hvalue
  cases h
  exact ⟨t.kind, value, Vocabulary.accepts_iff_lookup?.mpr ⟨key, hlookup, hc⟩,
    writesValue_of_value? hvalue, rfl, by rw [← hstart], by rw [← hstart]; rfl⟩

theorem readMarked_sound {bang : Token} {r : ReadTerm}
    (h : readMarked negated bang rest = .ok r) :
    ∃ k value, WritesValue k value ∧ r.term = .name negated true value ∧
      rest = ⟨k, bang.stop⟩ :: r.rest ∧ r.stop = bang.stop + k.width := by
  unfold readMarked at h
  split at h
  · cases h
  rename_i t rest
  obtain ⟨k, start⟩ := t
  split at h
  swap
  · cases h
  rename_i hstart
  obtain rfl : start = bang.stop := hstart
  cases k with
  | word w =>
    simp only at h
    split at h
    · cases h
    · cases h
      exact ⟨.word w, _, .word w, rfl, rfl, rfl⟩
  | quoted s =>
    cases h
    exact ⟨.quoted s, _, .quoted s, rfl, rfl, rfl⟩
  | regex s =>
    cases h
    exact ⟨.regex s, _, .regex s, rfl, rfl, rfl⟩
  | group | minus | bang | comparison => cases h

/-- A word that is read as a name is not the word `or`. -/
theorem not_isOr_word {w : String} (h : ¬Value.isOrWord w = true) : ¬IsOr (.word w) := by
  rintro ⟨w', heq, hw'⟩
  cases heq
  exact h hw'

theorem readUnsigned_sound {t : Token} {r : ReadTerm}
    (h : readUnsigned v negated t rest = .ok r) :
    ∃ ks, TermKinds v (minusKinds negated ++ ks) r.term ∧
      t :: rest = placed t.start ks ++ r.rest ∧ r.stop = t.start + widthOf ks := by
  obtain ⟨k, start⟩ := t
  cases k with
  | bang =>
    obtain ⟨k, value, hvalue, hterm, rfl, hstop⟩ := readMarked_sound h
    refine ⟨[.bang, k], ?_, rfl, ?_⟩
    · rw [hterm]
      exact .marked hvalue
    · rw [hstop]
      simp [Token.stop, Nat.add_assoc]
  | word w =>
    simp only [readUnsigned] at h
    split at h
    · rename_i c operatorStart after
      split at h
      · -- the comparison touches the word, which is therefore a key
        rename_i hstart
        obtain rfl : operatorStart = start + (TokenKind.word w).width := hstart
        obtain ⟨k, value, haccepts, hvalue, hterm, rfl, hstop⟩ := readKeyed_sound h
        refine ⟨[.word w, .comparison c, k], ?_, rfl, ?_⟩
        · rw [hterm]
          exact .keyed haccepts hvalue
        · rw [hstop]
          simp [Token.stop, Nat.add_assoc]
      split at h
      · cases h
      · rename_i hor
        cases h
        exact ⟨[.word w], .plain (.word w) (not_isOr_word hor), rfl, rfl⟩
    · split at h
      · cases h
      · rename_i hor
        cases h
        exact ⟨[.word w], .plain (.word w) (not_isOr_word hor), rfl, rfl⟩
  | quoted s =>
    cases h
    exact ⟨[.quoted s], .plain (.quoted s) (by simp [IsOr]), rfl, rfl⟩
  | regex s =>
    cases h
    exact ⟨[.regex s], .plain (.regex s) (by simp [IsOr]), rfl, rfl⟩
  | group | minus | comparison => cases h

/-- **What is read as a term is one.** -/
theorem readTerm_sound {ts : List Token} {r : ReadTerm} (h : readTerm v ts = .ok r) :
    ∃ position ks, TermKinds v ks r.term ∧ ts = placed position ks ++ r.rest ∧
      r.stop = position + widthOf ks := by
  cases ts with
  | nil => cases h
  | cons t rest =>
    simp only [readTerm] at h
    split at h
    · rename_i hminus
      split at h
      · cases h
      rename_i next rest
      split at h
      · rename_i hstart
        obtain ⟨ks, hkinds, happend, hstop⟩ := readUnsigned_sound h
        obtain ⟨kind, start⟩ := t
        obtain rfl : kind = .minus := hminus
        obtain hstart : next.start = start + 1 := hstart
        refine ⟨start, .minus :: ks, hkinds, ?_, ?_⟩
        · rw [happend, hstart, placed_cons, width_minus, List.cons_append]
        · rw [hstop, hstart, widthOf_cons, width_minus, Nat.add_assoc]
      · cases h
    · obtain ⟨ks, hkinds, happend, hstop⟩ := readUnsigned_sound h
      exact ⟨t.start, ks, hkinds, happend, hstop⟩

/-! ### Reading the members of a group -/

section Members

variable {isFirst : Bool} {t next : Token} {ts after : List Token} {m : Term} {stop : Nat}
  {ms : List Term}

theorem readMembers_last (ht : ¬IsOr t.kind) (hread : readTerm v (t :: ts) = .ok ⟨m, stop, []⟩) :
    readMembers v isFirst (t :: ts) = .ok [m] := by
  rw [readMembers, if_neg (by rwa [isOr_iff])]
  split
  · simp_all
  · rename_i hok
    rw [hread] at hok
    cases hok
    rfl

theorem readMembers_or (ht : ¬IsOr t.kind)
    (hread : readTerm v (t :: ts) = .ok ⟨m, stop, next :: after⟩) (hnext : IsOr next.kind)
    (hne : after ≠ []) (hafter : readMembers v false after = .ok ms) :
    readMembers v isFirst (t :: ts) = .ok (m :: ms) := by
  rw [readMembers, if_neg (by rwa [isOr_iff])]
  split
  · simp_all
  · rename_i hok
    rw [hread] at hok
    cases hok
    simp only [isOr_iff.mpr hnext, if_true, List.isEmpty_iff, hne, if_false, hafter]

theorem readMembers_apart (ht : ¬IsOr t.kind)
    (hread : readTerm v (t :: ts) = .ok ⟨m, stop, next :: after⟩) (hnext : ¬IsOr next.kind)
    (hstart : next.start ≠ stop) (hafter : readMembers v false (next :: after) = .ok ms) :
    readMembers v isFirst (t :: ts) = .ok (m :: ms) := by
  rw [readMembers, if_neg (by rwa [isOr_iff])]
  split
  · simp_all
  · rename_i hok
    rw [hread] at hok
    cases hok
    simp only [isOr_iff, hnext, if_false, hstart, hafter]

/-- **What is read as members are members.** -/
theorem readMembers_sound (h : readMembers v isFirst ts = .ok ms) (hne : ts ≠ []) :
    IsMembers v ts ms := by
  -- the reader gives members in three ways; in all other cases it reports a fault
  fun_induction readMembers v isFirst ts generalizing ms with
  | case1 => exact absurd rfl hne
  | case2 | case3 | case5 | case6 | case8 | case9 => cases h
  | case4 isFirst t ts _ r hread hrest =>
    cases h
    obtain ⟨position, ks, hkinds, happend, -⟩ := readTerm_sound hread
    rw [hrest, List.append_nil] at happend
    exact .last (isTerm_iff_placed.mpr ⟨position, ks, hkinds, happend⟩)
  | case7 isFirst t ts _ r hread next after hrest hnext hafter following hfollowing ih =>
    cases h
    obtain ⟨position, ks, hkinds, happend, -⟩ := readTerm_sound hread
    rw [happend, hrest]
    exact .or (isTerm_iff_placed.mpr ⟨position, ks, hkinds, rfl⟩) (isOr_iff.mp hnext)
      (ih hfollowing (by simpa using hafter))
  | case10 isFirst t ts _ r hread next after hrest _ hstart following hfollowing ih =>
    cases h
    obtain ⟨position, ks, hkinds, happend, hstop⟩ := readTerm_sound hread
    rw [hstop] at hstart
    rw [happend, hrest]
    exact hkinds.isMembers_apart hstart (ih hfollowing (List.cons_ne_nil _ _))

end Members

/-- **Members are read**, where the word `or` is no key. -/
theorem readMembers_of_isMembers {ts : List Token} {ms : List Term} (h : IsMembers v ts ms)
    (hor : ∀ w c, Value.isOrWord w = true → ¬v.Accepts (lowercase w) c) (isFirst : Bool) :
    readMembers v isFirst ts = .ok ms := by
  induction h generalizing isFirst with
  | last hterm =>
    obtain ⟨position, ks, hkinds, rfl⟩ := isTerm_iff_placed.mp hterm
    obtain ⟨k, ls, rfl, -, hk⟩ := hkinds.exists_cons hor
    have hread : readTerm v (placed position (k :: ls) ++ []) = .ok ⟨_, _, []⟩ :=
      readTerm_placed hkinds noComparison_nil
    rw [List.append_nil] at hread
    exact readMembers_last hk hread
  | @or ts rest separator t ms hterm hseparator hrest ih =>
    obtain ⟨position, ks, hkinds, rfl⟩ := isTerm_iff_placed.mp hterm
    obtain ⟨k, ls, rfl, -, hk⟩ := hkinds.exists_cons hor
    obtain ⟨first, rest, rfl, -, -⟩ := hrest.exists_cons hor
    have hcomparison : NoComparison (separator :: first :: rest) :=
      noComparison_cons.mpr (not_isComparison_of_isOr hseparator)
    exact readMembers_or hk (readTerm_placed hkinds hcomparison) hseparator
      (List.cons_ne_nil _ _) (ih false)
  | @apart ts rest final next t ms hterm hstart hrest ih =>
    obtain ⟨position, ks, hkinds, hplaced⟩ := isTerm_iff_placed.mp hterm
    obtain ⟨k, ls, rfl, -, hk⟩ := hkinds.exists_cons hor
    obtain ⟨first, after, heq, hcomparison, hnext⟩ := hrest.exists_cons hor
    obtain ⟨rfl, rfl⟩ := List.cons.inj heq
    -- the last token of the term ends where the term does
    rw [stop_of_placed hplaced.symm] at hstart
    rw [hplaced]
    exact readMembers_apart hk (readTerm_placed hkinds (noComparison_cons.mpr hcomparison)) hnext
      hstart (ih false)

/-! ### The filters that are read -/

/-- A group is read from the tokens of its text. -/
theorem readGroup_eq_ok_iff {start : Nat} {body : String} {f : Filter}
    (hor : ∀ w c, Value.isOrWord w = true → ¬v.Accepts (lowercase w) c) :
    readGroup v negated start body = .ok f ↔
      ∃ inner ms, Token.tokensFrom (start + 1) body.toList = .ok inner ∧
        IsMembers v inner ms ∧ f = .anyOf negated ms := by
  constructor
  · intro h
    unfold readGroup at h
    split at h
    · cases h
    · cases h
    rename_i t ts htokens
    split at h
    · cases h
    rename_i ms hms
    cases h
    exact ⟨t :: ts, ms, htokens, readMembers_sound hms (List.cons_ne_nil _ _), rfl⟩
  · rintro ⟨inner, ms, htokens, hms, rfl⟩
    obtain ⟨first, rest, rfl, -, -⟩ := hms.exists_cons hor
    simp only [readGroup, htokens, readMembers_of_isMembers hms hor true]

theorem complete_eq_ok_iff {f g : Filter} {ts : List Token} :
    complete f ts = .ok g ↔ ts = [] ∧ f = g := by
  cases ts <;> simp [complete]

/-- A single term is read when nothing follows it. -/
theorem readSingle_eq_ok_iff {ts : List Token} {f : Filter} :
    readSingle v ts = .ok f ↔ ∃ t, IsTerm v ts t ∧ f = .term t := by
  constructor
  · intro h
    unfold readSingle at h
    split at h
    · cases h
    rename_i r hread
    obtain ⟨hrest, rfl⟩ := complete_eq_ok_iff.mp h
    obtain ⟨position, ks, hkinds, happend, -⟩ := readTerm_sound hread
    rw [hrest, List.append_nil] at happend
    exact ⟨r.term, isTerm_iff_placed.mpr ⟨position, ks, hkinds, happend⟩, rfl⟩
  · rintro ⟨t, hterm, rfl⟩
    obtain ⟨position, ks, hkinds, rfl⟩ := isTerm_iff_placed.mp hterm
    have hread : readTerm v (placed position ks ++ []) = .ok ⟨t, _, []⟩ :=
      readTerm_placed hkinds noComparison_nil
    rw [List.append_nil] at hread
    simp only [readSingle, hread, complete]

/-- Tokens that begin a term begin no group. -/
theorem ofTokens_placed {ks : List TokenKind} {t : Term} (h : TermKinds v ks t) :
    ofTokens v (placed position ks) = readSingle v (placed position ks) := by
  cases h with
  | @name negated literal k value hvalue _ =>
    cases negated <;> cases literal <;> cases hvalue <;> rfl
  | @keyed negated =>
    cases negated <;> rfl

/-- **The filters that tokens form** are those that are read from them, where the word `or` is no
key. -/
theorem ofTokens_eq_ok_iff {ts : List Token} {f : Filter}
    (hor : ∀ w c, Value.isOrWord w = true → ¬v.Accepts (lowercase w) c) :
    ofTokens v ts = .ok f ↔ IsFilter v ts f := by
  constructor
  · intro h
    unfold ofTokens at h
    split at h
    · cases h
    · rename_i body start rest
      split at h
      · cases h
      rename_i g hgroup
      obtain ⟨rfl, rfl⟩ := complete_eq_ok_iff.mp h
      obtain ⟨inner, ms, htokens, hms, rfl⟩ := (readGroup_eq_ok_iff hor).mp hgroup
      exact isFilter_anyOf_iff.mpr ⟨start, body, inner, rfl, htokens, hms⟩
    · rename_i start body groupStart rest
      split at h
      swap
      · cases h
      rename_i hstart
      split at h
      · cases h
      rename_i g hgroup
      obtain ⟨rfl, rfl⟩ := complete_eq_ok_iff.mp h
      obtain ⟨inner, ms, htokens, hms, rfl⟩ := (readGroup_eq_ok_iff hor).mp hgroup
      obtain rfl : groupStart = start + 1 := hstart
      exact isFilter_anyOf_iff.mpr ⟨start, body, inner, rfl, htokens, hms⟩
    · obtain ⟨t, hterm, rfl⟩ := readSingle_eq_ok_iff.mp h
      exact .term hterm
  · intro h
    cases f with
    | term t =>
      have hterm := isFilter_term_iff.mp h
      have hsingle := readSingle_eq_ok_iff.mpr ⟨_, hterm, rfl⟩
      obtain ⟨position, ks, hkinds, rfl⟩ := isTerm_iff_placed.mp hterm
      rwa [ofTokens_placed hkinds]
    | anyOf negated ms =>
      obtain ⟨position, body, inner, rfl, htokens, hms⟩ := isFilter_anyOf_iff.mp h
      have hgroup : readGroup v negated (position + widthOf (minusKinds negated)) body =
          .ok (.anyOf negated ms) :=
        (readGroup_eq_ok_iff hor).mpr ⟨inner, ms, htokens, hms, rfl⟩
      cases negated with
      | true =>
        simp only [minusKinds_true, List.cons_append, List.nil_append, placed_cons, placed_nil,
          width_minus, ofTokens, if_true]
        simp only [minusKinds_true, widthOf_cons, widthOf_nil, width_minus] at hgroup
        rw [hgroup]
        rfl
      | false =>
        simp only [minusKinds_false, List.nil_append, placed_cons, placed_nil, ofTokens]
        simp only [minusKinds_false, widthOf_nil, Nat.add_zero] at hgroup
        rw [hgroup]
        rfl

/-- Reading a text is reading its tokens. -/
theorem parse_eq_ok_iff_exists {text : String} {f : Filter} :
    parse text = .ok f ↔ ∃ ts, Token.tokens text = .ok ts ∧ ofTokens .standard ts = .ok f := by
  rw [parse, parseWith]
  split
  · simp_all
  · rename_i ts htokens
    simp only [htokens]
    split <;> simp_all

/-- **The filters that are read are those of the grammar**: a text is read as a filter exactly
when it splits into tokens and these form the filter. -/
theorem parse_eq_ok_iff_isFilter (text : String) (f : Filter) :
    parse text = .ok f ↔ ∃ ts, Token.tokens text = .ok ts ∧ IsFilter .standard ts f := by
  rw [parse_eq_ok_iff_exists]
  refine exists_congr fun ts => and_congr_right fun _ => ?_
  exact ofTokens_eq_ok_iff fun w c hw => Vocabulary.not_accepts_of_isOrWord hw

end Filter

end CardFilter
