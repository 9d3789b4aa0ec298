import CardFilter.Proofs.Characters
import CardFilter.Token

/-!
# How a text splits into tokens

The reader of tokens takes the longest token it can at every place. This file says what that comes
to without saying how it is done:

* `CardFilter.TokenKind.Written` gives the texts that a token of each kind is written with;
* `CardFilter.TokenKind.isProlongedBy` says which character would make a longer token of it when
  it came next: a further letter of a word, and the `=` of a longer comparison;
* `CardFilter.Token.Splits` puts the two together: a text splits into tokens when it consists of
  blanks and of the texts of the tokens, none of which is prolonged by what follows it.

The main statement is `CardFilter.Token.tokensFrom_eq_ok_iff`: the reader finds a list of tokens
exactly when the text splits into it. Everything else that is proved about complete filters starts
from this relation and never opens the reader again.

## Groups

A group is one token, and its text is passed over quote by quote. The relation for it
(`CardFilter.GroupBody`) speaks of complete quoted stretches, while the reader carries the quote
that is open at present; `CardFilter.GroupRest` is what the text must still be in the middle of a
stretch, and the induction goes over that.
-/

namespace CardFilter

/-! ### Cutting at a mark -/

section Cut

variable {mark : Char} {cs before after : List Char}

theorem cutAtMark?_append (h : mark ∉ before) :
    cutAtMark? mark (before ++ mark :: after) = some (before, after) := by
  induction before with
  | nil => simp [cutAtMark?]
  | cons c before ih =>
    obtain ⟨hc, hbefore⟩ := List.ne_and_not_mem_of_not_mem_cons h
    rw [List.cons_append, cutAtMark?, if_neg hc.symm, ih hbefore]
    rfl

theorem not_mem_of_cutAtMark? (h : cutAtMark? mark cs = some (before, after)) :
    mark ∉ before := by
  induction cs generalizing before with
  | nil => cases h
  | cons c cs ih =>
    rw [cutAtMark?] at h
    split at h
    · cases h
      exact List.not_mem_nil
    · rename_i hc
      obtain ⟨⟨b, a⟩, hcut, heq⟩ := Option.map_eq_some_iff.mp h
      cases heq
      exact List.not_mem_cons_of_ne_of_not_mem (Ne.symm hc) (ih hcut)

/-- **Where a mark cuts**: at its first occurrence. -/
theorem cutAtMark?_eq_some_iff :
    cutAtMark? mark cs = some (before, after) ↔ mark ∉ before ∧ cs = before ++ mark :: after := by
  refine ⟨fun h => ⟨not_mem_of_cutAtMark? h, eq_append_of_cutAtMark? h⟩, ?_⟩
  rintro ⟨h, rfl⟩
  exact cutAtMark?_append h

/-- Without a mark there is no cut. -/
theorem not_mem_of_cutAtMark?_eq_none (h : cutAtMark? mark cs = none) : mark ∉ cs := by
  intro hmem
  obtain ⟨before, after, rfl, hbefore⟩ := List.eq_append_cons_of_mem hmem
  rw [cutAtMark?_append hbefore] at h
  cases h

end Cut

/-! ### The symbols of comparisons -/

namespace Comparison

/-- The character makes a longer symbol of this one. -/
def isProlongedBy : Comparison → Char → Bool
  | less, d | greater, d => d == '='
  | _, _ => false

theorem read?_append {c : Comparison} {rest : List Char}
    (h : ∀ d ∈ rest.head?, c.isProlongedBy d = false) :
    read? (c.chars ++ rest) = some (c, rest) := by
  cases c with
  | less | greater =>
    cases rest with
    | nil => rfl
    | cons d rest =>
      have hd : d ≠ '=' := by simpa [isProlongedBy] using h d rfl
      simp [chars, read?, hd]
  | _ => rfl

/-- Only a `=` makes any symbol longer. -/
theorem read?_chars_append {c : Comparison} {rest : List Char} (h : ∀ d ∈ rest.head?, d ≠ '=') :
    read? (c.chars ++ rest) = some (c, rest) := by
  refine read?_append fun d hd => ?_
  have hne : d ≠ '=' := h d hd
  cases c <;> simp [isProlongedBy, hne]

theorem isProlongedBy_of_read? {c : Comparison} {cs rest : List Char}
    (h : read? cs = some (c, rest)) : ∀ d ∈ rest.head?, c.isProlongedBy d = false := by
  intro d hd
  unfold read? at h
  split at h <;> cases h <;> try rfl
  all_goals
    obtain ⟨tail, rfl⟩ := List.head?_eq_some_iff.mp hd
    rename_i hother
    simpa [isProlongedBy] using fun heq => hother tail (by rw [heq])

/-- **The longest symbol** at the start of a text is read, and nothing else. -/
theorem read?_eq_some_iff {c : Comparison} {cs rest : List Char} :
    read? cs = some (c, rest) ↔
      cs = c.chars ++ rest ∧ ∀ d ∈ rest.head?, c.isProlongedBy d = false := by
  refine ⟨fun h => ⟨eq_append_of_read? h, isProlongedBy_of_read? h⟩, ?_⟩
  rintro ⟨rfl, h⟩
  exact read?_append h

/-- No symbol begins with a word character. -/
theorem read?_eq_none_of_isWordChar {c : Char} {rest : List Char} (h : isWordChar c = true) :
    read? (c :: rest) = none := by
  rw [Option.eq_none_iff_forall_not_mem]
  rintro ⟨symbol, after⟩ hread
  have happend := eq_append_of_read? hread
  cases symbol <;> cases happend <;> exact absurd h (by decide)

end Comparison

/-! ### The text of a group -/

/-- No mark of a quote is blank. -/
theorem Quote.isBlank_mark (q : Quote) : isBlank q.mark = false := by
  cases q <;> decide

/-- No quote begins with a word character. -/
theorem Quote.ofChar?_of_isWordChar {c : Char} (h : isWordChar c = true) : ofChar? c = none :=
  Option.eq_none_iff_forall_ne_some.mpr fun q hq =>
    ne_of_isWordChar h (by cases q <;> decide) (eq_mark_of_ofChar? hq)

/-- No blank opens a quote. -/
theorem Quote.ofChar?_of_isBlank {c : Char} (h : isBlank c = true) : ofChar? c = none := by
  refine Option.eq_none_iff_forall_ne_some.mpr fun q hq => ?_
  rw [eq_mark_of_ofChar? hq, q.isBlank_mark] at h
  cases h

/-- **The text between the parentheses of a group**: no parenthesis stands in it outside a
complete quoted stretch. -/
inductive GroupBody : List Char → Prop
  /-- The empty text. -/
  | nil : GroupBody []
  /-- A character that is neither a parenthesis nor a quote. -/
  | plain {c : Char} {cs : List Char} :
    Quote.ofChar? c = none → c ≠ '(' → c ≠ ')' → GroupBody cs → GroupBody (c :: cs)
  /-- A quoted stretch. -/
  | quoted {q : Quote} {body cs : List Char} :
    q.mark ∉ body → GroupBody cs → GroupBody (q.mark :: (body ++ q.mark :: cs))

theorem GroupBody.append {cs ds : List Char} (hcs : GroupBody cs) (hds : GroupBody ds) :
    GroupBody (cs ++ ds) := by
  induction hcs with
  | nil => exact hds
  | plain hquote hopen hclose _ ih => exact .plain hquote hopen hclose ih
  | quoted hbody _ ih => simpa using GroupBody.quoted hbody ih

/-- A run of characters that are neither parentheses nor quotes. -/
theorem GroupBody.of_forall {cs : List Char}
    (h : ∀ c ∈ cs, Quote.ofChar? c = none ∧ c ≠ '(' ∧ c ≠ ')') : GroupBody cs := by
  induction cs with
  | nil => exact .nil
  | cons c cs ih =>
    obtain ⟨hquote, hopen, hclose⟩ := h c List.mem_cons_self
    exact .plain hquote hopen hclose (ih fun d hd => h d (List.mem_cons_of_mem _ hd))

/-- The same for a run that can be evaluated. -/
theorem GroupBody.of_all {cs : List Char}
    (h : (cs.all fun c => (Quote.ofChar? c).isNone && c != '(' && c != ')') = true) :
    GroupBody cs := by
  refine .of_forall fun c hc => ?_
  have hclass := List.all_eq_true.mp h c hc
  rw [Bool.and_eq_true, Bool.and_eq_true, Option.isNone_iff_eq_none, bne_iff_ne,
    bne_iff_ne] at hclass
  exact ⟨hclass.1.1, hclass.1.2, hclass.2⟩

/-- What is left of the text of a group, in the middle of a quoted stretch or outside. -/
def GroupRest : Option Quote → List Char → Prop
  | none, cs => GroupBody cs
  | some q, cs => ∃ inner rest, cs = inner ++ q.mark :: rest ∧ q.mark ∉ inner ∧ GroupBody rest

/-- A character inside a quoted stretch stays there unless it closes the stretch. -/
theorem groupRest_some_cons {q : Quote} {c : Char} {cs : List Char} :
    GroupRest (some q) (c :: cs) ↔ GroupRest (if c = q.mark then none else some q) cs := by
  by_cases hc : c = q.mark
  · rw [if_pos hc]
    constructor
    · rintro ⟨inner, rest, happend, hinner, hrest⟩
      cases inner with
      | nil =>
        obtain ⟨-, rfl⟩ := List.cons.inj happend
        exact hrest
      | cons d inner =>
        obtain ⟨rfl, -⟩ := List.cons.inj happend
        exact absurd List.mem_cons_self (hc ▸ hinner)
    · exact fun h => ⟨[], cs, by rw [hc]; rfl, List.not_mem_nil, h⟩
  · rw [if_neg hc]
    constructor
    · rintro ⟨inner, rest, happend, hinner, hrest⟩
      cases inner with
      | nil => exact absurd (List.cons.inj happend).1 hc
      | cons d inner =>
        obtain ⟨rfl, rfl⟩ := List.cons.inj happend
        exact ⟨inner, rest, rfl, fun h => hinner (List.mem_cons_of_mem _ h), hrest⟩
    · rintro ⟨inner, rest, rfl, hinner, hrest⟩
      exact ⟨c :: inner, rest, rfl, List.not_mem_cons_of_ne_of_not_mem (Ne.symm hc) hinner, hrest⟩

/-- Outside the quotes a character that is no parenthesis may open one. -/
theorem groupRest_none_cons {c : Char} {cs : List Char} :
    GroupRest none (c :: cs) ↔ c ≠ '(' ∧ c ≠ ')' ∧ GroupRest (Quote.ofChar? c) cs := by
  constructor
  · rintro (_ | ⟨hquote, hopen, hclose, hcs⟩ | ⟨hbody, hcs⟩)
    · rw [hquote]
      exact ⟨hopen, hclose, hcs⟩
    · rename_i q body cs
      rw [Quote.ofChar?_mark]
      refine ⟨?_, ?_, body, cs, rfl, hbody, hcs⟩ <;> cases q <;> decide
  · rintro ⟨hopen, hclose, hrest⟩
    cases hquote : Quote.ofChar? c with
    | none =>
      rw [hquote] at hrest
      exact .plain hquote hopen hclose hrest
    | some q =>
      rw [hquote] at hrest
      obtain ⟨inner, rest, rfl, hinner, hrest⟩ := hrest
      rw [Quote.eq_mark_of_ofChar? hquote]
      exact .quoted hinner hrest

namespace Token

/-- **Where a group ends**: at the first closing parenthesis outside its quoted stretches. -/
theorem cutGroup_eq_ok_iff {start seen : Nat} {within : Option Quote} {cs body after : List Char} :
    cutGroup start within seen cs = .ok (body, after) ↔
      cs = body ++ ')' :: after ∧ GroupRest within body := by
  -- every character may open or close a stretch, so `within` changes along the text
  induction cs generalizing within seen body with
  | nil => cases within <;> simp [cutGroup]
  | cons c rest ih =>
    cases within with
    | some q =>
      constructor
      · intro h
        rw [cutGroup] at h
        split at h
        · rename_i hcut
          cases h
          obtain ⟨rfl, hrest⟩ := ih.mp hcut
          exact ⟨rfl, groupRest_some_cons.mpr hrest⟩
        · cases h
      · rintro ⟨happend, hrest⟩
        cases body with
        | nil => simp [GroupRest] at hrest
        | cons d body =>
          obtain ⟨rfl, rfl⟩ := List.cons.inj happend
          rw [cutGroup, ih.mpr ⟨rfl, groupRest_some_cons.mp hrest⟩]
    | none =>
      constructor
      · intro h
        rw [cutGroup] at h
        split at h
        · rename_i hclose
          cases h
          exact ⟨by rw [hclose]; rfl, .nil⟩
        split at h
        · cases h
        split at h
        · rename_i hclose hopen _ _ _ hcut
          cases h
          obtain ⟨rfl, hrest⟩ := ih.mp hcut
          exact ⟨rfl, groupRest_none_cons.mpr ⟨hopen, hclose, hrest⟩⟩
        · cases h
      · rintro ⟨happend, hrest⟩
        cases body with
        | nil =>
          obtain ⟨rfl, rfl⟩ := List.cons.inj happend
          rw [cutGroup, if_pos rfl]
        | cons d body =>
          obtain ⟨rfl, rfl⟩ := List.cons.inj happend
          obtain ⟨hopen, hclose, hrest⟩ := groupRest_none_cons.mp hrest
          rw [cutGroup, if_neg hclose, if_neg hopen, ih.mpr ⟨rfl, hrest⟩]

end Token

/-! ### The text of a token -/

/-- A text between the two marks of a quote. -/
def Quote.enclose (q : Quote) (cs : List Char) : List Char :=
  q.mark :: (cs ++ [q.mark])

theorem Quote.enclose_append (q : Quote) (cs after : List Char) :
    q.enclose cs ++ after = q.mark :: (cs ++ q.mark :: after) := by
  simp [enclose]

namespace TokenKind

/-- **The texts that a token is written with.** -/
inductive Written : TokenKind → List Char → Prop
  /-- A quoted text does not hold its own quote. -/
  | quoted {q : Quote} {cs : List Char} : q ≠ .regex → q.mark ∉ cs →
    Written (.quoted (String.ofList cs)) (q.enclose cs)
  /-- A regular expression does not hold a slash. -/
  | regex {cs : List Char} : Quote.regex.mark ∉ cs →
    Written (.regex (String.ofList cs)) (Quote.regex.enclose cs)
  /-- A group stands between its parentheses. -/
  | group {cs : List Char} : GroupBody cs →
    Written (.group (String.ofList cs)) ('(' :: (cs ++ [')']))
  /-- A word is written as it is. -/
  | word {cs : List Char} : IsWord cs → Written (.word (String.ofList cs)) cs
  /-- The mark `-`. -/
  | minus : Written .minus ['-']
  /-- The mark `!`. -/
  | bang : Written .bang ['!']
  /-- A comparison is written with its symbol. -/
  | comparison (c : Comparison) : Written (.comparison c) c.chars

/-- The character makes a longer token of this one. -/
def isProlongedBy : TokenKind → Char → Bool
  | word _, d => isWordChar d
  | bang, d => d == '='
  | comparison c, d => c.isProlongedBy d
  | _, _ => false

/-- The token ends here: what follows does not prolong it. -/
def EndsBefore (k : TokenKind) (after : List Char) : Prop :=
  ∀ d ∈ after.head?, k.isProlongedBy d = false

/-- The width of a token is that of its text. -/
theorem Written.width_eq {k : TokenKind} {cs : List Char} (h : k.Written cs) :
    k.width = byteLength cs := by
  cases h with
  | quoted =>
    rename_i q cs _ _
    have hmark : q.mark.utf8Size = 1 := by cases q <;> rfl
    simp only [width, Quote.enclose, byteLength_cons, byteLength_append, byteLength_nil,
      String.toList_ofList, hmark]
    omega
  | regex =>
    have hmark : Quote.regex.mark.utf8Size = 1 := rfl
    simp only [width, Quote.enclose, byteLength_cons, byteLength_append, byteLength_nil,
      String.toList_ofList, hmark]
    omega
  | group =>
    have hopen : '('.utf8Size = 1 := rfl
    have hclose : ')'.utf8Size = 1 := rfl
    simp only [width, byteLength_cons, byteLength_append, byteLength_nil, String.toList_ofList,
      hopen, hclose]
    omega
  | word => simp [width]
  | minus => rfl
  | bang => rfl
  | comparison => rfl

/-- A token begins with a character that is no blank. -/
theorem Written.exists_cons {k : TokenKind} {cs : List Char} (h : k.Written cs) :
    ∃ c rest, cs = c :: rest ∧ isBlank c = false := by
  cases h with
  | quoted =>
    rename_i q cs _ _
    exact ⟨q.mark, cs ++ [q.mark], rfl, by cases q <;> decide⟩
  | regex => exact ⟨'/', _, rfl, by decide⟩
  | group => exact ⟨'(', _, rfl, by decide⟩
  | word hword =>
    obtain ⟨hne, hword⟩ := hword
    obtain ⟨c, rest, rfl⟩ := List.exists_cons_of_ne_nil hne
    exact ⟨c, rest, rfl, isBlank_eq_false_of_isWordChar (hword c List.mem_cons_self)⟩
  | minus => exact ⟨'-', [], rfl, by decide⟩
  | bang => exact ⟨'!', [], rfl, by decide⟩
  | comparison c => cases c <;> exact ⟨_, _, rfl, by decide⟩

end TokenKind

namespace Token

/-- What is read is a longest token. -/
theorem written_of_read {start : Nat} {c : Char} {rest after : List Char} {k : TokenKind}
    (h : read start c rest = .ok (k, after)) :
    ∃ cs, k.Written cs ∧ c :: rest = cs ++ after ∧ k.EndsBefore after := by
  -- one case for each rule of the reader, in its order
  unfold read at h
  split at h
  · rename_i hquote
    split at h
    · rename_i hcut
      cases h
      obtain ⟨hbody, rfl⟩ := cutAtMark?_eq_some_iff.mp hcut
      obtain ⟨q, hq, rfl⟩ : ∃ q : Quote, q ≠ .regex ∧ c = q.mark := by
        rcases hquote with rfl | rfl
        · exact ⟨.double, by decide, rfl⟩
        · exact ⟨.single, by decide, rfl⟩
      exact ⟨_, .quoted hq hbody, by simp [Quote.enclose], fun d _ => rfl⟩
    · cases h
  split at h
  · rename_i hslash
    split at h
    · rename_i hcut
      cases h
      obtain ⟨hbody, rfl⟩ := cutAtMark?_eq_some_iff.mp hcut
      subst hslash
      exact ⟨_, .regex hbody, by simp [Quote.enclose, Quote.mark], fun d _ => rfl⟩
    · cases h
  split at h
  · rename_i hopen
    split at h
    · rename_i hcut
      cases h
      obtain ⟨rfl, hbody⟩ := cutGroup_eq_ok_iff.mp hcut
      exact ⟨_, .group hbody, by simp [hopen], fun d _ => rfl⟩
    · cases h
  split at h
  · cases h
  split at h
  · rename_i hminus
    cases h
    exact ⟨_, .minus, by simp [hminus], fun d _ => rfl⟩
  split at h
  · rename_i hread
    cases h
    obtain ⟨happend, hend⟩ := Comparison.read?_eq_some_iff.mp hread
    exact ⟨_, .comparison _, happend, hend⟩
  split at h
  · rename_i hread hbang
    cases h
    refine ⟨_, .bang, by simp [hbang], fun d hd => ?_⟩
    obtain ⟨tail, rfl⟩ := List.head?_eq_some_iff.mp hd
    simp only [TokenKind.isProlongedBy, beq_eq_false_iff_ne]
    rintro rfl
    rw [hbang] at hread
    cases hread
  split at h
  · rename_i hword
    cases h
    refine ⟨_, .word ⟨List.cons_ne_nil _ _, fun d hd => ?_⟩, by simp, fun d hd => ?_⟩
    · rcases List.mem_cons.mp hd with rfl | hd
      · exact hword
      · exact List.mem_takeWhile_imp hd
    · exact eq_false_of_head?_dropWhile hd
  · cases h

/-- A longest token is read. -/
theorem read_of_written {start : Nat} {c : Char} {rest cs after : List Char} {k : TokenKind}
    (hk : k.Written cs) (happend : c :: rest = cs ++ after) (hend : k.EndsBefore after) :
    read start c rest = .ok (k, after) := by
  cases hk with
  | quoted hq hbody =>
    rename_i q body
    rw [Quote.enclose_append] at happend
    obtain ⟨rfl, rfl⟩ := List.cons.inj happend
    have hquote : q.mark = '"' ∨ q.mark = '\'' := by
      cases q with
      | double => exact .inl rfl
      | single => exact .inr rfl
      | regex => exact absurd rfl hq
    rw [read, if_pos hquote, cutAtMark?_append hbody]
  | regex hbody =>
    rw [Quote.enclose_append] at happend
    obtain ⟨rfl, rfl⟩ := List.cons.inj happend
    rw [read, if_neg (by decide), if_pos (by decide), cutAtMark?_append hbody]
  | group hbody =>
    rw [List.cons_append, List.append_assoc, List.singleton_append] at happend
    obtain ⟨rfl, rfl⟩ := List.cons.inj happend
    have hcut : cutGroup start none (start + 1) (_ ++ ')' :: after) = .ok (_, after) :=
      cutGroup_eq_ok_iff.mpr ⟨rfl, hbody⟩
    rw [read, if_neg (by decide), if_neg (by decide), if_pos rfl, hcut]
  | word hword =>
    obtain ⟨hne, hword⟩ := hword
    obtain ⟨d, tail, rfl⟩ := List.exists_cons_of_ne_nil hne
    rw [List.cons_append] at happend
    obtain ⟨rfl, rfl⟩ := List.cons.inj happend
    have hc : isWordChar c = true := hword c List.mem_cons_self
    have htail : ∀ d ∈ tail, isWordChar d = true := fun d hd =>
      hword d (List.mem_cons_of_mem _ hd)
    -- a word character begins none of the tokens that are tried before words
    have hquote : ¬(c = '"' ∨ c = '\'') := by
      rintro (rfl | rfl) <;> exact absurd hc (by decide)
    rw [read, if_neg hquote, if_neg (ne_of_isWordChar hc (by decide)),
      if_neg (ne_of_isWordChar hc (by decide)), if_neg (ne_of_isWordChar hc (by decide)),
      if_neg (ne_of_isWordChar hc (by decide)), Comparison.read?_eq_none_of_isWordChar hc]
    simp only
    rw [if_neg (ne_of_isWordChar hc (by decide)), if_pos hc,
      takeWhile_append_of_head? htail hend, dropWhile_append_of_head? htail hend]
  | minus =>
    rw [List.singleton_append] at happend
    obtain ⟨rfl, rfl⟩ := List.cons.inj happend
    rw [read, if_neg (by decide), if_neg (by decide), if_neg (by decide), if_neg (by decide),
      if_pos rfl]
  | bang =>
    rw [List.singleton_append] at happend
    obtain ⟨rfl, rfl⟩ := List.cons.inj happend
    have hread : Comparison.read? ('!' :: rest) = none := by
      cases rest with
      | nil => rfl
      | cons d tail =>
        have hd : d ≠ '=' := by simpa [TokenKind.isProlongedBy] using hend d rfl
        simp [Comparison.read?, hd]
    rw [read, if_neg (by decide), if_neg (by decide), if_neg (by decide), if_neg (by decide),
      if_neg (by decide), hread]
    rfl
  | comparison symbol =>
    have hread : Comparison.read? (c :: rest) = some (symbol, after) := by
      rw [happend]
      exact Comparison.read?_append hend
    obtain ⟨hquote, hslash, hopen, hclose, hminus⟩ :
        ¬(c = '"' ∨ c = '\'') ∧ c ≠ '/' ∧ c ≠ '(' ∧ c ≠ ')' ∧ c ≠ '-' := by
      cases symbol <;> cases happend <;> decide
    rw [read, if_neg hquote, if_neg hslash, if_neg hopen, if_neg hclose, if_neg hminus, hread]

/-- **A text splits into tokens**: it consists of blanks and of the texts of the tokens, each of
which is as long as it can be. The text starts at the byte position `position`. -/
inductive Splits : (position : Nat) → List Char → List Token → Prop
  /-- The empty text holds no tokens. -/
  | nil {position : Nat} : Splits position [] []
  /-- A blank belongs to no token. -/
  | blank {position : Nat} {c : Char} {cs : List Char} {ts : List Token} :
    isBlank c = true → Splits (position + c.utf8Size) cs ts → Splits position (c :: cs) ts
  /-- A token stands at its position. -/
  | token {position : Nat} {k : TokenKind} {cs after : List Char} {ts : List Token} :
    k.Written cs → k.EndsBefore after → Splits (position + k.width) after ts →
    Splits position (cs ++ after) (⟨k, position⟩ :: ts)

section Reading

variable {position : Nat} {c : Char} {rest after : List Char} {k : TokenKind} {e : LexError}

/-- One token is read, and then those after it. -/
theorem tokensFrom_of_read (hblank : ¬isBlank c = true)
    (hread : read position c rest = .ok (k, after)) :
    tokensFrom position (c :: rest) =
      (tokensFrom (position + k.width) after).map (⟨k, position⟩ :: ·) := by
  rw [tokensFrom, if_neg hblank]
  split
  · rename_i herror
    rw [hread] at herror
    cases herror
  · rename_i hok
    rw [hread] at hok
    cases hok
    cases tokensFrom (position + k.width) after <;> rfl

/-- The first fault is that of the text. -/
theorem tokensFrom_of_read_error (hblank : ¬isBlank c = true)
    (hread : read position c rest = .error e) : tokensFrom position (c :: rest) = .error e := by
  rw [tokensFrom, if_neg hblank]
  split
  · rename_i herror
    rw [hread] at herror
    cases herror
    rfl
  · rename_i hok
    rw [hread] at hok
    cases hok

end Reading

/-- **The tokens that are read** are those that the text splits into. -/
theorem tokensFrom_eq_ok_iff {position : Nat} {cs : List Char} {ts : List Token} :
    tokensFrom position cs = .ok ts ↔ Splits position cs ts := by
  constructor
  · intro h
    fun_induction tokensFrom position cs generalizing ts with
    | case1 =>
      cases h
      exact .nil
    | case2 position c rest hblank ih => exact .blank hblank (ih h)
    | case3 | case4 => cases h
    | case5 position c rest _ k after hread following hfollowing ih =>
      cases h
      obtain ⟨cs, hk, happend, hend⟩ := written_of_read hread
      rw [happend]
      exact .token hk hend (ih hfollowing)
  · intro h
    induction h with
    | nil => rw [tokensFrom]
    | blank hblank _ ih => rw [tokensFrom, if_pos hblank, ih]
    | @token position k cs after ts hk hend _ ih =>
      obtain ⟨c, rest, rfl, hc⟩ := hk.exists_cons
      have hread : read position c (rest ++ after) = .ok (k, after) := read_of_written hk rfl hend
      rw [List.cons_append, tokensFrom_of_read (by simp [hc]) hread, ih]
      rfl

/-! ### Splitting from a place on -/

namespace Splits

/-- Only blanks hold no tokens. -/
theorem nil_iff {position : Nat} {cs : List Char} : Splits position cs [] ↔ Blanks cs := by
  constructor
  · intro h
    generalize hts : ([] : List Token) = ts at h
    induction h with
    | nil => exact blanks_nil
    | blank hblank _ ih => exact blanks_cons.mpr ⟨hblank, ih hts⟩
    | token => cases hts
  · intro h
    induction cs generalizing position with
    | nil => exact .nil
    | cons c cs ih =>
      obtain ⟨hc, hcs⟩ := blanks_cons.mp h
      exact .blank hc (ih hcs)

/-- Blanks before a text change only the positions. -/
theorem append_blanks {position : Nat} {lead cs : List Char} {ts : List Token}
    (hlead : Blanks lead) (h : Splits (position + byteLength lead) cs ts) :
    Splits position (lead ++ cs) ts := by
  induction lead generalizing position with
  | nil => exact h
  | cons c lead ih =>
    obtain ⟨hc, hlead⟩ := blanks_cons.mp hlead
    refine .blank hc (ih hlead ?_)
    rwa [byteLength_cons, ← Nat.add_assoc] at h

/-- The first token stands after some blanks. -/
theorem exists_blanks {position : Nat} {cs : List Char} {t : Token} {ts : List Token}
    (h : Splits position cs (t :: ts)) :
    ∃ lead rest, cs = lead ++ rest ∧ Blanks lead ∧ t.start = position + byteLength lead ∧
      Splits t.start rest (t :: ts) := by
  generalize hts : t :: ts = all at h
  induction h with
  | nil => cases hts
  | @blank position c cs _ hblank _ ih =>
    obtain ⟨lead, rest, rfl, hlead, hstart, hrest⟩ := ih hts
    refine ⟨c :: lead, rest, rfl, blanks_cons.mpr ⟨hblank, hlead⟩, ?_, hrest⟩
    rw [hstart, byteLength_cons, Nat.add_assoc]
  | @token position k cs after following hk hend hafter _ =>
    cases hts
    exact ⟨[], cs ++ after, rfl, blanks_nil, rfl, .token hk hend hafter⟩

/-- **A token that stands at the very start** of a text is what the text begins with. -/
theorem cons_iff {position : Nat} {k : TokenKind} {cs : List Char} {ts : List Token} :
    Splits position cs (⟨k, position⟩ :: ts) ↔
      ∃ word after, cs = word ++ after ∧ k.Written word ∧ k.EndsBefore after ∧
        Splits (position + byteLength word) after ts := by
  constructor
  · intro h
    cases h with
    -- with a blank first the token would start further to the right
    | blank hblank h =>
      rename_i c cs
      obtain ⟨lead, rest, -, -, hstart, -⟩ := h.exists_blanks
      have := c.utf8Size_pos
      simp only at hstart
      omega
    | token hk hend h =>
      rw [hk.width_eq] at h
      exact ⟨_, _, rfl, hk, hend, h⟩
  · rintro ⟨word, after, rfl, hk, hend, h⟩
    rw [← hk.width_eq] at h
    exact .token hk hend h

end Splits

/-- The token, further to the right. -/
def shift (distance : Nat) (t : Token) : Token :=
  ⟨t.kind, t.start + distance⟩

@[simp] theorem kind_shift (distance : Nat) (t : Token) : (t.shift distance).kind = t.kind := rfl

@[simp] theorem start_shift (distance : Nat) (t : Token) :
    (t.shift distance).start = t.start + distance := rfl

@[simp] theorem stop_shift (distance : Nat) (t : Token) :
    (t.shift distance).stop = t.stop + distance := by
  simp only [stop, kind_shift, start_shift]
  omega

/-- A text that starts further to the right splits in the same way. -/
theorem Splits.shift {position : Nat} {cs : List Char} {ts : List Token}
    (h : Splits position cs ts) (distance : Nat) :
    Splits (position + distance) cs (ts.map (Token.shift distance)) := by
  induction h with
  | nil => exact .nil
  | blank hblank _ ih =>
    refine .blank hblank ?_
    rwa [Nat.add_right_comm]
  | token hk hend _ ih =>
    refine .token hk hend ?_
    rwa [Nat.add_right_comm]

/-- **Where a text starts is only a matter of positions.** -/
theorem splits_add_iff {position distance : Nat} {cs : List Char} {ts : List Token} :
    Splits (position + distance) cs ts ↔
      ∃ us, Splits position cs us ∧ ts = us.map (Token.shift distance) := by
  constructor
  · intro h
    -- the position moves with every token, so the sum is named before the induction
    generalize hplace : position + distance = place at h
    induction h generalizing position with
    | nil => exact ⟨[], .nil, rfl⟩
    | blank hblank _ ih =>
      obtain ⟨us, hus, rfl⟩ := ih (by rw [← hplace, Nat.add_right_comm])
      exact ⟨us, .blank hblank hus, rfl⟩
    | token hk hend _ ih =>
      obtain ⟨us, hus, rfl⟩ := ih (by rw [← hplace, Nat.add_right_comm])
      exact ⟨_, .token hk hend hus, by rw [List.map_cons, ← hplace]; rfl⟩
  · rintro ⟨us, hus, rfl⟩
    exact hus.shift distance

end Token

end CardFilter
