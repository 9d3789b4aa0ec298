import CardFilter.Proofs.FaultPlaces

/-!
# Where the tokens of a text stand

A token is known by its kind and by the byte position where it starts, and what it was read from
can be looked up in the text. This file says of a text and its tokens, by positions only, that
nothing is lost between the two (`CardFilter.Token.Lossless`): the tokens stand in order between
borders of the text, each is spelled where it stands, none could be longer, and all that they leave
out is blank.

The main statement is `CardFilter.Token.tokens_eq_ok_iff_lossless`: the tokens that are read are
the only ones of which all this can be said. So a text can be put together again from its tokens,
up to the blanks between them, and a list of tokens with these properties is what the reader finds.

The relation `CardFilter.Token.Splits` goes through the text from the left, and positions are
absolute; the passage between the two is one fact about two cuts of one text
(`CardFilter.exists_append_of_byteLength_le`).
-/

namespace CardFilter

/-- **A symbol is the longest one that stands here** when no character prolongs it. -/
theorem Comparison.isProlongedBy_eq_false_iff {c : Comparison} {after : List Char} :
    (∀ d ∈ after.head?, c.isProlongedBy d = false) ↔
      ∀ longer : Comparison, longer.chars <+: c.chars ++ after →
        longer.chars.length ≤ c.chars.length := by
  constructor
  · rintro h longer ⟨tail, htail⟩
    by_contra hlonger
    -- a longer symbol ends with `=`, and that would prolong the shorter one
    cases c <;> cases longer <;> simp [chars] at htail hlonger
    all_goals
      have hequal := h '=' (by rw [← htail]; rfl)
      cases hequal
  · intro h d hd
    obtain ⟨tail, rfl⟩ := List.head?_eq_some_iff.mp hd
    rw [Bool.eq_false_iff]
    intro hprolonged
    cases c with
    | less =>
      obtain rfl : d = '=' := by simpa [isProlongedBy] using hprolonged
      exact absurd (h .lessOrEqual ⟨tail, rfl⟩) (by decide)
    | greater =>
      obtain rfl : d = '=' := by simpa [isProlongedBy] using hprolonged
      exact absurd (h .greaterOrEqual ⟨tail, rfl⟩) (by decide)
    | _ => cases hprolonged

/-! ### The spelling of a token -/

/-- **What a token is spelled with**, where `after` comes next: its text between its delimiters,
which the text does not hold; word characters, all that stand there; or its symbol, the longest one
that stands there. -/
def TokenKind.Spelled : TokenKind → (slice after : List Char) → Prop
  | quoted s, slice, _ => ∃ q : Quote, q ≠ .regex ∧ slice = q.enclose s.toList ∧ q.mark ∉ s.toList
  | regex s, slice, _ => slice = Quote.regex.enclose s.toList ∧ Quote.regex.mark ∉ s.toList
  | group s, slice, _ => slice = '(' :: (s.toList ++ [')']) ∧ GroupBody s.toList
  | word s, slice, after =>
    slice = s.toList ∧ IsWord slice ∧ ∀ d ∈ after.head?, isWordChar d = false
  | minus, slice, _ => slice = ['-']
  | bang, slice, after => slice = ['!'] ∧ ∀ d ∈ after.head?, d ≠ '='
  | comparison c, slice, after => slice = c.chars ∧ ∀ longer : Comparison,
      longer.chars <+: slice ++ after → longer.chars.length ≤ c.chars.length

theorem TokenKind.spelled_iff {k : TokenKind} {slice after : List Char} :
    k.Spelled slice after ↔ k.Written slice ∧ k.EndsBefore after := by
  constructor
  · intro h
    cases k with
    | quoted s =>
      obtain ⟨q, hq, rfl, hs⟩ := h
      exact ⟨by simpa only [String.ofList_toList] using Written.quoted hq hs, fun _ _ => rfl⟩
    | regex s =>
      obtain ⟨rfl, hs⟩ := h
      exact ⟨by simpa only [String.ofList_toList] using Written.regex hs, fun _ _ => rfl⟩
    | group s =>
      obtain ⟨rfl, hs⟩ := h
      exact ⟨by simpa only [String.ofList_toList] using Written.group hs, fun _ _ => rfl⟩
    | word s =>
      obtain ⟨rfl, hs, hafter⟩ := h
      exact ⟨by simpa only [String.ofList_toList] using Written.word hs, hafter⟩
    | minus =>
      obtain rfl := h
      exact ⟨.minus, fun _ _ => rfl⟩
    | bang =>
      obtain ⟨rfl, hafter⟩ := h
      exact ⟨.bang, fun d hd => beq_eq_false_iff_ne.mpr (hafter d hd)⟩
    | comparison c =>
      obtain ⟨rfl, hlongest⟩ := h
      exact ⟨.comparison c, Comparison.isProlongedBy_eq_false_iff.mpr hlongest⟩
  · rintro ⟨hk, hend⟩
    cases hk with
    | quoted hq hbody => exact ⟨_, hq, by simp, by simpa using hbody⟩
    | regex hbody => exact ⟨by simp, by simpa using hbody⟩
    | group hbody => exact ⟨by simp, by simpa using hbody⟩
    | word hword => exact ⟨by simp, hword, hend⟩
    | minus => rfl
    | bang => exact ⟨rfl, fun d hd => beq_eq_false_iff_ne.mp (hend d hd)⟩
    | comparison c => exact ⟨rfl, Comparison.isProlongedBy_eq_false_iff.mp hend⟩

namespace Token

/-! ### What a text and its tokens have in common -/

/-- **Nothing is lost** between a text and its tokens. -/
structure Lossless (cs : List Char) (ts : List Token) : Prop where
  /-- Every token takes a byte at least. -/
  nonempty : ∀ t ∈ ts, t.start < t.stop
  /-- It stands between two borders of the text. -/
  border : ∀ t ∈ ts, IsBorder 0 cs t.start ∧ IsBorder 0 cs t.stop
  /-- The tokens come in order and do not overlap. -/
  ordered : ts.Pairwise fun t u => t.stop ≤ u.start
  /-- A character outside all of them is blank. -/
  blank (before : List Char) (c : Char) (after : List Char) : cs = before ++ c :: after →
    (∀ t ∈ ts, byteLength before < t.start ∨ t.stop ≤ byteLength before) → isBlank c = true
  /-- The slice where a token stands spells it. -/
  spelled : ∀ t ∈ ts, ∃ slice after, textBetween? t.start t.stop cs = some slice ∧
    textFrom? t.stop cs = some after ∧ t.kind.Spelled slice after

section Layout

variable {position : Nat} {cs front rest : List Char} {ts : List Token} {t : Token}

theorem Splits.start_lt_stop (h : Splits position cs ts) (ht : t ∈ ts) : t.start < t.stop := by
  obtain ⟨-, word, -, -, -, hword, -⟩ := h.exists_written ht
  obtain ⟨c, rest, rfl, -⟩ := hword.exists_cons
  rw [stop, hword.width_eq]
  exact Nat.lt_add_of_pos_right (byteLength_pos (List.cons_ne_nil _ _))

theorem Splits.le_start (h : Splits position cs ts) (ht : t ∈ ts) : position ≤ t.start := by
  obtain ⟨before, -, -, -, hstart, -⟩ := h.exists_written ht
  exact hstart ▸ Nat.le_add_right _ _

theorem Splits.pairwise (h : Splits position cs ts) :
    ts.Pairwise fun t u => t.stop ≤ u.start := by
  induction h with
  | nil => exact .nil
  | blank _ _ ih => exact ih
  | token _ _ hafter ih => exact .cons (fun u hu => hafter.le_start hu) ih

/-- **Outside the tokens there are blanks only.** -/
theorem Splits.isBlank_of_outside (h : Splits position cs ts) {before after : List Char} {c : Char}
    (hcs : cs = before ++ c :: after)
    (houtside : ∀ t ∈ ts, position + byteLength before < t.start ∨
      t.stop ≤ position + byteLength before) : isBlank c = true := by
  induction h generalizing before with
  | nil => exact absurd hcs.symm (by simp)
  | @blank position d cs ts hblank _ ih =>
    rcases before with _ | ⟨e, before⟩
    · obtain ⟨rfl, -⟩ := List.cons.inj hcs
      exact hblank
    · obtain ⟨rfl, htail⟩ := List.cons.inj hcs
      simp only [byteLength_cons, ← Nat.add_assoc] at houtside
      exact ih htail houtside
  | @token position k word rest ts hk _ _ ih =>
    obtain ⟨hfirst, hothers⟩ := List.forall_mem_cons.mp houtside
    have hbehind : byteLength word ≤ byteLength before := by
      rw [← hk.width_eq]
      simp only [stop] at hfirst
      omega
    obtain ⟨mid, rfl, hrest⟩ := exists_append_of_byteLength_le hcs hbehind
    simp only [byteLength_append, ← hk.width_eq, ← Nat.add_assoc] at hothers
    exact ih hrest hothers

/-- **Tokens that stand in a text in order**, with blanks between them, are what it splits into.
What comes before the first of them has been passed already. -/
theorem splits_of_outside
    (hwritten : ∀ t ∈ ts, ∃ before word after, front ++ rest = before ++ (word ++ after) ∧
      t.start = byteLength before ∧ t.kind.Written word ∧ t.kind.EndsBefore after)
    (hordered : ts.Pairwise fun t u => t.stop ≤ u.start)
    (hfront : ∀ t ∈ ts, byteLength front ≤ t.start)
    (hblank : ∀ before c after, rest = before ++ c :: after →
      (∀ t ∈ ts, byteLength (front ++ before) < t.start ∨ t.stop ≤ byteLength (front ++ before)) →
        isBlank c = true) :
    Splits (byteLength front) rest ts := by
  induction ts generalizing front rest with
  | nil =>
    refine Splits.nil_iff.mpr fun c hc => ?_
    obtain ⟨before, after, rfl⟩ := List.append_of_mem hc
    exact hblank before c after rfl (by simp)
  | cons t ts ih =>
    obtain ⟨⟨before, word, after, htext, hstart, hk, hend⟩, hwritten⟩ :=
      List.forall_mem_cons.mp hwritten
    obtain ⟨hbehind, hordered⟩ := List.pairwise_cons.mp hordered
    obtain ⟨lead, rfl, rfl⟩ :=
      exists_append_of_byteLength_le htext (hstart ▸ hfront t List.mem_cons_self)
    have hstop : t.stop = byteLength (front ++ lead ++ word) := by
      rw [stop, hstart, hk.width_eq, byteLength_append _ word]
    -- what stands before the first token stands before all of them
    have hlead : Blanks lead := by
      intro c hc
      obtain ⟨before, rear, rfl⟩ := List.append_of_mem hc
      refine hblank before c (rear ++ (word ++ after)) (by simp) fun u hu => .inl ?_
      have hpos := c.utf8Size_pos
      have hle : t.start ≤ u.start := by
        rcases List.mem_cons.mp hu with rfl | hu
        · exact Nat.le_refl _
        · exact Nat.le_trans (Nat.le_add_right _ _) (hbehind u hu)
      refine Nat.lt_of_lt_of_le ?_ hle
      simp only [hstart, byteLength_append, byteLength_cons]
      omega
    have hafter : Splits (byteLength (front ++ lead ++ word)) after ts := by
      refine ih ?_ hordered (fun u hu => hstop ▸ hbehind u hu) ?_
      · simpa only [List.append_assoc] using hwritten
      · rintro before c rear rfl houtside
        refine hblank (lead ++ (word ++ before)) c rear (by simp) ?_
        rw [List.forall_mem_cons]
        simp only [List.append_assoc] at houtside
        refine ⟨.inr ?_, houtside⟩
        simp only [hstop, byteLength_append]
        omega
    refine .append_blanks hlead ?_
    obtain ⟨k, start⟩ := t
    obtain rfl : start = byteLength (front ++ lead) := hstart
    rw [← byteLength_append, Splits.cons_iff]
    exact ⟨word, after, rfl, hk, hend, by rwa [← byteLength_append]⟩

end Layout

/-- **Reading tokens loses nothing and takes as much as it can**: the tokens that are read are
those of which it can be said that they stand in the text in order, that each is spelled where it
stands and could not be longer, and that they leave out nothing but blanks. -/
theorem tokens_eq_ok_iff_lossless (text : String) (ts : List Token) :
    tokens text = .ok ts ↔ Lossless text.toList ts := by
  rw [tokens, tokensFrom_eq_ok_iff]
  constructor
  · intro h
    refine ⟨fun t ht => h.start_lt_stop ht, fun t ht => h.isBorder ht, h.pairwise,
      fun before c after hcs houtside => h.isBlank_of_outside hcs (by simpa using houtside),
      fun t ht => ?_⟩
    obtain ⟨before, word, after, hcs, hstart, hword, hend⟩ := h.exists_written ht
    rw [Nat.zero_add] at hstart
    refine ⟨word, after, ?_, ?_, TokenKind.spelled_iff.mpr ⟨hword, hend⟩⟩
    · rw [stop, hword.width_eq, hstart, hcs, textBetween?_append]
    · rw [stop, hword.width_eq, hstart, hcs, ← List.append_assoc, ← byteLength_append,
        textFrom?_append]
  · intro h
    have hsplits : Splits (byteLength []) text.toList ts := by
      refine splits_of_outside (fun t ht => ?_) h.ordered (fun t _ => Nat.zero_le _) h.blank
      obtain ⟨word, after, hslice, hafter, hspelled⟩ := h.spelled t ht
      obtain ⟨before, rear, hcs, hstart, hstop⟩ := textBetween?_eq_some_iff.mp hslice
      rw [hcs, ← List.append_assoc, ← hstop, textFrom?_append] at hafter
      obtain rfl := Option.some.inj hafter
      exact ⟨before, word, rear, hcs, hstart.symm, TokenKind.spelled_iff.mp hspelled⟩
    exact hsplits

end Token

end CardFilter
