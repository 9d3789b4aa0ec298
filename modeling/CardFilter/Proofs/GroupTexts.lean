import CardFilter.Proofs.TokenSlices

/-!
# The text of a group

A group is one token of the text that it stands in, and what stands between its parentheses is
split again when the group is read. This file shows that the surroundings have no part in it
(`CardFilter.Token.splits_alone_of_group`): the stretch between the parentheses splits as its text
does when it is taken out and stands alone, and all positions are moved by one distance, that of a
fault as those of the tokens.

* **Positions are only carried along.** The reader adds up the bytes that it has passed and never
  asks where it started (`CardFilter.Token.tokensFrom_add`). A fault is reported with the whole
  text, and the moved position is the one in there.
* **The look-ahead does not see more.** A comparison is looked for in the whole text, past the end
  of the stretch; but there stands a `)`, which makes no comparison longer
  (`CardFilter.Token.Splits.spansBetween?_group`).
* **The two readers keep in step.** When the group is cut out, a machine with one open quote goes
  through it character by character, and when it is split again, quoted stretches are cut out as a
  whole. What both see is a `CardFilter.GroupBody`. It begins with no parenthesis, and after a
  token the rest of it is one again (`CardFilter.GroupBody.of_written`). So no quote is left open
  and no group is opened or closed inside, and the one fault that remains is a character with which
  no token begins (`CardFilter.Token.exists_of_tokensFrom_error`).
-/

namespace CardFilter

/-- The fault, further to the right. -/
def LexError.shift (distance : Nat) (e : LexError) : LexError :=
  ⟨e.fault, e.position + distance⟩

/-! ### What is left of the text of a group -/

namespace GroupBody

variable {c : Char} {q : Quote} {cs word after : List Char} {k : TokenKind}

/-- What comes after a character that is no quote. -/
theorem tail (h : GroupBody (c :: cs)) (hc : Quote.ofChar? c = none) : GroupBody cs := by
  obtain ⟨-, -, hrest⟩ := groupRest_none_cons.mp h
  rwa [hc] at hrest

/-- What comes after a run of such characters. -/
theorem drop_left (h : GroupBody (word ++ after)) (hword : ∀ c ∈ word, Quote.ofChar? c = none) :
    GroupBody after := by
  induction word with
  | nil => exact h
  | cons c word ih =>
    obtain ⟨hc, hword⟩ := List.forall_mem_cons.mp hword
    exact ih (h.tail hc) hword

/-- **A quote that is opened is closed**, and what comes after it is the text of a group again. -/
theorem exists_cutAtMark? (h : GroupBody (q.mark :: cs)) :
    ∃ inner rest, cutAtMark? q.mark cs = some (inner, rest) ∧ GroupBody rest := by
  obtain ⟨-, -, hrest⟩ := groupRest_none_cons.mp h
  rw [Quote.ofChar?_mark] at hrest
  obtain ⟨inner, rest, rfl, hinner, hrest⟩ := hrest
  exact ⟨inner, rest, cutAtMark?_append hinner, hrest⟩

/-- A quoted stretch is passed over as a whole. -/
theorem of_enclose (h : GroupBody (q.enclose cs ++ after)) (hcs : q.mark ∉ cs) :
    GroupBody after := by
  rw [Quote.enclose_append] at h
  obtain ⟨inner, rest, hcut, hrest⟩ := h.exists_cutAtMark?
  obtain ⟨-, rfl⟩ := Prod.mk.inj (Option.some.inj ((cutAtMark?_append hcs).symm.trans hcut))
  exact hrest

/-- **A token at the front** is no group, and what comes after it is the text of a group again. -/
theorem of_written (h : GroupBody (word ++ after)) (hk : k.Written word) :
    (∀ body, k ≠ .group body) ∧ GroupBody after := by
  cases hk with
  | quoted _ hbody | regex hbody => exact ⟨by simp, h.of_enclose hbody⟩
  | group => exact absurd rfl (groupRest_none_cons.mp h).1
  | word hword =>
    exact ⟨by simp, h.drop_left fun c hc => Quote.ofChar?_of_isWordChar (hword.2 c hc)⟩
  | minus | bang => exact ⟨by simp, h.drop_left (by simp [Quote.ofChar?])⟩
  | comparison symbol =>
    exact ⟨by simp, h.drop_left (by cases symbol <;> simp [Comparison.chars, Quote.ofChar?])⟩

end GroupBody

namespace Token

/-- **What comes of a text** that stands further to the right: the tokens or the fault, moved. -/
def shiftOutcome (distance : Nat) (outcome : Except LexError (List Token)) :
    Except LexError (List Token) :=
  (outcome.mapError (LexError.shift distance)).map (List.map (shift distance))

/-! ### Positions are only carried along -/

section Positions

variable {position : Nat} {c : Char} {cs rest after : List Char} {k : TokenKind} {e : LexError}

theorem cutGroup_add (start seen distance : Nat) (within : Option Quote) (cs : List Char) :
    cutGroup (start + distance) within (seen + distance) cs =
      (cutGroup start within seen cs).mapError (LexError.shift distance) := by
  induction cs generalizing within seen with
  | nil => cases within <;> rfl
  | cons c rest ih =>
    cases within with
    | some q =>
      rw [cutGroup, cutGroup, Nat.add_right_comm, ih]
      rcases cutGroup start _ _ rest with e | ⟨body, after⟩ <;> rfl
    | none =>
      rw [cutGroup, cutGroup]
      split
      · rfl
      split
      · rfl
      rw [Nat.add_right_comm, ih]
      rcases cutGroup start _ _ rest with e | ⟨body, after⟩ <;> rfl

theorem read_add (start distance : Nat) (c : Char) (rest : List Char) :
    read (start + distance) c rest =
      (read start c rest).mapError (LexError.shift distance) := by
  rw [read, read, Nat.add_right_comm, cutGroup_add]
  split
  · cases cutAtMark? c rest <;> rfl
  split
  · cases cutAtMark? c rest <;> rfl
  split
  · rcases cutGroup start none (start + 1) rest with e | ⟨body, after⟩ <;> rfl
  split
  · rfl
  split
  · rfl
  cases Comparison.read? (c :: rest) with
  | some r => rfl
  | none =>
    simp only
    split
    · rfl
    split <;> rfl

/-- **A text that stands further to the right** has the same tokens or the same fault. -/
theorem tokensFrom_add (position distance : Nat) (cs : List Char) :
    tokensFrom (position + distance) cs = shiftOutcome distance (tokensFrom position cs) := by
  fun_induction tokensFrom position cs with
  | case1 =>
    rw [tokensFrom]
    rfl
  | case2 position c rest hblank ih => rw [tokensFrom, if_pos hblank, Nat.add_right_comm, ih]
  | case3 position c rest hblank e hread =>
    refine tokensFrom_of_read_error hblank ?_
    rw [read_add, hread]
    rfl
  | case4 position c rest hblank k after hread e hfollowing ih
  | case5 position c rest hblank k after hread following hfollowing ih =>
    have hmoved : read (position + distance) c rest = .ok (k, after) := by
      rw [read_add, hread]
      rfl
    rw [tokensFrom_of_read hblank hmoved, Nat.add_right_comm, ih, hfollowing]
    rfl

end Positions

/-! ### What can go wrong in the text of a group -/

section Faults

variable {position start : Nat} {c : Char} {cs rest : List Char} {ts : List Token} {e : LexError}
  {body : String}

/-- **No group stands in the text of a group.** -/
theorem Splits.ne_group (h : Splits position cs ts) (hcs : GroupBody cs) :
    ∀ t ∈ ts, ∀ inner, t.kind ≠ .group inner := by
  induction h with
  | nil => exact fun t ht => absurd ht List.not_mem_nil
  | blank hblank _ ih => exact ih (hcs.tail (Quote.ofChar?_of_isBlank hblank))
  | token hk _ _ ih =>
    obtain ⟨hne, hafter⟩ := hcs.of_written hk
    exact List.forall_mem_cons.mpr ⟨hne, ih hafter⟩

/-- No token begins with the character. -/
def BeginsNoToken (c : Char) : Prop :=
  ∀ k word, ¬TokenKind.Written k (c :: word)

/-- **At the front of the text of a group** every rule but the last one finds its token. -/
theorem unexpected_of_read_error (h : read start c rest = .error e) (hcs : GroupBody (c :: rest)) :
    BeginsNoToken c ∧ e = ⟨.unexpectedCharacter c, start⟩ := by
  obtain ⟨hopen, hclose, -⟩ := groupRest_none_cons.mp hcs
  have hcut : ∀ q : Quote, c = q.mark → cutAtMark? c rest ≠ none := by
    rintro q rfl hnone
    obtain ⟨_, _, hcut, -⟩ := hcs.exists_cutAtMark?
    cases hnone.symm.trans hcut
  rw [read, if_neg hopen, if_neg hclose] at h
  split at h
  · rename_i hquote
    split at h
    · cases h
    · rename_i hnone
      rcases hquote with hquote | hquote
      · exact absurd hnone (hcut .double hquote)
      · exact absurd hnone (hcut .single hquote)
  rename_i hquote
  split at h
  · rename_i hslash
    split at h
    · cases h
    · rename_i hnone
      exact absurd hnone (hcut .regex hslash)
  rename_i hslash
  split at h
  · cases h
  rename_i hminus
  split at h
  · cases h
  rename_i hread
  split at h
  · cases h
  rename_i hbang
  split at h
  · cases h
  rename_i hword
  cases h
  refine ⟨fun k word hk => ?_, rfl⟩
  have hbegins : Comparison.begins c = false :=
    (Comparison.read?_eq_none_iff.mp hread).resolve_right fun hlone => hbang hlone.1
  have hnone : Comparison.read? (c :: word) = none :=
    Comparison.read?_eq_none_iff.mpr (.inl hbegins)
  -- a token that begins with the character would be read where it stands alone
  have hok : read start c word = .ok (k, []) :=
    read_of_written hk (List.append_nil _).symm fun d hd => by cases hd
  rw [read, if_neg hquote, if_neg hslash, if_neg hopen, if_neg hclose, if_neg hminus, hnone] at hok
  simp only [if_neg hbang, if_neg hword] at hok
  cases hok

/-- **The one fault in the text of a group** is a character with which no token begins. -/
theorem exists_of_tokensFrom_error (h : tokensFrom position cs = .error e) (hcs : GroupBody cs) :
    ∃ before c after, cs = before ++ c :: after ∧ BeginsNoToken c ∧
      e = ⟨.unexpectedCharacter c, position + byteLength before⟩ := by
  fun_induction tokensFrom position cs with
  | case1 | case5 => cases h
  | case2 position c rest hblank ih =>
    obtain ⟨before, d, after, rfl, hd, rfl⟩ := ih h (hcs.tail (Quote.ofChar?_of_isBlank hblank))
    exact ⟨c :: before, d, after, rfl, hd, by rw [byteLength_cons, Nat.add_assoc]⟩
  | case3 position c rest hblank e' hread =>
    cases h
    obtain ⟨hc, he⟩ := unexpected_of_read_error hread hcs
    exact ⟨[], c, rest, rfl, hc, he⟩
  | case4 position c rest hblank k after hread e' hfollowing ih =>
    cases h
    obtain ⟨word, hword, happend, -⟩ := written_of_read hread
    rw [happend] at hcs ⊢
    obtain ⟨before, d, rear, rfl, hd, rfl⟩ := ih hfollowing (hcs.of_written hword).2
    refine ⟨word ++ before, d, rear, (List.append_assoc _ _ _).symm, hd, ?_⟩
    rw [byteLength_append, hword.width_eq, Nat.add_assoc]

/-- What stands between the parentheses of a group is the text of a group. -/
theorem Splits.groupBody (h : Splits position cs ts) (hg : (⟨.group body, start⟩ : Token) ∈ ts) :
    GroupBody body.toList := by
  obtain ⟨-, word, -, -, -, hword, -⟩ := h.exists_written hg
  cases hword with
  | group hbody => rwa [String.toList_ofList]

end Faults

/-- **A group splits as its text does alone.** The stretch between the parentheses of a group,
read within the whole text, gives the tokens or the fault of its text, moved by the place where it
stands; and so does the text of the group, which is what the group is read from. No group stands in
it, and where it has a fault, this is a character with which no token begins. -/
theorem splits_alone_of_group {text body : String} {ts : List Token} {g : Token}
    (h : tokens text = .ok ts) (hg : g ∈ ts) (hbody : g.kind = .group body) :
    spansBetween? g.innerStart (g.stop - 1) text.toList =
        some ((shiftOutcome g.innerStart (tokens body)).map (·.map span)) ∧
      tokensFrom g.innerStart body.toList = shiftOutcome g.innerStart (tokens body) ∧
      (∀ us, tokensFrom g.innerStart body.toList = .ok us →
        ∀ u ∈ us, ∀ inner, u.kind ≠ .group inner) ∧
      ∀ e, tokensFrom g.innerStart body.toList = .error e →
        ∃ before c after, body.toList = before ++ c :: after ∧ BeginsNoToken c ∧
          e = ⟨.unexpectedCharacter c, g.innerStart + byteLength before⟩ := by
  obtain ⟨k, start⟩ := g
  obtain rfl : k = .group body := hbody
  have hsplits : Splits 0 text.toList ts := tokensFrom_eq_ok_iff.mp h
  have hgroup := hsplits.groupBody hg
  have hmoved : tokensFrom (innerStart ⟨.group body, start⟩) body.toList =
      shiftOutcome (innerStart ⟨.group body, start⟩) (tokens body) := by
    rw [tokens, ← tokensFrom_add, Nat.zero_add]
  refine ⟨?_, hmoved, fun us hus => (tokensFrom_eq_ok_iff.mp hus).ne_group hgroup,
    fun e he => exists_of_tokensFrom_error he hgroup⟩
  rw [← hmoved]
  exact hsplits.spansBetween?_group hg

/-- Two groups: one with a parenthesis between quotes and a comparison at its end, which does not
reach past it, and one with a fault. -/
theorem splits_alone_of_group_two :
    let text := "(name:\"a)b\" c>=) (cmc=2.5)"
    let first : Token := ⟨.group "name:\"a)b\" c>=", 0⟩
    let second : Token := ⟨.group "cmc=2.5", 17⟩
    tokens text = .ok [first, second] ∧
      spansBetween? first.innerStart (first.stop - 1) text.toList = some (.ok (List.map span
        [⟨.word "name", 1⟩, ⟨.comparison .including, 5⟩, ⟨.quoted "a)b", 6⟩, ⟨.word "c", 12⟩,
          ⟨.comparison .greaterOrEqual, 13⟩])) ∧
      spansBetween? second.innerStart (second.stop - 1) text.toList =
        some (.error ⟨.unexpectedCharacter '.', 23⟩) := by
  intro text first second
  have htokens : tokens text = .ok [first, second] := by decide +kernel
  have hfirst : tokens "name:\"a)b\" c>=" = .ok [⟨.word "name", 0⟩, ⟨.comparison .including, 4⟩,
      ⟨.quoted "a)b", 5⟩, ⟨.word "c", 11⟩, ⟨.comparison .greaterOrEqual, 12⟩] := by decide +kernel
  have hsecond : tokens "cmc=2.5" = .error ⟨.unexpectedCharacter '.', 5⟩ := by decide +kernel
  obtain ⟨hspans, -⟩ := splits_alone_of_group htokens (.head _) rfl
  obtain ⟨hfault, -⟩ := splits_alone_of_group htokens (.tail _ (.head _)) rfl
  rw [hfirst] at hspans
  rw [hsecond] at hfault
  exact ⟨htokens, hspans, hfault⟩

end Token

end CardFilter
