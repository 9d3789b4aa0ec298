import CardFilter.Proofs.DraftSlices

/-!
# Where faults are reported

A report puts a caret below the text, which is indented by the characters before the position of
the fault. There is such a number only if the position is a border between two characters of the
text, and this file shows that it is, for every fault of the strict reading
(`CardFilter.Filter.isBorder_of_parseWith`) and of a strict split into pieces
(`CardFilter.Draft.isBorder_of_piecesFrom`).

Lexical faults are reported at a place that the reader has reached. Grammatical faults are reported
at the start or at the end of one of the tokens (`CardFilter.Filter.PointsAt`), and these stand
between borders. In a group the tokens are those of its text, which is part of the whole.
-/

namespace CardFilter

section Border

variable {start position : Nat} {lead cs after : List Char}

theorem isBorder_append : IsBorder start (lead ++ cs) (start + byteLength lead) :=
  ⟨lead, cs, rfl, rfl⟩

theorem isBorder_start : IsBorder start cs start :=
  ⟨[], cs, rfl, rfl⟩

/-- A border lies within the text. -/
theorem IsBorder.bounds (h : IsBorder start cs position) :
    start ≤ position ∧ position ≤ start + byteLength cs := by
  obtain ⟨before, after, rfl, rfl⟩ := h
  rw [byteLength_append]
  omega

/-- **A slice stands between two borders.** -/
theorem isBorder_slice {before mid : List Char} :
    IsBorder start (before ++ (mid ++ after)) (start + byteLength before) ∧
      IsBorder start (before ++ (mid ++ after)) (start + byteLength before + byteLength mid) := by
  refine ⟨isBorder_append, ?_⟩
  rw [Nat.add_assoc, ← byteLength_append, ← List.append_assoc]
  exact isBorder_append

/-- A border of a part is a border of the whole, whatever comes before the part. -/
theorem IsBorder.append_left (h : IsBorder (start + byteLength lead) cs position) :
    IsBorder start (lead ++ cs) position := by
  obtain ⟨before, after, rfl, rfl⟩ := h
  exact ⟨lead ++ before, after, (List.append_assoc _ _ _).symm,
    by rw [byteLength_append, Nat.add_assoc]⟩

/-- And whatever comes after it. -/
theorem IsBorder.append_right (h : IsBorder start cs position) :
    IsBorder start (cs ++ after) position := by
  obtain ⟨before, rear, rfl, rfl⟩ := h
  exact ⟨before, rear ++ after, List.append_assoc _ _ _, rfl⟩

theorem IsBorder.cons {c : Char} (h : IsBorder (start + c.utf8Size) cs position) :
    IsBorder start (c :: cs) position :=
  @IsBorder.append_left start position [c] cs h

end Border

/-! ### Lexical faults -/

namespace Token

variable {start seen position : Nat} {within : Option Quote} {cs rest : List Char} {c : Char}
  {e : LexError} {ts : List Token}

/-- A group is at fault where it opens or at a place inside. -/
theorem isBorder_of_cutGroup (h : cutGroup start within seen cs = .error e) :
    e.position = start ∨ IsBorder seen cs e.position := by
  induction cs generalizing within seen with
  | nil =>
    cases within <;>
    · cases h
      exact .inl rfl
  | cons c rest ih =>
    cases within with
    | some q =>
      rw [cutGroup] at h
      split at h
      · cases h
      · rename_i hrest
        cases h
        exact (ih hrest).imp_right .cons
    | none =>
      rw [cutGroup] at h
      split at h
      · cases h
      split at h
      · cases h
        exact .inr isBorder_start
      split at h
      · cases h
      · rename_i hrest
        cases h
        exact (ih hrest).imp_right .cons

theorem isBorder_of_read (h : read position c rest = .error e) :
    IsBorder position (c :: rest) e.position := by
  unfold read at h
  split at h
  · split at h <;> cases h
    exact isBorder_start
  split at h
  · split at h <;> cases h
    exact isBorder_start
  split at h
  · rename_i hopen
    split at h
    · cases h
    · rename_i hgroup
      cases h
      rcases isBorder_of_cutGroup hgroup with hstart | hinside
      · rw [hstart]
        exact isBorder_start
      · subst hopen
        exact .cons hinside
  split at h
  · cases h
    exact isBorder_start
  split at h
  · cases h
  split at h
  · cases h
  split at h
  · cases h
  split at h
  · cases h
  · cases h
    exact isBorder_start

/-- **A lexical fault** is reported on a border. -/
theorem isBorder_of_tokensFrom (h : tokensFrom position cs = .error e) :
    IsBorder position cs e.position := by
  fun_induction tokensFrom position cs with
  | case1 | case5 => cases h
  | case2 position c rest hblank ih => exact .cons (ih h)
  | case3 position c rest hblank e' hread =>
    cases h
    exact isBorder_of_read hread
  | case4 position c rest hblank kind after hread e' hfollowing ih =>
    cases h
    obtain ⟨word, hword, happend, -⟩ := written_of_read hread
    have hborder := ih hfollowing
    rw [hword.width_eq] at hborder
    rw [happend]
    exact hborder.append_left

/-- A text without tokens is blank. -/
theorem tokensFrom_eq_ok_nil_iff : tokensFrom position cs = .ok [] ↔ Blanks cs :=
  tokensFrom_eq_ok_iff.trans Splits.nil_iff

/-- **A token stands between two borders.** -/
theorem Splits.isBorder {t : Token} (h : Splits position cs ts) (ht : t ∈ ts) :
    IsBorder position cs t.start ∧ IsBorder position cs t.stop := by
  obtain ⟨before, word, after, rfl, hstart, hword, -⟩ := h.exists_written ht
  rw [stop, hword.width_eq, hstart]
  exact isBorder_slice

end Token

namespace Draft

variable {mode : Mode} {position : Nat} {cs : List Char} {e : LexError}

/-- A chunk is at fault where its open quote was opened. -/
theorem isBorder_of_cutChunk {within : Option (Quote × Nat)} {fresh : Bool}
    (h : cutChunk mode within fresh position cs = .error e) :
    (∃ q, within = some (q, e.position)) ∨ IsBorder position cs e.position := by
  fun_induction cutChunk mode within fresh position cs with
  | case1 _ _ q =>
    cases h
    exact .inl ⟨q, rfl⟩
  | case2 | case3 | case4 | case6 | case7 => cases h
  | case5 _ q start position c rest e' hrest ih =>
    cases h
    rcases ih hrest with ⟨q', hwithin⟩ | hborder
    · split at hwithin
      · cases hwithin
      · cases hwithin
        exact .inl ⟨q, rfl⟩
    · exact .inr hborder.cons
  | case8 _ position c rest _ e' hrest ih =>
    cases h
    rcases ih hrest with ⟨q', hwithin⟩ | hborder
    · obtain ⟨q, -, heq⟩ := Option.map_eq_some_iff.mp hwithin
      obtain ⟨-, hposition⟩ := Prod.mk.inj heq
      rw [← hposition]
      exact .inr isBorder_start
    · exact .inr hborder.cons

/-- **A fault of a split into pieces** is reported on a border. -/
theorem isBorder_of_piecesFrom {bounded padded : Bool}
    (h : piecesFrom mode bounded padded position cs = .error e) :
    IsBorder position cs e.position := by
  refine piecesFrom_induction (motive := fun position cs x =>
    ∀ e, x = .error e → IsBorder position cs e.position)
    ?nil ?fault ?pass ?piece bounded padded position cs e h
  case nil =>
    rintro position e ⟨⟩
  case fault =>
    rintro position cs e hcut e' ⟨⟩
    rcases isBorder_of_cutChunk hcut with ⟨q, hwithin⟩ | hborder
    · cases hwithin
    · exact hborder
  case pass =>
    exact fun position lead after x hafter e hx => (hafter e hx).append_left
  case piece =>
    rintro position lead after kind text (e' | qs) - hafter e ⟨⟩
    exact (hafter e' rfl).append_left

end Draft

/-! ### Grammatical faults -/

namespace Filter

/-- The error is reported at an end of one of the tokens, if anywhere. -/
def PointsAt (ts : List Token) (e : SyntaxError) : Prop :=
  ∀ position, e.position = some position → ∃ t ∈ ts, position = t.start ∨ position = t.stop

section Points

variable {v : Vocabulary} {negated isFirst : Bool} {t : Token} {ts rest : List Token}
  {e : SyntaxError} {f : Filter}

theorem pointsAt_start {fault : GrammarFault} (ht : t ∈ ts) :
    PointsAt ts (fault.at t.start) := by
  intro position h
  cases h
  exact ⟨t, ht, .inl rfl⟩

theorem pointsAt_stop {fault : GrammarFault} (ht : t ∈ ts) :
    PointsAt ts (fault.at t.stop) := by
  intro position h
  cases h
  exact ⟨t, ht, .inr rfl⟩

theorem PointsAt.mono (h : PointsAt rest e) (hsub : rest ⊆ ts) : PointsAt ts e := by
  intro position hposition
  obtain ⟨t, ht, hend⟩ := h position hposition
  exact ⟨t, hsub ht, hend⟩

theorem pointsAt_of_readKeyed {key : String} {c : Comparison} {operator : Token}
    (h : readKeyed v negated key t.start c operator rest = .error e) :
    PointsAt (t :: operator :: rest) e := by
  have ht : t ∈ t :: operator :: rest := List.mem_cons_self
  have hoperator : operator ∈ t :: operator :: rest := List.mem_cons_of_mem _ List.mem_cons_self
  unfold readKeyed at h
  split at h
  · cases h
    exact pointsAt_start ht
  split at h
  · repeat' split at h
    all_goals cases h
    all_goals exact pointsAt_stop hoperator
  · cases h
    exact pointsAt_start hoperator

theorem pointsAt_of_readMarked (h : readMarked negated t rest = .error e) :
    PointsAt (t :: rest) e := by
  unfold readMarked at h
  split at h
  · cases h
    exact pointsAt_start List.mem_cons_self
  split at h
  · split at h
    · split at h <;> cases h
      exact pointsAt_start List.mem_cons_self
    · cases h
    · cases h
    · cases h
      exact pointsAt_start (List.mem_cons_of_mem _ List.mem_cons_self)
  · cases h
    exact pointsAt_start List.mem_cons_self

theorem pointsAt_of_readUnsigned (h : readUnsigned v negated t rest = .error e) :
    PointsAt (t :: rest) e := by
  unfold readUnsigned at h
  split at h
  · exact pointsAt_of_readMarked h
  · split at h
    · split at h
      · exact pointsAt_of_readKeyed h
      split at h <;> cases h
      exact pointsAt_start List.mem_cons_self
    · split at h <;> cases h
      exact pointsAt_start List.mem_cons_self
  · cases h
  · cases h
  · cases h
    exact pointsAt_start List.mem_cons_self

/-- **A fault in a term** is reported at one of its tokens. -/
theorem pointsAt_of_readTerm (h : readTerm v ts = .error e) : PointsAt ts e := by
  unfold readTerm at h
  split at h
  · cases h
    intro position hposition
    cases hposition
  split at h
  · split at h
    · cases h
      exact pointsAt_start List.mem_cons_self
    split at h
    · exact (pointsAt_of_readUnsigned h).mono (List.subset_cons_self _ _)
    · cases h
      exact pointsAt_start List.mem_cons_self
  · exact pointsAt_of_readUnsigned h

theorem subset_of_readTerm {r : ReadTerm} (h : readTerm v ts = .ok r) : r.rest ⊆ ts := by
  obtain ⟨position, ks, -, happend, -⟩ := readTerm_sound h
  rw [happend]
  exact List.subset_append_right _ _

/-- **A fault in the members of a group** is reported at one of its tokens. -/
theorem pointsAt_of_readMembers (h : readMembers v isFirst ts = .error e) : PointsAt ts e := by
  fun_induction readMembers v isFirst ts with
  | case1 | case4 | case7 | case10 => cases h
  | case2 isFirst t ts hor =>
    cases h
    exact pointsAt_start List.mem_cons_self
  | case3 isFirst t ts hor e' hread =>
    cases h
    exact pointsAt_of_readTerm hread
  | case5 isFirst t ts hor r hread next after hrest hnext hlast =>
    cases h
    exact pointsAt_start (subset_of_readTerm hread (hrest ▸ List.mem_cons_self))
  | case6 isFirst t ts hor r hread next after hrest hnext hlast e' hfollowing ih =>
    cases h
    have hsub : after ⊆ r.rest := hrest ▸ List.subset_cons_self _ _
    exact (ih hfollowing).mono fun t ht => subset_of_readTerm hread (hsub ht)
  | case8 isFirst t ts hor r hread next after hrest hnext htouch =>
    cases h
    exact pointsAt_start List.mem_cons_self
  | case9 isFirst t ts hor r hread next after hrest hnext htouch e' hfollowing ih =>
    cases h
    exact (ih hfollowing).mono (hrest ▸ subset_of_readTerm hread)

theorem pointsAt_of_complete (h : complete f ts = .error e) : PointsAt ts e := by
  cases ts with
  | nil => cases h
  | cons t ts =>
    cases h
    exact pointsAt_start List.mem_cons_self

theorem pointsAt_of_readSingle (h : readSingle v ts = .error e) : PointsAt ts e := by
  unfold readSingle at h
  split at h
  · rename_i hread
    cases h
    exact pointsAt_of_readTerm hread
  · rename_i hread
    exact (pointsAt_of_complete h).mono (subset_of_readTerm hread)

end Points

/-- The error is reported on a border of the text, if anywhere. -/
def PointsInto (cs : List Char) (e : SyntaxError) : Prop :=
  ∀ position, e.position = some position → IsBorder 0 cs position

section Borders

variable {v : Vocabulary} {negated : Bool} {cs : List Char} {body : String}
  {start position : Nat} {ts : List Token} {e : SyntaxError}

theorem PointsAt.pointsInto (h : PointsAt ts e) (hts : Token.Splits 0 cs ts) : PointsInto cs e := by
  intro position hposition
  obtain ⟨t, ht, rfl | rfl⟩ := h position hposition
  · exact (hts.isBorder ht).1
  · exact (hts.isBorder ht).2

/-- **A fault in a group** is reported in its text, and at the parenthesis that opens it where the
group is empty. -/
theorem place_of_readGroup (h : readGroup v negated start body = .error e)
    (hposition : e.position = some position) :
    Blanks body.toList ∧ position = start ∨
      ¬Blanks body.toList ∧ IsBorder (start + 1) body.toList position := by
  have hnil : Token.tokensFrom (start + 1) body.toList = .ok [] ↔ Blanks body.toList :=
    Token.tokensFrom_eq_ok_nil_iff
  unfold readGroup at h
  split at h
  · rename_i hinside
    cases h
    cases hposition
    refine .inr ⟨fun hblanks => ?_, Token.isBorder_of_tokensFrom hinside⟩
    cases hinside.symm.trans (hnil.mpr hblanks)
  · rename_i hinside
    cases h
    cases hposition
    exact .inl ⟨hnil.mp hinside, rfl⟩
  · rename_i hinside
    have hsplits := Token.tokensFrom_eq_ok_iff.mp hinside
    split at h
    · rename_i hmembers
      cases h
      refine .inr ⟨fun hblanks => ?_, ?_⟩
      · cases hinside.symm.trans (hnil.mpr hblanks)
      · obtain ⟨t, ht, rfl | rfl⟩ := pointsAt_of_readMembers hmembers position hposition
        · exact (hsplits.isBorder ht).1
        · exact (hsplits.isBorder ht).2
    · cases h

/-- The places of a group are borders of the whole text. -/
theorem pointsInto_of_readGroup (hts : Token.Splits 0 cs ts)
    (hg : (⟨.group body, start⟩ : Token) ∈ ts)
    (h : readGroup v negated start body = .error e) : PointsInto cs e := by
  intro position hposition
  rcases place_of_readGroup h hposition with ⟨-, rfl⟩ | ⟨-, hborder⟩
  · exact (hts.isBorder hg).1
  · obtain ⟨before, after, rfl, hstart⟩ := hts.exists_group hg
    have hfirst : start + 1 = 0 + byteLength (before ++ ['(']) := by
      rw [byteLength_append, hstart, Nat.add_assoc]
      rfl
    have hsplit : before ++ '(' :: (body.toList ++ ')' :: after) =
        (before ++ ['(']) ++ (body.toList ++ ')' :: after) := by simp
    rw [hsplit]
    exact (hfirst ▸ hborder).append_right.append_left

/-- **A grammatical fault** is reported on a border. -/
theorem pointsInto_of_ofTokens (hts : Token.Splits 0 cs ts) (h : ofTokens v ts = .error e) :
    PointsInto cs e := by
  unfold ofTokens at h
  split at h
  · cases h
    intro position hposition
    cases hposition
  · split at h
    · rename_i hgroup
      cases h
      exact pointsInto_of_readGroup hts List.mem_cons_self hgroup
    · exact ((pointsAt_of_complete h).mono (List.subset_cons_self _ _)).pointsInto hts
  · split at h
    · split at h
      · rename_i hgroup
        cases h
        exact pointsInto_of_readGroup hts (List.mem_cons_of_mem _ List.mem_cons_self) hgroup
      · refine PointsAt.pointsInto ((pointsAt_of_complete h).mono fun t ht => ?_) hts
        exact List.mem_cons_of_mem _ (List.mem_cons_of_mem _ ht)
    · cases h
      intro position hposition
      cases hposition
      exact (hts.isBorder List.mem_cons_self).1
  · exact (pointsAt_of_readSingle h).pointsInto hts

/-- **Every fault of the strict reading** is reported on a border of the text. -/
theorem isBorder_of_parseWith {text : String} {fault : QueryError} {position : Nat}
    (h : parseWith v text = .error fault) (hposition : fault.position = some position) :
    IsBorder 0 text.toList position := by
  unfold parseWith at h
  split at h
  · rename_i htokens
    cases h
    cases hposition
    exact Token.isBorder_of_tokensFrom htokens
  · rename_i htokens
    split at h
    · rename_i herror
      cases h
      exact pointsInto_of_ofTokens (Token.tokensFrom_eq_ok_iff.mp htokens) herror position hposition
    · cases h

end Borders

end Filter

end CardFilter
