import CardFilter.Proofs.FaultPlaces

/-!
# What a fault tells

Most faults of the grammar tell something of the text: the key that is not known, the token that is
out of place. This file follows a fault back to the tokens that the reader had before it. What the
fault tells is true of one of them (`CardFilter.GrammarFault.Tells`): a key is a word of the text,
and a token that is described is one of the text, and no value where a value would have been right.

There are two levels of tokens, those of the text and those of a group in it, and a group need not
split. So a failed reading has one of three causes (`CardFilter.Filter.parseWith_eq_error_cases`):
the text is blank, and only then the fault has no place; or a text does not split; or a text splits
and a fault tells of its tokens. Which of the two texts it is makes no difference to what can be
told.
-/

namespace CardFilter

/-- **What the fault tells is true** of the tokens. A key that is refused or lacks a value is known,
and a token that is out of place where a filter or a name should stand is none. -/
def GrammarFault.Tells (v : Vocabulary) (ts : List Token) : GrammarFault → Prop
  | .trailing found => ∃ t ∈ ts, found = t.kind.describe
  | .notAFilter found | .notAName found => ∃ t ∈ ts, found = t.kind.describe ∧ t.value? = none
  | .markedKey key => ∃ t ∈ ts, t.kind = .word key
  | .unknownKey key => (∃ t ∈ ts, t.kind = .word key) ∧ v.lookupIgnoringCase? key = none
  | .refusedComparison key _ | .missingValue key _ =>
    (∃ t ∈ ts, t.kind = .word key) ∧ ∃ k, v.lookupIgnoringCase? key = some k
  | _ => True

theorem GrammarFault.Tells.mono {v : Vocabulary} {fault : GrammarFault} {rest ts : List Token}
    (h : fault.Tells v rest) (hsub : rest ⊆ ts) : fault.Tells v ts := by
  have hmem : ∀ {p : Token → Prop}, (∃ t ∈ rest, p t) → ∃ t ∈ ts, p t :=
    fun ⟨t, ht, hp⟩ => ⟨t, hsub ht, hp⟩
  cases fault with
  | trailing | notAFilter | notAName | markedKey => exact hmem h
  | unknownKey | refusedComparison | missingValue => exact ⟨hmem h.1, h.2⟩
  | _ => trivial

namespace Filter

/-- **The error is a fault at some place**, and what it tells is true of the tokens. -/
inductive Reports (v : Vocabulary) (ts : List Token) : SyntaxError → Prop
  /-- The fault, at any place. -/
  | placed {fault : GrammarFault} (position : Nat) : fault.Tells v ts →
    Reports v ts (fault.at position)

section Readers

variable {v : Vocabulary} {negated isFirst : Bool} {t : Token} {ts rest : List Token}
  {e : SyntaxError} {f : Filter}

theorem Reports.mono (h : Reports v rest e) (hsub : rest ⊆ ts) : Reports v ts e := by
  obtain ⟨position, h⟩ := h
  exact .placed position (h.mono hsub)

theorem reports_of_readKeyed {key : String} {keyAt : Nat} {c : Comparison} {operator : Token}
    (hkey : ∃ t ∈ ts, t.kind = .word key)
    (h : readKeyed v negated key keyAt c operator rest = .error e) : Reports v ts e := by
  unfold readKeyed at h
  split at h
  · rename_i hunknown
    cases h
    exact .placed _ ⟨hkey, hunknown⟩
  rename_i k hknown
  split at h
  · repeat' split at h
    all_goals cases h
    all_goals exact .placed _ ⟨hkey, k, hknown⟩
  · cases h
    exact .placed _ ⟨hkey, k, hknown⟩

theorem reports_of_readMarked (h : readMarked negated t rest = .error e) :
    Reports v (t :: rest) e := by
  unfold readMarked at h
  split at h
  · cases h
    exact .placed _ trivial
  rename_i next rest
  have hnext : next ∈ t :: next :: rest := List.mem_cons_of_mem _ List.mem_cons_self
  obtain ⟨k, start⟩ := next
  split at h
  swap
  · cases h
    exact .placed _ trivial
  cases k with
  | word w =>
    simp only at h
    split at h
    · cases h
      exact .placed _ ⟨_, hnext, rfl⟩
    · cases h
  | quoted | regex => cases h
  | group | minus | bang | comparison =>
    cases h
    exact .placed _ ⟨_, hnext, rfl, rfl⟩

theorem reports_of_readUnsigned (h : readUnsigned v negated t rest = .error e) :
    Reports v (t :: rest) e := by
  have ht : t ∈ t :: rest := List.mem_cons_self
  unfold readUnsigned at h
  obtain ⟨k, start⟩ := t
  cases k with
  | bang => exact reports_of_readMarked h
  | word w =>
    simp only at h
    split at h
    · split at h
      · exact reports_of_readKeyed ⟨_, ht, rfl⟩ h
      split at h <;> cases h
      exact .placed _ trivial
    · split at h <;> cases h
      exact .placed _ trivial
  | quoted | regex => cases h
  | group | minus | comparison =>
    cases h
    exact .placed _ ⟨_, ht, rfl, rfl⟩

/-- **A fault in a term**, of which there is at least one token. -/
theorem reports_of_readTerm (h : readTerm v (t :: rest) = .error e) :
    Reports v (t :: rest) e := by
  simp only [readTerm] at h
  split at h
  · split at h
    · cases h
      exact .placed _ trivial
    split at h
    · exact (reports_of_readUnsigned h).mono (List.subset_cons_self _ _)
    · cases h
      exact .placed _ trivial
  · exact reports_of_readUnsigned h

/-- **A fault in the members of a group.** -/
theorem reports_of_readMembers (h : readMembers v isFirst ts = .error e) : Reports v ts e := by
  fun_induction readMembers v isFirst ts with
  | case1 | case4 | case7 | case10 => cases h
  | case2 isFirst t ts hor =>
    cases h
    cases isFirst <;> exact .placed _ trivial
  | case3 isFirst t ts hor e' hread =>
    cases h
    exact reports_of_readTerm hread
  | case5 isFirst t ts hor r hread next after hrest hnext hlast =>
    cases h
    exact .placed _ trivial
  | case6 isFirst t ts hor r hread next after hrest hnext hlast e' hfollowing ih =>
    cases h
    have hsub : after ⊆ r.rest := hrest ▸ List.subset_cons_self _ _
    exact (ih hfollowing).mono fun t ht => subset_of_readTerm hread (hsub ht)
  | case8 isFirst t ts hor r hread next after hrest hnext htouch =>
    cases h
    exact .placed _ trivial
  | case9 isFirst t ts hor r hread next after hrest hnext htouch e' hfollowing ih =>
    cases h
    exact (ih hfollowing).mono (hrest ▸ subset_of_readTerm hread)

theorem reports_of_complete (h : complete f ts = .error e) : Reports v ts e := by
  cases ts with
  | nil => cases h
  | cons t ts =>
    cases h
    exact .placed _ ⟨t, List.mem_cons_self, rfl⟩

theorem reports_of_readSingle (h : readSingle v (t :: rest) = .error e) :
    Reports v (t :: rest) e := by
  unfold readSingle at h
  split at h
  · rename_i hread
    cases h
    exact reports_of_readTerm hread
  · rename_i hread
    exact (reports_of_complete h).mono (subset_of_readTerm hread)

end Readers

/-! ### The causes of a failed reading -/

/-- **Why there is an error at a place**: a text does not split into tokens, or it does and a fault
tells of them. -/
inductive Cause (v : Vocabulary) : SyntaxError → Prop
  /-- A text does not split. -/
  | lexical (e : LexError) : Cause v e.toSyntaxError
  /-- A text splits, and there is a fault in its tokens. -/
  | grammatical {position : Nat} {cs : List Char} {ts : List Token} {e : SyntaxError} :
    Token.Splits position cs ts → Reports v ts e → Cause v e

section Causes

variable {v : Vocabulary} {negated : Bool} {t : Token} {ts : List Token} {e : SyntaxError}

theorem Cause.exists_position (h : Cause v e) : ∃ position, e.position = some position := by
  cases h with
  | lexical e => exact ⟨e.position, rfl⟩
  | grammatical _ hreports =>
    obtain ⟨position, -⟩ := hreports
    exact ⟨position, rfl⟩

theorem cause_of_readGroup {start : Nat} {body : String}
    (h : readGroup v negated start body = .error e) : Cause v e := by
  unfold readGroup at h
  split at h
  · cases h
    exact .lexical _
  · rename_i hinside
    cases h
    exact .grammatical (Token.tokensFrom_eq_ok_iff.mp hinside) (.placed _ trivial)
  · rename_i hinside
    split at h
    · rename_i hmembers
      cases h
      exact .grammatical (Token.tokensFrom_eq_ok_iff.mp hinside) (reports_of_readMembers hmembers)
    · cases h

theorem cause_of_ofTokens {position : Nat} {cs : List Char}
    (hts : Token.Splits position cs (t :: ts)) (h : ofTokens v (t :: ts) = .error e) :
    Cause v e := by
  unfold ofTokens at h
  split at h
  · rename_i hnil
    cases hnil
  · rename_i hcons
    split at h
    · rename_i hgroup
      cases h
      exact cause_of_readGroup hgroup
    · rw [hcons] at hts
      exact .grammatical hts ((reports_of_complete h).mono (List.subset_cons_self _ _))
  · rename_i hcons
    rw [hcons] at hts
    split at h
    · split at h
      · rename_i hgroup
        cases h
        exact cause_of_readGroup hgroup
      · refine .grammatical hts ((reports_of_complete h).mono fun t ht => ?_)
        exact List.mem_cons_of_mem _ (List.mem_cons_of_mem _ ht)
    · cases h
      exact .grammatical hts (.placed _ trivial)
  · rename_i hcons
    exact .grammatical hts (hcons ▸ reports_of_readSingle h)

/-- **Why a text is no filter**: it is blank, or else there is an error at a place. -/
theorem parseWith_eq_error_cases {text : String} {fault : QueryError}
    (h : parseWith v text = .error fault) :
    Blanks text.toList ∧ fault.cause = GrammarFault.emptyFilter.everywhere ∨
      ¬Blanks text.toList ∧ Cause v fault.cause := by
  unfold parseWith at h
  split at h
  · rename_i e htokens
    cases h
    refine .inr ⟨fun hblanks => ?_, .lexical _⟩
    cases htokens.symm.trans (Token.tokensFrom_eq_ok_nil_iff.mpr hblanks)
  · rename_i ts htokens
    have hsplits := Token.tokensFrom_eq_ok_iff.mp htokens
    split at h
    · rename_i e herror
      cases h
      cases ts with
      | nil =>
        cases herror
        exact .inl ⟨Token.tokensFrom_eq_ok_nil_iff.mp htokens, rfl⟩
      | cons t ts =>
        refine .inr ⟨fun hblanks => ?_, cause_of_ofTokens hsplits herror⟩
        cases htokens.symm.trans (Token.tokensFrom_eq_ok_nil_iff.mpr hblanks)
    · cases h

end Causes

end Filter

end CardFilter
