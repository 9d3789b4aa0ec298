import CardFilter.Proofs.Finding
import CardFilter.Proofs.Snapshots

/-!
# What a source answers

A source of suggestions (`CardFilter.Source`) is asked with a limit and with filters to leave out.
Behind all its answers for one term stands one list, which depends on neither of them: the answer
to a question is the beginning of what this list keeps when the filters are left out
(`CardFilter.Source.cutFrom_suggestions`). So the limit and the exclusions take away suggestions
and never bring up another one or another order.

* The sources leave filters out at different points, most of them before they rank. That comes to
  the same, since **ranking and leaving out commute** (`CardFilter.filter_rankBy`): candidates of
  the same rank keep their order, whoever else is ranked with them.
* Whatever a source ranks by besides, the list goes **by alignment and length** once something has
  been typed. Spellings of keys rank first when they are the typed word itself; and the typed word
  stands at the start of such a spelling, which is as short as one that contains it can be
  (`CardFilter.lexLe_rank_of_lexLe_spellingRank`).

The main statement is `CardFilter.Source.suggestions_eq_take_filter`.
-/

namespace CardFilter

/-! ### Ranking -/

section Ranking

variable {α : Type} {key : α → List Nat}

/-- **One more candidate, ranked**: it stands behind the better ones, and before all others. -/
theorem rankBy_cons (key : α → List Nat) (a : α) (as : List α) :
    let better := (rankBy key as).filter fun b => !lexLe (key a) (key b)
    let others := (rankBy key as).filter fun b => lexLe (key a) (key b)
    rankBy key (a :: as) = better ++ a :: others ∧ rankBy key as = better ++ others := by
  intro better others
  obtain ⟨front, back, hcons, hrest, hfront⟩ := List.mergeSort_cons
    (fun a b c => lexLe_trans (key a) (key b) (key c))
    (fun a b => lexLe_total (key a) (key b)) a as
  have hranked : rankBy key (a :: as) = front ++ a :: back := hcons
  have hback : ∀ b ∈ back, lexLe (key a) (key b) = true := by
    have hpairwise := pairwise_rankBy key (a :: as)
    rw [hranked] at hpairwise
    exact fun b => List.rel_of_pairwise_cons (List.pairwise_append.mp hpairwise).2.1
  have hsplit : rankBy key as = front ++ back := hrest
  have hbetter : better = front := by
    rw [show better = (front ++ back).filter _ from congrArg _ hsplit, List.filter_append,
      List.filter_eq_self.mpr hfront, List.filter_eq_nil_iff.mpr (by simpa using hback),
      List.append_nil]
  have hothers : others = back := by
    rw [show others = (front ++ back).filter _ from congrArg _ hsplit, List.filter_append,
      List.filter_eq_self.mpr hback, List.filter_eq_nil_iff.mpr (by simpa using hfront),
      List.nil_append]
  rw [hbetter, hothers]
  exact ⟨hranked, hsplit⟩

/-- Ranking puts in one candidate after the other. -/
theorem rankBy_eq_foldr (key : α → List Nat) (as : List α) : rankBy key as =
    as.foldr (fun a ranked => (ranked.filter fun b => !lexLe (key a) (key b)) ++
      a :: ranked.filter fun b => lexLe (key a) (key b)) [] := by
  induction as with
  | nil => exact List.mergeSort_nil
  | cons a as ih => rw [(rankBy_cons key a as).1, List.foldr_cons, ← ih]

/-- **Ranking and leaving out commute.** -/
theorem filter_rankBy (p : α → Bool) (as : List α) :
    (rankBy key as).filter p = rankBy key (as.filter p) := by
  induction as with
  | nil => simp [rankBy]
  | cons a as ih =>
    obtain ⟨hranked, hrest⟩ := rankBy_cons key a as
    by_cases ha : p a = true
    · have hcommute : ∀ q : α → Bool,
          ((rankBy key as).filter q).filter p = (rankBy key (as.filter p)).filter q := by
        intro q
        rw [← ih, List.filter_filter, List.filter_filter]
        simp only [Bool.and_comm]
      rw [hranked, List.filter_append, List.filter_cons_of_pos ha, List.filter_cons_of_pos ha,
        hcommute, hcommute, (rankBy_cons key a (as.filter p)).1]
    · rw [hranked, List.filter_append, List.filter_cons_of_neg ha, List.filter_cons_of_neg ha,
        ← List.filter_append, ← hrest, ih]

/-- Lists that begin with lists of one length are compared by these first. -/
theorem lexLe_of_lexLe_append {as bs cs ds : List Nat} (hlength : as.length = bs.length)
    (h : lexLe (as ++ cs) (bs ++ ds) = true) : lexLe as bs = true := by
  induction as generalizing bs with
  | nil => rfl
  | cons a as ih =>
    cases bs with
    | nil => cases hlength
    | cons b bs =>
      have hrest : lexLe (as ++ cs) (bs ++ ds) = true → lexLe as bs = true :=
        ih (Nat.succ.inj hlength)
      simp only [List.cons_append, lexLe, Bool.or_eq_true, Bool.and_eq_true] at h ⊢
      exact h.imp_right fun h => ⟨h.1, hrest h.2⟩

end Ranking

/-! ### Sources -/

/-- **A source of suggestions**, with what it draws from. -/
inductive Source
  /-- A list of saved filters. -/
  | saved (list : SavedList) (store : Store)
  /-- The keys of a vocabulary. -/
  | keys (vocabulary : Vocabulary)
  /-- The values of these keys. -/
  | values (vocabulary : Vocabulary)
  /-- The comparisons that these keys accept. -/
  | operators (vocabulary : Vocabulary)
  /-- The card names that the catalog gives. -/
  | names (names : List String)

/-- A filter that is offered is left out where it is one of those to leave out. -/
theorem SavedList.isExcluded_of_filter? {r : Suggestion} {f : Filter}
    (h : r.candidate.filter? = some f) (excluding : List Filter) :
    isExcluded excluding r = excluding.contains f := by
  rw [isExcluded, h]

namespace Source

/-- **The suggestions of a source**, best first. -/
def suggestions (s : Source) (t : Draft.Term) (excluding : List Filter) (limit : Nat) :
    List Suggestion :=
  match s with
  | saved l store => l.suggestions store t excluding limit
  | keys v => v.suggestions t limit
  | values v => v.valueSuggestions t excluding limit
  | operators v => v.operatorSuggestions t excluding limit
  | names ns => nameSuggestions t ns excluding limit

/-- **All that a source has for a term**, in no particular order. -/
def candidates (s : Source) (t : Draft.Term) : List Suggestion :=
  match s with
  | saved l store =>
    if t.isEmpty then store.entries.map fun f => ⟨l.candidate f, none, .inner⟩
    else store.entries.filterMap (l.suggestion? t.raw)
  | keys v =>
    match bareWord? t with
    | none => []
    | some word =>
      v.keys.flatMap fun k => k.spellings.filterMap (spellingSuggestion? t.negated word)
  | values v =>
    match SettledKey.ofDraft? v t with
    | none => []
    | some k => if k.value.isRegex then [] else (k.key.values.getD []).filterMap k.suggestion?
  | operators v =>
    match SettledKey.ofDraft? v t, t.completeClosing? with
    | some k, some (.keyed _ _ _ value) =>
      if k.lists value then
        (k.key.operators.comparisons.filter (· ≠ k.comparison)).map fun c =>
          ⟨.operator (k.filter c value), none, .inner⟩
      else []
    | _, _ => []
  | names ns => ns.map (nameSuggestion t)

/-- **The answers are cut from one list**: the candidates in some order, without those to leave out,
up to the limit. -/
def CutFrom (candidates : List Suggestion) (answers : List Filter → Nat → List Suggestion) :
    Prop :=
  ∃ ranked : List Suggestion, ranked.Perm candidates ∧ ∀ excluding limit,
    answers excluding limit =
      (ranked.filter fun r => !SavedList.isExcluded excluding r).take limit

section CutFrom

variable {α : Type} {as : List α} {f : α → Suggestion}
  {answers : List Filter → Nat → List Suggestion}

/-- Answers that leave out and cut off. -/
theorem cutFrom_map (h : ∀ excluding limit, answers excluding limit =
      ((as.filter fun a => !SavedList.isExcluded excluding (f a)).take limit).map f) :
    CutFrom (as.map f) answers := by
  refine ⟨as.map f, .refl _, fun excluding limit => ?_⟩
  rw [h, List.filter_map, List.map_take]
  rfl

/-- Answers that leave out, rank and cut off. -/
theorem cutFrom_rankBy (key : α → List Nat) (h : ∀ excluding limit, answers excluding limit =
      ((rankBy key (as.filter fun a => !SavedList.isExcluded excluding (f a))).take limit).map f) :
    CutFrom (as.map f) answers := by
  refine ⟨(rankBy key as).map f, (rankBy_perm key as).map f, fun excluding limit => ?_⟩
  rw [h, ← filter_rankBy, List.filter_map, List.map_take]
  rfl

theorem cutFrom_nil (h : ∀ excluding limit, answers excluding limit = []) : CutFrom [] answers :=
  ⟨[], .refl _, fun excluding limit => by rw [h, List.filter_nil, List.take_nil]⟩

end CutFrom

section Answers

variable {t : Draft.Term}

theorem cutFrom_saved (l : SavedList) (store : Store) :
    CutFrom ((saved l store).candidates t) ((saved l store).suggestions t) := by
  by_cases hempty : t.isEmpty = true
  · rw [candidates, if_pos hempty]
    have hkept : ∀ excluding f, SavedList.isExcluded excluding ⟨l.candidate f, none, .inner⟩ =
        excluding.contains f := fun excluding f =>
      SavedList.isExcluded_of_filter? (l.filter?_candidate f) excluding
    refine cutFrom_map fun excluding limit => ?_
    simp only [hkept]
    exact if_pos hempty
  · rw [candidates, if_neg hempty, ← List.map_id (store.entries.filterMap _)]
    refine cutFrom_rankBy Suggestion.rank fun excluding limit => ?_
    rw [List.map_id]
    exact if_neg hempty

/-- Keys are never left out. -/
theorem cutFrom_keys (v : Vocabulary) :
    CutFrom ((keys v).candidates t) ((keys v).suggestions t) := by
  cases hword : bareWord? t with
  | none =>
    simp only [candidates, hword]
    exact cutFrom_nil fun _ _ => by simp only [suggestions, Vocabulary.suggestions, hword]
  | some word =>
    have hcandidates : (keys v).candidates t =
        (v.keys.flatMap (keySuggestions t.negated word)).map (·.2) := by
      simp only [candidates, hword, keySuggestions, List.map_flatMap, List.map_filterMap,
        Option.map_map, Function.comp_def, Option.map_id']
    have hkept : ∀ excluding, ∀ p ∈ v.keys.flatMap (keySuggestions t.negated word),
        (!SavedList.isExcluded excluding p.2) = true := by
      intro excluding p hp
      obtain ⟨k, -, spelling, -, hr, -⟩ := Vocabulary.exists_of_mem_keySuggestions hp
      rw [SavedList.isExcluded, candidate_of_spellingSuggestion? hr]
      rfl
    rw [hcandidates]
    refine cutFrom_rankBy (·.1) fun excluding limit => ?_
    rw [List.filter_eq_self.mpr (hkept excluding)]
    simp only [suggestions, Vocabulary.suggestions, hword]

theorem cutFrom_values (v : Vocabulary) :
    CutFrom ((values v).candidates t) ((values v).suggestions t) := by
  cases hk : SettledKey.ofDraft? v t with
  | none =>
    simp only [candidates, hk]
    exact cutFrom_nil fun _ _ => by simp only [suggestions, Vocabulary.valueSuggestions, hk]
  | some k =>
    have hanswers : ∀ excluding limit, (values v).suggestions t excluding limit =
        k.valueSuggestions excluding limit := fun excluding limit => by
      simp only [suggestions, Vocabulary.valueSuggestions, hk]
    by_cases hregex : k.value.isRegex = true
    · simp only [candidates, hk, if_pos hregex]
      exact cutFrom_nil fun excluding limit => by
        rw [hanswers, SettledKey.valueSuggestions, if_pos hregex]
    have hcandidates : (values v).candidates t =
        ((k.key.values.getD []).filterMap fun value =>
          (k.suggestion? value).map fun r => (k.valueRank value r, r)).map (·.2) := by
      simp only [candidates, hk, if_neg hregex, List.map_filterMap, Option.map_map,
        Function.comp_def, Option.map_id']
    -- a value is left out before its suggestion is made, which is as good as afterwards
    have hkept : ∀ excluding : List Filter,
        ((k.key.values.getD []).filter fun value =>
          !excluding.contains (k.filter k.comparison (.text value))).filterMap
            (fun value => (k.suggestion? value).map fun r => (k.valueRank value r, r)) =
        ((k.key.values.getD []).filterMap fun value =>
          (k.suggestion? value).map fun r => (k.valueRank value r, r)).filter
            fun p => !SavedList.isExcluded excluding p.2 := by
      intro excluding
      rw [List.filterMap_filter, List.filter_filterMap]
      refine congrArg (List.filterMap · _) (funext fun value => ?_)
      cases hr : k.suggestion? value with
      | none => simp
      | some r =>
        have hfilter : r.candidate.filter? = some (k.filter k.comparison (.text value)) :=
          congrArg Candidate.filter? (SettledKey.candidate_of_suggestion? hr)
        simp [Option.filter, SavedList.isExcluded_of_filter? hfilter]
    rw [hcandidates]
    refine cutFrom_rankBy (·.1) fun excluding limit => ?_
    rw [hanswers, SettledKey.valueSuggestions, if_neg hregex, ← hkept]

theorem cutFrom_operators (v : Vocabulary) :
    CutFrom ((operators v).candidates t) ((operators v).suggestions t) := by
  cases hk : SettledKey.ofDraft? v t with
  | none =>
    simp only [candidates, hk]
    exact cutFrom_nil fun _ _ => by simp only [suggestions, Vocabulary.operatorSuggestions, hk]
  | some k =>
    cases hcomplete : t.completeClosing? with
    | none =>
      simp only [candidates, hk, hcomplete]
      exact cutFrom_nil fun _ _ => by
        simp only [suggestions, Vocabulary.operatorSuggestions, hk, hcomplete]
    | some term =>
      cases term with
      | name =>
        simp only [candidates, hk, hcomplete]
        exact cutFrom_nil fun _ _ => by
          simp only [suggestions, Vocabulary.operatorSuggestions, hk, hcomplete]
      | keyed negated key comparison value =>
        by_cases hlists : k.lists value = true
        · simp only [candidates, hk, hcomplete, if_pos hlists]
          refine cutFrom_map fun excluding limit => ?_
          simp only [suggestions, Vocabulary.operatorSuggestions, hk, hcomplete, if_pos hlists,
            SettledKey.operatorSuggestions, List.filter_map, ← List.map_take, List.map_map]
          rfl
        · simp only [candidates, hk, hcomplete, if_neg hlists]
          exact cutFrom_nil fun _ _ => by
            simp only [suggestions, Vocabulary.operatorSuggestions, hk, hcomplete, if_neg hlists]

theorem cutFrom_names (ns : List String) :
    CutFrom ((names ns).candidates t) ((names ns).suggestions t) := by
  rw [candidates, ← List.map_id (ns.map _)]
  refine cutFrom_rankBy Suggestion.rank fun excluding limit => ?_
  rw [List.map_id, List.filter_map]
  rfl

/-- **All answers of a source for one term are cut from one list.** -/
theorem cutFrom_suggestions (s : Source) : CutFrom (s.candidates t) (s.suggestions t) := by
  cases s with
  | saved l store => exact cutFrom_saved l store
  | keys v => exact cutFrom_keys v
  | values v => exact cutFrom_values v
  | operators v => exact cutFrom_operators v
  | names ns => exact cutFrom_names ns

/-- What a source answers is among its candidates. -/
theorem mem_candidates_of_mem_suggestions {s : Source} {excluding : List Filter} {limit : Nat}
    {r : Suggestion} (h : r ∈ s.suggestions t excluding limit) : r ∈ s.candidates t := by
  obtain ⟨ranked, hperm, hanswers⟩ := s.cutFrom_suggestions (t := t)
  rw [hanswers] at h
  exact hperm.mem_iff.mp (List.mem_filter.mp (List.mem_of_mem_take h)).1

end Answers

/-! ### The order of the answers -/

section Order

variable {t : Draft.Term}

/-- Answers ranked by some key go by alignment and length, where the key does. -/
theorem pairwise_rank_of_rankBy {α : Type} {key : α → List Nat} {f : α → Suggestion} {as : List α}
    (h : ∀ a ∈ as, ∀ b ∈ as, lexLe (key a) (key b) = true →
      lexLe (f a).rank (f b).rank = true) (limit : Nat) :
    (((rankBy key as).take limit).map f).Pairwise
      fun r r' => lexLe r.rank r'.rank = true := by
  have hranked := (pairwise_rankBy key as).sublist (List.take_sublist limit _)
  exact List.pairwise_map.mpr (hranked.imp_of_mem fun ha hb =>
    h _ (mem_of_mem_take_rankBy ha) _ (mem_of_mem_take_rankBy hb))

theorem lexLe_rank_iff {r r' : Suggestion} : lexLe r.rank r'.rank = true ↔
    r.alignment.rank < r'.alignment.rank ∨
      r.alignment.rank = r'.alignment.rank ∧ r.length ≤ r'.length := by
  simp only [Suggestion.rank, lexLe, Bool.or_eq_true, Bool.and_eq_true, decide_eq_true_eq,
    beq_iff_eq, Bool.and_true]
  omega

section Keys

variable {negated : Bool} {word spelling spelling' : String} {k k' : Key} {r r' : Suggestion}

theorem exists_of_spellingSuggestion? (h : spellingSuggestion? negated word spelling = some r) :
    ∃ range, findIgnoringCase spelling word = some range ∧
      r.alignment = alignmentAfterNegation negated range ∧
      r.length = (negationChars negated).length + spelling.toList.length + 1 := by
  obtain ⟨range, hrange, rfl⟩ := Option.map_eq_some_iff.mp h
  refine ⟨range, hrange, rfl, ?_⟩
  simp [Suggestion.length, Suggestion.render, Candidate.render, KeyCandidate.render,
    Comparison.chars, Nat.add_assoc]

/-- **A spelling that is the typed word** ranks before all others by alignment and length: the word
stands at its start, and no spelling that contains the word is shorter. -/
theorem lexLe_rank_of_sameAsciiIgnoringCase
    (hr : spellingSuggestion? negated word spelling = some r)
    (hr' : spellingSuggestion? negated word spelling' = some r')
    (hsame : sameAsciiIgnoringCase spelling word = true) : lexLe r.rank r'.rank = true := by
  obtain ⟨range, hrange, halignment, hlength⟩ := exists_of_spellingSuggestion? hr
  obtain ⟨range', hrange', halignment', hlength'⟩ := exists_of_spellingSuggestion? hr'
  have hletters := sameLetters_of_sameAsciiIgnoringCase hsame
  have hstart : range.start = 0 := by
    obtain ⟨found, hfound, hle⟩ := exists_findIgnoringCase_of_shows (.of_sameLetters hletters)
    obtain rfl := Option.some.inj (hrange.symm.trans hfound)
    exact Nat.le_zero.mp hle
  have hle : spelling.toList.length ≤ spelling'.toList.length := by
    have hshows := shows_of_findIgnoringCase hrange'
    have hstop := hshows.stop_eq
    have hin := hshows.stop_le_length
    rw [hletters.length_eq]
    omega
  rw [lexLe_rank_iff, hlength, hlength', halignment, halignment', alignmentAfterNegation,
    alignmentAfterNegation, if_pos hstart]
  by_cases hstart' : range'.start = 0
  · rw [if_pos hstart']
    omega
  · rw [if_neg hstart']
    cases negated <;> simp [Alignment.rank]

/-- **Exact spellings in front** do not change the order by alignment and length. -/
theorem lexLe_rank_of_lexLe_spellingRank
    (hr : spellingSuggestion? negated word spelling = some r)
    (hr' : spellingSuggestion? negated word spelling' = some r')
    (h : lexLe (spellingRank word k spelling r) (spellingRank word k' spelling' r') = true) :
    lexLe r.rank r'.rank = true := by
  by_cases hsame : sameAsciiIgnoringCase spelling word = true
  · exact lexLe_rank_of_sameAsciiIgnoringCase hr hr' hsame
  · have hsame' : ¬sameAsciiIgnoringCase spelling' word = true := fun hsame' => by
      simp [spellingRank, hsame, hsame', lexLe] at h
    simp only [spellingRank, if_neg hsame, if_neg hsame', List.cons_append, lexLe, Nat.lt_irrefl,
      decide_false, Bool.false_or, beq_self_eq_true, Bool.true_and] at h
    exact lexLe_of_lexLe_append rfl h

end Keys

/-- **The source ranks by the match**: keys and card names always do, saved filters and values once
something has been typed. Comparisons keep the order in which they are listed. -/
def RanksByMatch (t : Draft.Term) : Source → Prop
  | saved _ _ => t.isEmpty = false
  | values _ => t.fragment ≠ ""
  | keys _ | names _ => True
  | operators _ => False

theorem pairwise_rank_suggestions {s : Source} (h : s.RanksByMatch t) (excluding : List Filter)
    (limit : Nat) : (s.suggestions t excluding limit).Pairwise
      fun r r' => lexLe r.rank r'.rank = true := by
  cases s with
  | saved l store =>
    have hempty : ¬t.isEmpty = true := ne_true_of_eq_false h
    rw [suggestions, SavedList.suggestions, if_neg hempty]
    exact (pairwise_rankBy _ _).sublist (List.take_sublist limit _)
  | keys v =>
    rw [suggestions, Vocabulary.suggestions]
    split
    · exact .nil
    rename_i word hword
    refine pairwise_rank_of_rankBy (fun p hp q hq hle => ?_) limit
    obtain ⟨k, -, spelling, -, hr, hrank⟩ := Vocabulary.exists_of_mem_keySuggestions hp
    obtain ⟨k', -, spelling', -, hr', hrank'⟩ := Vocabulary.exists_of_mem_keySuggestions hq
    rw [hrank, hrank'] at hle
    exact lexLe_rank_of_lexLe_spellingRank hr hr' hle
  | values v =>
    rw [suggestions, Vocabulary.valueSuggestions]
    split
    · exact .nil
    rename_i k hk
    rw [SettledKey.valueSuggestions]
    split
    · exact .nil
    refine pairwise_rank_of_rankBy (fun p hp q hq hle => ?_) limit
    obtain ⟨value, -, hsuggested⟩ := List.mem_filterMap.mp hp
    obtain ⟨r, hr, rfl⟩ := Option.map_eq_some_iff.mp hsuggested
    obtain ⟨value', -, hsuggested'⟩ := List.mem_filterMap.mp hq
    obtain ⟨r', hr', rfl⟩ := Option.map_eq_some_iff.mp hsuggested'
    have hne : ¬k.value.content.toList.isEmpty = true := by
      rw [← SettledKey.fragment_of_ofDraft? hk, List.isEmpty_iff]
      exact mt String.toList_eq_nil_iff.mp h
    simp only [SettledKey.valueRank, if_neg hne] at hle
    exact lexLe_of_lexLe_append rfl hle
  | operators v => exact h.elim
  | names ns =>
    exact (pairwise_rankBy _ _).sublist (List.take_sublist limit _)

end Order

/-- **The limit and the exclusions never distort a source.** Asked for enough and with nothing to
leave out, a source gives all its candidates. Any other answer is the beginning of this list, less
what is left out. And once something has been typed, the answers go by alignment and length. -/
theorem suggestions_eq_take_filter (s : Source) (t : Draft.Term) (enough : Nat)
    (h : (s.candidates t).length ≤ enough) :
    (s.suggestions t [] enough).Perm (s.candidates t) ∧
    (∀ excluding limit, s.suggestions t excluding limit = ((s.suggestions t [] enough).filter
      fun r => !SavedList.isExcluded excluding r).take limit) ∧
    (s.RanksByMatch t → ∀ excluding limit, (s.suggestions t excluding limit).Pairwise
      fun r r' => lexLe r.rank r'.rank = true) := by
  obtain ⟨ranked, hperm, hanswers⟩ := s.cutFrom_suggestions (t := t)
  have hnone : ∀ r, SavedList.isExcluded [] r = false := by
    intro r
    unfold SavedList.isExcluded
    split <;> rfl
  have hall : s.suggestions t [] enough = ranked := by
    rw [hanswers, List.filter_eq_self.mpr fun r _ => by rw [hnone, Bool.not_false],
      List.take_of_length_le (hperm.length_eq ▸ h)]
  refine ⟨hall ▸ hperm, fun excluding limit => ?_, fun hordered excluding limit =>
    pairwise_rank_suggestions hordered excluding limit⟩
  rw [hall, hanswers]

/-- Three card names, the best of which is to be left out. -/
theorem suggestions_eq_take_filter_names :
    let s := names ["Chain Lightning", "Lightning Bolt", "Lightning Helix"]
    let t := Draft.Term.ofText "light"
    let bolt := nameFilter t "Lightning Bolt"
    (s.candidates t).length ≤ 3 ∧
      s.suggestions t [bolt] 1 = ((s.suggestions t [] 3).filter
        fun r => !SavedList.isExcluded [bolt] r).take 1 ∧
      (s.suggestions t [bolt] 1).map Suggestion.render = ["\"Lightning Helix\""] ∧
      (s.suggestions t [] 3).Pairwise fun r r' => lexLe r.rank r'.rank = true := by
  intro s t bolt
  have henough : (s.candidates t).length ≤ 3 := Nat.le_refl _
  obtain ⟨-, hanswers, hordered⟩ := suggestions_eq_take_filter s t 3 henough
  refine ⟨henough, hanswers [bolt] 1, ?_, hordered trivial [] 3⟩
  rw [suggestions, nameSuggestions, rankBy_eq_foldr]
  decide +kernel

end Source

end CardFilter
