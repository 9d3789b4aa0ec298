import CardFilter.Proofs.Deliveries
import CardFilter.Proofs.Keys

/-!
# Merged lists of suggestions

A list of suggestions is merged from six sources (`CardFilter.Origin`), which know nothing of each
other. The merge keeps of every text the first suggestion that shows it. This file says what that
makes of a list (`CardFilter.IsMerged`): nothing is in it twice, nothing that is to be left out,
of each source at most what was asked for, the sources one after the other in the order of their
ranking, and of everything that a source offers, the text, under the first source that offers it.

Both lists of a stream are of this kind, and the second one goes on where the first one ends
(`CardFilter.Session.isMerged_of_stream`).

What a source offers is described once, by `CardFilter.Offers`: it is all that is used of the
sources to see where a suggestion comes from and that nothing excluded is offered.
-/

namespace CardFilter

/-! ### The sources -/

/-- Where a suggestion comes from. -/
inductive Origin
  /-- The pinned filters. -/
  | pinned
  /-- The filters used lately. -/
  | history
  /-- The keys. -/
  | key
  /-- The values of a key. -/
  | value
  /-- The comparisons of a key. -/
  | operator
  /-- The card names. -/
  | name
  deriving DecidableEq, Repr

namespace Origin

/-- The sources that answer at once, in their order. -/
def atOnce : List Origin :=
  [pinned, history, key, value, operator]

/-- **All sources**, in their order. -/
def all : List Origin :=
  atOnce ++ [name]

/-- The number of sources that come before. -/
def place : Origin → Nat
  | pinned => 0
  | history => 1
  | key => 2
  | value => 3
  | operator => 4
  | name => 5

/-- **What a source offers** for a completion, best first, where `names` are the names that the
catalog gives. -/
def offers (s : Sources) (c : Completion) (names : List String) : Origin → List Suggestion
  | pinned => SavedList.pinned.suggestions s.pinned c.term c.excluding c.limit
  | history => SavedList.history.suggestions s.history c.term c.excluding c.limit
  | key => Vocabulary.standard.suggestions c.term c.limit
  | value => Vocabulary.standard.valueSuggestions c.term c.excluding c.limit
  | operator => Vocabulary.standard.operatorSuggestions c.term c.excluding c.limit
  | name => nameSuggestions c.term names c.excluding c.limit

end Origin

/-- Where the candidate comes from. -/
def Candidate.origin : Candidate → Origin
  | pinned _ => .pinned
  | history _ => .history
  | key _ => .key
  | value _ => .value
  | operator _ => .operator
  | name _ => .name

/-- Where the suggestion comes from. -/
def Suggestion.origin (r : Suggestion) : Origin :=
  r.candidate.origin

/-- The source that a list of saved filters is. -/
def SavedList.origin : SavedList → Origin
  | pinned => .pinned
  | history => .history

/-- The list of saved filters. -/
def Sources.store (s : Sources) : SavedList → Store
  | .pinned => s.pinned
  | .history => s.history

/-- **What can be offered** for a term: saved filters and their negations, keys, values and
comparisons of the key that was typed, and the names that the catalog gives. -/
inductive Offers (s : Sources) (t : Draft.Term) (names : List String) : Candidate → Prop
  /-- A saved filter. -/
  | saved {l : SavedList} {f : Filter} : f ∈ (s.store l).entries →
    Offers s t names (l.candidate f)
  /-- The negation of a saved filter. -/
  | negated {l : SavedList} {f : Filter} : f ∈ (s.store l).entries → f.isNegated = false →
    Offers s t names (l.candidate (f.withNegation true))
  /-- A spelling of a key. -/
  | key {k : Key} {spelling : String} : k ∈ Vocabulary.standard.keys → spelling ∈ k.spellings →
    Offers s t names (.key ⟨t.negated, spelling, .including⟩)
  /-- A value that the key lists. -/
  | value {k : SettledKey} {value : String} : SettledKey.ofDraft? .standard t = some k →
    value ∈ k.key.values.getD [] →
    Offers s t names (.value (k.filter k.comparison (.text value)))
  /-- Another comparison that the key accepts, where the value is one that it lists. -/
  | operator {k : SettledKey} {value : Value} {comparison : Comparison} :
    SettledKey.ofDraft? .standard t = some k →
    t.completeClosing? = some (.keyed k.negated k.spelling k.comparison value) →
    k.lists value = true → comparison ≠ k.comparison →
    k.key.operators.accepts comparison = true →
    Offers s t names (.operator (k.filter comparison value))
  /-- A name of the catalog. -/
  | name {name : String} : name ∈ names → Offers s t names (.name (nameFilter t name))

/-! ### What the sources offer -/

section Sources

variable {s : Sources} {t : Draft.Term} {names : List String} {excluding : List Filter}
  {limit : Nat} {r : Suggestion}

/-- **A suggestion that a source makes**: it is one of what can be offered, comes from that source,
and is not to be left out. -/
structure Origin.Makes (s : Sources) (c : Completion) (names : List String) (o : Origin)
    (r : Suggestion) : Prop where
  /-- It can be offered. -/
  offers : Offers s c.term names r.candidate
  /-- It comes from the source. -/
  origin_eq : r.origin = o
  /-- It is not one of the filters to leave out. -/
  not_excluded : ∀ f ∈ r.candidate.filter?, f ∉ c.excluding

theorem SavedList.origin_candidate (l : SavedList) (f : Filter) :
    (l.candidate f).origin = l.origin := by
  cases l <;> rfl

theorem SavedList.filter?_candidate (l : SavedList) (f : Filter) :
    (l.candidate f).filter? = some f := by
  cases l <;> rfl

/-- A saved filter that fits is offered as it is or negated. -/
theorem SavedList.candidate_of_suggestion? {l : SavedList} {typed : String} {f : Filter}
    (h : l.suggestion? typed f = some r) :
    r.candidate = l.candidate f ∨
      f.isNegated = false ∧ r.candidate = l.candidate (f.withNegation true) := by
  unfold suggestion? at h
  split at h
  · cases h
    exact .inl rfl
  split at h
  swap
  · cases h
  split at h
  · cases h
  · rename_i hnegated
    obtain ⟨range, -, hr⟩ := Option.map_eq_some_iff.mp h
    refine .inr ⟨by simpa using hnegated, ?_⟩
    rw [← hr]
    split <;> rfl

theorem SavedList.makes_suggestions (l : SavedList) (c : Completion)
    (h : r ∈ l.suggestions (s.store l) c.term c.excluding c.limit) :
    l.origin.Makes s c names r := by
  unfold suggestions at h
  split at h
  · obtain ⟨f, hf, rfl⟩ := List.mem_map.mp h
    obtain ⟨hsaved, hkept⟩ := List.mem_filter.mp (List.mem_of_mem_take hf)
    refine ⟨.saved hsaved, l.origin_candidate f, fun g hg => ?_⟩
    obtain rfl := Option.some.inj ((l.filter?_candidate f).symm.trans hg)
    simpa using hkept
  · obtain ⟨hfits, hkept⟩ := List.mem_filter.mp (mem_of_mem_take_rankBy h)
    obtain ⟨f, hf, hr⟩ := List.mem_filterMap.mp hfits
    have hexcluded : ∀ g ∈ r.candidate.filter?, g ∉ c.excluding := by
      intro g hg
      simpa [isExcluded, Option.mem_def.mp hg] using hkept
    rcases candidate_of_suggestion? hr with hsame | ⟨hnegated, hopposite⟩
    · exact ⟨hsame ▸ .saved hf, (congrArg _ hsame).trans (l.origin_candidate f), hexcluded⟩
    · exact ⟨hopposite ▸ .negated hf hnegated,
        (congrArg _ hopposite).trans (l.origin_candidate _), hexcluded⟩

/-- A ranked suggestion of a key is that of one of its spellings. -/
theorem Vocabulary.exists_of_mem_keySuggestions {v : Vocabulary} {negated : Bool} {word : String}
    {p : List Nat × Suggestion} (h : p ∈ v.keys.flatMap (keySuggestions negated word)) :
    ∃ k ∈ v.keys, ∃ spelling ∈ k.spellings,
      spellingSuggestion? negated word spelling = some p.2 ∧
        p.1 = spellingRank word k spelling p.2 := by
  obtain ⟨k, hk, hspellings⟩ := List.mem_flatMap.mp h
  obtain ⟨spelling, hspelling, hsuggested⟩ := List.mem_filterMap.mp hspellings
  obtain ⟨r, hr, rfl⟩ := Option.map_eq_some_iff.mp hsuggested
  exact ⟨k, hk, spelling, hspelling, hr, rfl⟩

theorem candidate_of_spellingSuggestion? {negated : Bool} {word spelling : String}
    (h : spellingSuggestion? negated word spelling = some r) :
    r.candidate = .key ⟨negated, spelling, .including⟩ := by
  obtain ⟨range, -, rfl⟩ := Option.map_eq_some_iff.mp h
  rfl

theorem Vocabulary.makes_suggestions (c : Completion)
    (h : r ∈ Vocabulary.standard.suggestions c.term c.limit) : Origin.key.Makes s c names r := by
  unfold suggestions at h
  split at h
  · cases h
  · rename_i word hword
    obtain ⟨p, hranked, rfl⟩ := List.mem_map.mp h
    obtain ⟨k, hk, spelling, hspelling, hr, -⟩ :=
      exists_of_mem_keySuggestions (mem_of_mem_take_rankBy hranked)
    have hcandidate := candidate_of_spellingSuggestion? hr
    refine ⟨hcandidate ▸ .key hk hspelling, congrArg Candidate.origin hcandidate, fun f hf => ?_⟩
    rw [hcandidate] at hf
    cases hf

theorem SettledKey.candidate_of_suggestion? {k : SettledKey} {value : String}
    (h : k.suggestion? value = some r) :
    r.candidate = .value (k.filter k.comparison (.text value)) := by
  unfold suggestion? at h
  simp only at h
  split at h
  · cases h
    rfl
  · obtain ⟨range, -, rfl⟩ := Option.map_eq_some_iff.mp h
    rfl

theorem Vocabulary.makes_valueSuggestions (c : Completion)
    (h : r ∈ Vocabulary.standard.valueSuggestions c.term c.excluding c.limit) :
    Origin.value.Makes s c names r := by
  unfold valueSuggestions at h
  split at h
  · cases h
  rename_i k hk
  unfold SettledKey.valueSuggestions at h
  split at h
  · cases h
  obtain ⟨⟨rank, r'⟩, hranked, rfl⟩ := List.mem_map.mp h
  obtain ⟨value, hvalue, hsuggested⟩ := List.mem_filterMap.mp (mem_of_mem_take_rankBy hranked)
  obtain ⟨hlisted, hkept⟩ := List.mem_filter.mp hvalue
  obtain ⟨r'', hr'', heq⟩ := Option.map_eq_some_iff.mp hsuggested
  obtain ⟨-, rfl⟩ := Prod.mk.inj heq
  have hcandidate := SettledKey.candidate_of_suggestion? hr''
  refine ⟨hcandidate ▸ .value hk hlisted, congrArg Candidate.origin hcandidate, fun f hf => ?_⟩
  simp only [hcandidate] at hf
  obtain rfl := Option.some.inj hf
  simpa using hkept

/-- **A key is settled** when a key of the vocabulary and a comparison that it accepts have been
typed. -/
theorem SettledKey.of_ofDraft? {v : Vocabulary} {k : SettledKey}
    (h : SettledKey.ofDraft? v t = some k) :
    t.content = .keyed k.spelling (.complete k.comparison) k.value ∧ t.negated = k.negated ∧
      v.lookup? k.spelling = some k.key ∧ k.key.operators.accepts k.comparison = true := by
  unfold ofDraft? at h
  split at h
  · cases h
  rename_i spelling operator value hcontent
  split at h
  swap
  · cases h
  rename_i key comparison hkey hcomparison
  split at h
  swap
  · cases h
  rename_i haccepts
  cases h
  refine ⟨?_, rfl, hkey, haccepts⟩
  cases operator with
  | complete c =>
    obtain rfl : c = comparison := Option.some.inj hcomparison
    exact hcontent
  | bang => cases hcomparison

theorem SettledKey.fragment_of_ofDraft? {v : Vocabulary} {k : SettledKey}
    (h : SettledKey.ofDraft? v t = some k) : t.fragment = k.value.content := by
  rw [Draft.Term.fragment, (of_ofDraft? h).1]

theorem SettledKey.completeClosing?_of_ofDraft? {k : SettledKey}
    (h : SettledKey.ofDraft? .standard t = some k) :
    t.completeClosing? =
      (k.value.value? true).map (.keyed k.negated k.spelling k.comparison ·) := by
  obtain ⟨hcontent, hnegated, hkey, haccepts⟩ := of_ofDraft? h
  rw [Draft.Term.completeClosing?, Draft.Term.promote?, hcontent]
  simp only [Draft.Operator.comparison?, hkey, haccepts, if_true, hnegated]

/-- **What is offered with another comparison**: the settled key and its value, which is complete
and which the key lists, with a comparison that the key accepts. -/
theorem Vocabulary.exists_of_mem_operatorSuggestions
    (h : r ∈ Vocabulary.standard.operatorSuggestions t excluding limit) :
    ∃ k value, SettledKey.ofDraft? .standard t = some k ∧ k.value.value? true = some value ∧
      k.lists value = true ∧ ∃ c, c ≠ k.comparison ∧ k.key.operators.accepts c = true ∧
        k.filter c value ∉ excluding ∧ r = ⟨.operator (k.filter c value), none, .inner⟩ := by
  unfold operatorSuggestions at h
  split at h
  swap
  · cases h
  rename_i k _ _ _ value hk hcomplete
  split at h
  swap
  · cases h
  rename_i hlists
  obtain ⟨f, hf, rfl⟩ := List.mem_map.mp h
  obtain ⟨hother, hkept⟩ := List.mem_filter.mp (List.mem_of_mem_take hf)
  obtain ⟨comparison, hcomparison, rfl⟩ := List.mem_map.mp hother
  obtain ⟨haccepted, hne⟩ := List.mem_filter.mp hcomparison
  have hvalue := SettledKey.completeClosing?_of_ofDraft? hk
  rw [hcomplete] at hvalue
  obtain ⟨value', hvalue', heq⟩ := Option.map_eq_some_iff.mp hvalue.symm
  obtain rfl : value' = value := (Term.keyed.inj heq).2.2.2
  exact ⟨k, value', hk, hvalue', hlists, comparison, by simpa using hne,
    (List.mem_filter.mp haccepted).2, by simpa using hkept, rfl⟩

theorem Vocabulary.makes_operatorSuggestions (c : Completion)
    (h : r ∈ Vocabulary.standard.operatorSuggestions c.term c.excluding c.limit) :
    Origin.operator.Makes s c names r := by
  obtain ⟨k, value, hk, hvalue, hlists, comparison, hne, haccepts, hkept, rfl⟩ :=
    exists_of_mem_operatorSuggestions h
  have hcomplete := SettledKey.completeClosing?_of_ofDraft? hk
  rw [hvalue] at hcomplete
  refine ⟨.operator hk hcomplete hlists hne haccepts, rfl, fun g hg => ?_⟩
  obtain rfl := Option.some.inj hg
  exact hkept

theorem makes_nameSuggestions (c : Completion)
    (h : r ∈ nameSuggestions c.term names c.excluding c.limit) :
    Origin.name.Makes s c names r := by
  obtain ⟨name, hname, rfl⟩ := List.mem_map.mp (mem_of_mem_take_rankBy h)
  obtain ⟨hlisted, hkept⟩ := List.mem_filter.mp hname
  refine ⟨.name hlisted, rfl, fun f hf => ?_⟩
  obtain rfl := Option.some.inj hf
  simpa using hkept

/-- **What a source offers** is what it can make. -/
theorem Origin.makes_of_mem_offers {c : Completion} {o : Origin} (h : r ∈ o.offers s c names) :
    o.Makes s c names r := by
  cases o with
  | pinned => exact SavedList.pinned.makes_suggestions c h
  | history => exact SavedList.history.makes_suggestions c h
  | key => exact Vocabulary.makes_suggestions c h
  | value => exact Vocabulary.makes_valueSuggestions c h
  | operator => exact Vocabulary.makes_operatorSuggestions c h
  | name => exact makes_nameSuggestions c h

theorem Origin.length_offers_le (s : Sources) (c : Completion) (names : List String)
    (o : Origin) : (o.offers s c names).length ≤ c.limit := by
  have hsaved : ∀ (l : SavedList) (store : Store),
      (l.suggestions store c.term c.excluding c.limit).length ≤ c.limit := by
    intro l store
    unfold SavedList.suggestions
    split
    · rw [List.length_map]
      exact List.length_take_le _ _
    · exact List.length_take_le _ _
  cases o with
  | pinned => exact hsaved .pinned s.pinned
  | history => exact hsaved .history s.history
  | key =>
    simp only [offers, Vocabulary.suggestions]
    split
    · exact Nat.zero_le _
    · rw [List.length_map]
      exact List.length_take_le _ _
  | value =>
    simp only [offers, Vocabulary.valueSuggestions]
    split
    · exact Nat.zero_le _
    · unfold SettledKey.valueSuggestions
      split
      · exact Nat.zero_le _
      · rw [List.length_map]
        exact List.length_take_le _ _
  | operator =>
    simp only [offers, Vocabulary.operatorSuggestions]
    split
    · split
      · rw [SettledKey.operatorSuggestions, List.length_map]
        exact List.length_take_le _ _
      · exact Nat.zero_le _
    · exact Nat.zero_le _
  | name => exact List.length_take_le _ _

end Sources

/-! ### The order of a source -/

/-- The comparison of a keyed term. -/
def Term.comparison? : Term → Option Comparison
  | name _ _ _ => none
  | keyed _ _ comparison _ => some comparison

namespace Suggestion

/-- **The rank of a suggestion among those of its source**, the smallest first. Where the ranks are
the same, the order is that of the store, of the vocabulary or of the catalog.

* Saved filters and card names go by how the typed text lines up with them, and then by length;
  while nothing has been typed, saved filters keep the order of the store.
* A spelling that is the typed word goes first, and of spellings that rank alike the main one last.
* Values that rank alike, and all values while none has been typed, go by the alphabet.
* Comparisons go by the order in which they are listed. -/
def order (t : Draft.Term) (r : Suggestion) : List Nat :=
  match r.candidate with
  | .pinned _ | .history _ => if t.isEmpty then [] else r.rank
  | .key k =>
    (if sameAsciiIgnoringCase k.key ((bareWord? t).getD "") then 0 else 1) :: r.rank
      ++ [if Vocabulary.standard.keys.any (·.name == k.key) then 1 else 0]
  | .value f =>
    (if t.fragment.toList.isEmpty then [] else r.rank)
      ++ f.terms.flatMap fun m => codePoints m.value.content
  | .operator f => (f.terms.filterMap Term.comparison?).map Comparison.all.idxOf
  | .name _ => r.rank

/-- **The first suggestion stands before the second**: its source comes before, or it is the same
and the rank is not greater. -/
def Precedes (t : Draft.Term) (r r' : Suggestion) : Prop :=
  r.origin.place < r'.origin.place ∨ r.origin = r'.origin ∧ lexLe (r.order t) (r'.order t)

end Suggestion

section Order

variable {t : Draft.Term}

/-- What is ranked by its order among the suggestions of a source is in that order. -/
theorem pairwise_order_of_rankBy {α : Type} {key : α → List Nat} {f : α → Suggestion}
    {candidates : List α} (h : ∀ a ∈ candidates, (f a).order t = key a) (limit : Nat) :
    (((rankBy key candidates).take limit).map f).Pairwise
      fun r r' => lexLe (r.order t) (r'.order t) = true := by
  have hranked := (pairwise_rankBy key candidates).sublist (List.take_sublist limit _)
  refine List.pairwise_map.mpr (hranked.imp_of_mem fun {a b} ha hb hab => ?_)
  rw [h a (mem_of_mem_take_rankBy ha), h b (mem_of_mem_take_rankBy hb)]
  exact hab

theorem SavedList.pairwise_order_suggestions (l : SavedList) (store : Store)
    (excluding : List Filter) (limit : Nat) :
    (l.suggestions store t excluding limit).Pairwise
      fun r r' => lexLe (r.order t) (r'.order t) = true := by
  unfold suggestions
  split
  · rename_i hempty
    refine List.pairwise_map.mpr (List.pairwise_of_forall fun f g => ?_)
    cases l <;> simp [Suggestion.order, candidate, hempty, lexLe]
  · rename_i hempty
    have horder : ∀ r ∈ (store.entries.filterMap (l.suggestion? t.raw)).filter
        (fun r => !isExcluded excluding r), (id r).order t = r.rank := by
      intro r hr
      obtain ⟨f, -, hfits⟩ := List.mem_filterMap.mp (List.mem_filter.mp hr).1
      rcases candidate_of_suggestion? hfits with hsame | ⟨-, hopposite⟩
      · cases l <;> simp [Suggestion.order, hsame, candidate, hempty]
      · cases l <;> simp [Suggestion.order, hopposite, candidate, hempty]
    simpa using pairwise_order_of_rankBy horder limit

/-- Of the spellings of a key only its name is the name of a key. -/
theorem Vocabulary.standard_name_iff : ∀ k ∈ standard.keys, ∀ spelling ∈ k.spellings,
    standard.keys.any (·.name == spelling) = decide (spelling = k.name) := by
  decide +kernel

theorem Vocabulary.pairwise_order_suggestions (limit : Nat) :
    (standard.suggestions t limit).Pairwise
      fun r r' => lexLe (r.order t) (r'.order t) = true := by
  unfold suggestions
  split
  · exact .nil
  · rename_i word hword
    refine pairwise_order_of_rankBy (fun p hp => ?_) limit
    obtain ⟨k, hk, spelling, hspelling, hr, hrank⟩ := exists_of_mem_keySuggestions hp
    simp [Suggestion.order, candidate_of_spellingSuggestion? hr, hrank, spellingRank, hword,
      standard_name_iff k hk spelling hspelling]

theorem Vocabulary.pairwise_order_valueSuggestions (excluding : List Filter) (limit : Nat) :
    (standard.valueSuggestions t excluding limit).Pairwise
      fun r r' => lexLe (r.order t) (r'.order t) = true := by
  unfold valueSuggestions
  split
  · exact .nil
  rename_i k hk
  have hfragment := SettledKey.fragment_of_ofDraft? hk
  unfold SettledKey.valueSuggestions
  split
  · exact .nil
  · refine pairwise_order_of_rankBy (fun p hp => ?_) limit
    obtain ⟨value, -, hsuggested⟩ := List.mem_filterMap.mp hp
    obtain ⟨r, hr, rfl⟩ := Option.map_eq_some_iff.mp hsuggested
    have hcandidate := SettledKey.candidate_of_suggestion? hr
    simp only [Suggestion.order, hcandidate, hfragment, SettledKey.valueRank, SettledKey.filter,
      Filter.terms, List.flatMap_cons, List.flatMap_nil, List.append_nil, Term.value,
      Value.content]
    split <;> rfl

theorem Vocabulary.pairwise_order_operatorSuggestions (excluding : List Filter) (limit : Nat) :
    (standard.operatorSuggestions t excluding limit).Pairwise
      fun r r' => lexLe (r.order t) (r'.order t) = true := by
  unfold operatorSuggestions
  split
  swap
  · exact .nil
  split
  swap
  · exact .nil
  rename_i k _ _ _ value _ _ _
  have hlisted : Comparison.all.Pairwise fun c d =>
      lexLe [Comparison.all.idxOf c] [Comparison.all.idxOf d] = true := by
    decide
  have hothers := (hlisted.filter k.key.operators.accepts).filter (· ≠ k.comparison)
  refine List.pairwise_map.mpr (List.Pairwise.sublist
    ((List.take_sublist limit _).trans List.filter_sublist) (List.pairwise_map.mpr ?_))
  exact hothers

/-- **The suggestions of a source stand in its order.** -/
theorem Origin.pairwise_order_offers (s : Sources) (c : Completion) (names : List String)
    (o : Origin) : (o.offers s c names).Pairwise
      fun r r' => lexLe (r.order c.term) (r'.order c.term) = true := by
  cases o with
  | pinned => exact SavedList.pinned.pairwise_order_suggestions s.pinned c.excluding c.limit
  | history => exact SavedList.history.pairwise_order_suggestions s.history c.excluding c.limit
  | key => exact Vocabulary.pairwise_order_suggestions c.limit
  | value => exact Vocabulary.pairwise_order_valueSuggestions c.excluding c.limit
  | operator => exact Vocabulary.pairwise_order_operatorSuggestions c.excluding c.limit
  | name =>
    have horder : ∀ r ∈ (names.filter fun name =>
        !c.excluding.contains (nameFilter c.term name)).map (nameSuggestion c.term),
        (id r).order c.term = r.rank := by
      intro r hr
      obtain ⟨name, -, rfl⟩ := List.mem_map.mp hr
      rfl
    have hranked := pairwise_order_of_rankBy horder c.limit
    rwa [List.map_id] at hranked

end Order

/-! ### Merging the sources -/

section Merged

variable {s : Sources} {c : Completion} {names : List String} {os : List Origin}

/-- **A merged list** of the suggestions of some sources, which come in the order given. -/
structure IsMerged (s : Sources) (c : Completion) (names : List String) (os : List Origin)
    (list : List Suggestion) : Prop where
  /-- No two suggestions show the same text. -/
  nodup : (list.map Suggestion.render).Nodup
  /-- No filter that is to be left out is offered. -/
  not_excluded : ∀ r ∈ list, ∀ f ∈ r.candidate.filter?, f ∉ c.excluding
  /-- There are at most as many of each source as was asked for. -/
  limited : ∀ o, (list.filter fun r => r.origin = o).length ≤ c.limit
  /-- They are suggestions of the sources, in the order in which these offer them. -/
  sublist : list.Sublist (os.flatMap (Origin.offers s c names))
  /-- The sources come one after the other, each in the order of its ranks. -/
  inOrder : list.Pairwise (Suggestion.Precedes c.term)
  /-- Whatever a source offers, its text is shown, by the first source that offers it. -/
  complete : ∀ o ∈ os, ∀ r ∈ o.offers s c names, ∃ r' ∈ list, r'.render = r.render ∧
    r' ∈ r'.origin.offers s c names ∧ ∃ before after, os = before ++ r'.origin :: after ∧
      ∀ o' ∈ before, ∀ q ∈ o'.offers s c names, q.render ≠ r.render

theorem Origin.origin_of_mem_offers {o : Origin} {r : Suggestion} (h : r ∈ o.offers s c names) :
    r.origin = o :=
  (makes_of_mem_offers h).origin_eq

/-- Of the suggestions of all sources, those of one are what it offers. -/
theorem filter_flatMap_offers_sublist (hos : os.Nodup) (o : Origin) :
    ((os.flatMap (Origin.offers s c names)).filter fun r => r.origin = o).Sublist
      (o.offers s c names) := by
  induction os with
  | nil => exact List.nil_sublist _
  | cons o' os ih =>
    obtain ⟨hnew, hos⟩ := List.nodup_cons.mp hos
    rw [List.flatMap_cons, List.filter_append]
    by_cases ho : o' = o
    · subst ho
      have hrest : (os.flatMap (Origin.offers s c names)).filter (fun r => r.origin = o') = [] := by
        refine List.filter_eq_nil_iff.mpr fun r hr => ?_
        obtain ⟨o'', ho'', hr⟩ := List.mem_flatMap.mp hr
        have hne : o'' ≠ o' := fun heq => hnew (heq ▸ ho'')
        simpa [Origin.origin_of_mem_offers hr] using hne
      rw [hrest, List.append_nil]
      exact List.filter_sublist
    · have hfirst : (o'.offers s c names).filter (fun r => r.origin = o) = [] := by
        refine List.filter_eq_nil_iff.mpr fun r hr => ?_
        simpa [Origin.origin_of_mem_offers hr] using ho
      rw [hfirst, List.nil_append]
      exact ih hos

theorem pairwise_precedes_flatMap_offers (hos : os.Pairwise fun o o' => o.place < o'.place) :
    (os.flatMap (Origin.offers s c names)).Pairwise (Suggestion.Precedes c.term) := by
  refine List.pairwise_flatMap.mpr ⟨fun o _ => ?_, hos.imp fun hlt r hr r' hr' => .inl ?_⟩
  · refine (o.pairwise_order_offers s c names).imp_of_mem fun hr hr' hle => .inr ⟨?_, hle⟩
    rw [Origin.origin_of_mem_offers hr, Origin.origin_of_mem_offers hr']
  · rwa [Origin.origin_of_mem_offers hr, Origin.origin_of_mem_offers hr']

/-- **A merge of sources in their order is a merged list.** -/
theorem isMerged_merge (hos : os.Pairwise fun o o' => o.place < o'.place) :
    IsMerged s c names os (merge (os.flatMap (Origin.offers s c names))) := by
  have hsublist : (merge (os.flatMap (Origin.offers s c names))).Sublist
      (os.flatMap (Origin.offers s c names)) := distinctBy_sublist _ _
  have hnodup : os.Nodup := hos.imp fun hlt heq => by
    rw [heq] at hlt
    exact Nat.lt_irrefl _ hlt
  refine ⟨nodup_map_distinctBy _ _, fun r hr => ?_, fun o => ?_, hsublist,
    (pairwise_precedes_flatMap_offers hos).sublist hsublist, fun o ho r hr => ?_⟩
  · obtain ⟨o, -, hr⟩ := List.mem_flatMap.mp (hsublist.subset hr)
    exact (Origin.makes_of_mem_offers hr).not_excluded
  · have hof := hsublist.filter fun r => r.origin = o
    exact Nat.le_trans (hof.trans (filter_flatMap_offers_sublist hnodup o)).length_le
      (Origin.length_offers_le s c names o)
  · -- the first suggestion with the text, among all that are offered
    have hsome : ((os.flatMap (Origin.offers s c names)).find?
        fun q => q.render = r.render).isSome := by
      refine List.find?_isSome.mpr ⟨r, List.mem_flatMap.mpr ⟨o, ho, hr⟩, ?_⟩
      simp
    obtain ⟨r', hr'⟩ := Option.isSome_iff_exists.mp hsome
    have hkept := (find?_distinctBy Suggestion.render _ r.render).trans hr'
    rw [List.find?_flatMap] at hr'
    obtain ⟨before, o', after, hsplit, hfound, hnone⟩ := List.findSome?_eq_some_iff.mp hr'
    have horigin := Origin.origin_of_mem_offers (List.mem_of_find?_eq_some hfound)
    refine ⟨r', List.mem_of_find?_eq_some hkept, by simpa using List.find?_some hkept, ?_,
      before, after, ?_, fun o'' ho'' q hq => ?_⟩
    · rw [horigin]
      exact List.mem_of_find?_eq_some hfound
    · rw [horigin]
      exact hsplit
    · simpa using List.find?_eq_none.mp (hnone o'' ho'') q hq

theorem isMerged_immediate (s : Sources) (c : Completion) (names : List String) :
    IsMerged s c names Origin.atOnce (s.immediate c.term c.excluding c.limit) := by
  have hmerged : IsMerged s c names Origin.atOnce _ := isMerged_merge (by decide)
  have hall : Origin.atOnce.flatMap (Origin.offers s c names) =
      s.all c.term c.excluding c.limit := by
    simp [Origin.atOnce, Origin.offers, Sources.all]
  rwa [hall] at hmerged

theorem isMerged_withNames (s : Sources) (c : Completion) (names : List String) :
    IsMerged s c names Origin.all
      (withNames (s.immediate c.term c.excluding c.limit) c.term names c.excluding c.limit) := by
  have hmerged : IsMerged s c names Origin.all _ := isMerged_merge (by decide)
  have hall : Origin.all.flatMap (Origin.offers s c names) =
      s.all c.term c.excluding c.limit ++ nameSuggestions c.term names c.excluding c.limit := by
    simp [Origin.all, Origin.atOnce, Origin.offers, Sources.all]
  rw [hall, merge, ← distinctBy_distinctBy_append] at hmerged
  exact hmerged

end Merged

/-! ### The lists of a stream -/

namespace Session

/-- **What a stream hands out** is one of two lists: the one without card names that is known when
it is opened, and that one with the names of the catalog. -/
theorem eq_of_mem_deliveries {s : Session} (h : s.Settled) (c : Completion) (after : List Event)
    {list : List Suggestion} (hlist : list ∈ (s.openStream c).deliveries s.streams.length after) :
    list = s.immediate c ∨ list = withNames (s.immediate c) c.term ((s.lookups.service.answer?
      (s.lookups.now + s.lookups.debounce + s.lookups.service.latency)
      (nameFragment c.term)).getD []) c.excluding c.limit := by
  have hplace : s.streams.length < (s.openStream c).streams.length := by
    rw [streams_openStream, List.length_append]
    exact Nat.lt_succ_self _
  have hnow : s.lookups.now ≤ (s.openStream c).reach s.streams.length after :=
    Nat.le_trans (Nat.le_of_eq (now_openStream h c).symm) (le_reach s.streams.length _ after)
  have havailable := deliveries_prefix_available (settled_openStream h c) hplace after
  rw [available_opened h c hnow] at havailable
  rcases List.mem_cons.mp (havailable.subset hlist) with hfirst | hsecond
  · exact .inl hfirst
  · split at hsecond
    · exact .inr (List.mem_singleton.mp hsecond)
    · cases hsecond

/-- **Every list of suggestions is well-formed and loses nothing**, whatever is saved, typed and
left out, and whatever the catalog answers. The list that needs no lookup is merged from the
sources that answer at once, and the list with card names from all of them; the second list is the
first with names behind it; and a stream delivers these two and no others. -/
theorem isMerged_of_stream (sources : Sources) (minLength debounce : Nat)
    (service : CatalogService) (before after : List Event) (c : Completion)
    (names : List String) :
    let s := (start sources minLength debounce service).run before
    let first := s.immediate c
    let second := fun names => withNames first c.term names c.excluding c.limit
    let answered := s.lookups.now + debounce + service.latency
    IsMerged s.sources c names Origin.atOnce first ∧
      IsMerged s.sources c names Origin.all (second names) ∧
      (∃ more, second names = first ++ more ∧ ∀ r ∈ more, r.origin = .name) ∧
      ∀ list ∈ (s.openStream c).deliveries s.streams.length after,
        list = first ∨
          list = second ((service.answer? answered (trim c.term.fragment)).getD []) := by
  intro s first second answered
  have h : s.Settled := settled_run (settled_start ..) before
  have hlater : (start sources minLength debounce service).lookups.Later s.lookups :=
    later_run before _
  refine ⟨isMerged_immediate s.sources c names, isMerged_withNames s.sources c names,
    ⟨_, withNames_immediate s.sources c.term names c.excluding c.limit, fun r hr => ?_⟩,
    fun list hlist => ?_⟩
  · have hnamed := (distinctBy_sublist _ _).subset (List.mem_filter.mp hr).1
    exact Origin.origin_of_mem_offers (s := s.sources) (o := .name) hnamed
  · rcases eq_of_mem_deliveries h c after hlist with hfirst | hsecond
    · exact .inl hfirst
    · rw [hlater.service_eq, hlater.debounce_eq] at hsecond
      exact .inr hsecond

/-- A stream that waits for the catalog delivers two merged lists. -/
theorem isMerged_of_stream_answered :
    let s := start ⟨⟨none, [.nameSearch "Lightning Bolt"]⟩, ⟨none, []⟩⟩ 2 250
      (.ofCatalog ⟨["Lightning Bolt", "Lightning Helix"]⟩ 40 false)
    let c : Completion := ⟨.ofText "light", [], 5⟩
    let names := (s.lookups.service.answer? 290 (trim c.term.fragment)).getD []
    let lists := (s.openStream c).deliveries 0 [.polled 0, .waited 290, .polled 0]
    lists.length = 2 ∧ ∀ list ∈ lists, IsMerged s.sources c names Origin.atOnce list ∨
      IsMerged s.sources c names Origin.all list := by
  intro s c names lists
  obtain ⟨hfirst, hsecond, -, hlists⟩ := isMerged_of_stream
    ⟨⟨none, [.nameSearch "Lightning Bolt"]⟩, ⟨none, []⟩⟩ 2 250
    (.ofCatalog ⟨["Lightning Bolt", "Lightning Helix"]⟩ 40 false) []
    [.polled 0, .waited 290, .polled 0] c names
  refine ⟨by decide +kernel, fun list hlist => ?_⟩
  rcases hlists list hlist with rfl | rfl
  · exact .inl hfirst
  · exact .inr hsecond

end Session

end CardFilter
