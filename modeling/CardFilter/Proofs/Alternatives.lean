import CardFilter.Proofs.Acceptance

/-!
# Comparisons that stand in for each other

Once a key and one of its values have been typed, the same key and value are offered with every
other comparison that the key accepts. Whichever of these filters is taken, the search box then
offers the ones that were left and the one that was there before
(`CardFilter.Vocabulary.alternatives_closed`): one can go round among them and never leave.

* A draft term of this kind is known by its key and its value alone. Whatever the quotes and the
  case of what was typed, it completes to a term, and the list of what is offered is the list of
  **all comparisons of the key without the one of the term**
  (`CardFilter.SettledKey.alternatives_eq`).
* When a filter of the list is typed, the draft term has the same key and the same value, for the
  value is written as it was read (`CardFilter.SettledKey.exists_settled_render`). Only the
  comparison is another one.
-/

namespace CardFilter

/-- **The filters that are offered instead of a draft term**, where nothing is left out. -/
def Vocabulary.alternatives (v : Vocabulary) (t : Draft.Term) (limit : Nat) : List Candidate :=
  (v.operatorSuggestions t [] limit).map (·.candidate)

theorem Comparison.mem_all (c : Comparison) : c ∈ Comparison.all := by
  cases c <;> decide

theorem OperatorClass.mem_comparisons {k : OperatorClass} {c : Comparison} :
    c ∈ k.comparisons ↔ k.accepts c = true := by
  rw [comparisons, List.mem_filter]
  exact and_iff_right c.mem_all

namespace SettledKey

variable {t : Draft.Term} {k : SettledKey} {value : Value} {c d : Comparison} {limit : Nat}

theorem filter_inj (h : k.filter c value = k.filter d value) : c = d :=
  (Term.keyed.inj (Filter.term.inj h)).2.2.1

/-- Six filters are always enough to offer, since there are seven comparisons and one of them is
there. -/
theorem length_others_le (hk : SettledKey.ofDraft? .standard t = some k) :
    (k.key.operators.comparisons.filter (· ≠ k.comparison)).length ≤ 6 := by
  have hmem : k.comparison ∈ k.key.operators.comparisons :=
    OperatorClass.mem_comparisons.mpr (of_ofDraft? hk).2.2.2
  have hlt : (k.key.operators.comparisons.filter (· ≠ k.comparison)).length <
      k.key.operators.comparisons.length := by
    refine List.length_filter_lt_length_iff_exists.mpr ⟨k.comparison, hmem, by simp⟩
  have hle : k.key.operators.comparisons.length ≤ 7 := List.length_filter_le _ Comparison.all
  omega

/-- **All comparisons of the key, without the one that was typed**. -/
theorem alternatives_eq (hk : SettledKey.ofDraft? .standard t = some k)
    (hvalue : k.value.value? true = some value) (hlists : k.lists value = true)
    (hlimit : 6 ≤ limit) :
    Vocabulary.standard.alternatives t limit =
      (k.key.operators.comparisons.filter (· ≠ k.comparison)).map fun c =>
        .operator (k.filter c value) := by
  have hcomplete := completeClosing?_of_ofDraft? hk
  rw [hvalue] at hcomplete
  have hlength := length_others_le hk
  simp only [Vocabulary.alternatives, Vocabulary.operatorSuggestions, hk, hcomplete,
    Option.map_some, hlists, if_true, operatorSuggestions, List.map_map, List.contains_nil,
    Bool.not_false, List.filter_true]
  rw [List.take_of_length_le (by simpa using hlength.trans hlimit), List.map_map]
  rfl

/-- **The text of a filter settles its key**, with the comparison that it has and with the value
that it has. -/
theorem exists_settled_render (hk : SettledKey.ofDraft? .standard t = some k)
    (hlists : k.lists value = true) (hc : k.key.operators.accepts c = true) :
    ∃ k', SettledKey.ofDraft? .standard (Draft.Term.ofText (k.filter c value).render) = some k' ∧
      k'.value.value? true = some value ∧ k'.key = k.key ∧ k'.comparison = c ∧
        k'.filter = k.filter := by
  obtain ⟨-, -, hlookup, -⟩ := of_ofDraft? hk
  obtain ⟨listed, hlisted, hsame⟩ := List.any_eq_true.mp hlists
  have hwritten : value.WellFormed :=
    Value.wellFormed_of_listed (Vocabulary.lookup?_eq_some_iff.mp hlookup).1 hlisted hsame
  obtain ⟨hword, hlower⟩ := Vocabulary.standard_spelling_of_accepts
    (Vocabulary.accepts_iff_lookup?.mpr ⟨k.key, hlookup, hc⟩)
  have hkey : lowercase (String.ofList k.spelling.toList) = k.spelling := by
    rw [String.ofList_toList, hlower]
  have hdraft : Draft.Term.ofText (k.filter c value).render =
      ⟨k.negated, .keyed k.spelling (.complete c) (Draft.Text.ofChars value.chars),
        (k.filter c value).render⟩ := by
    have hrender : (k.filter c value).render = String.ofList
        (negationChars k.negated ++ (k.spelling.toList ++ (c.chars ++ value.chars))) := by
      simp [Filter.render, Filter.chars, Term.chars, filter]
    rw [hrender, Draft.Term.ofText_keyed hword (by rw [hkey, hlookup])
      (value.beginsValue_chars.ne_of_mem_head? (by decide) (by decide)), hkey]
  refine ⟨⟨k.key, k.spelling, c, Draft.Text.ofChars value.chars, k.negated⟩, ?_,
    Draft.Text.value?_of_written hwritten.written_chars true, rfl, rfl, rfl⟩
  rw [hdraft]
  simp only [ofDraft?, hlookup, Draft.Operator.comparison?, hc, if_true]

end SettledKey

/-- **Comparisons that a key accepts stand in for each other.** Where something is offered for a
draft term, the draft completes to a term, and every offer is this term with another comparison
that its key accepts. When the offer is typed, then the term and all the other offers are offered,
in the order of the comparisons. -/
theorem Vocabulary.alternatives_closed (t : Draft.Term) (limit : Nat) (hlimit : 6 ≤ limit)
    (a : Candidate) (ha : a ∈ standard.alternatives t limit) :
    ∃ negated key c c' value, t.completeClosing? = some (.keyed negated key c value) ∧
      a = .operator (.term (.keyed negated key c' value)) ∧ c' ≠ c ∧ standard.Accepts key c' ∧
      (standard.alternatives (.ofText a.render) limit).Sublist
        (Comparison.all.map fun c => .operator (.term (.keyed negated key c value))) ∧
      ∀ b, b ∈ standard.alternatives (.ofText a.render) limit ↔ b ≠ a ∧
        (b = .operator (.term (.keyed negated key c value)) ∨
          b ∈ standard.alternatives t limit) := by
  obtain ⟨r, hr, rfl⟩ := List.mem_map.mp ha
  obtain ⟨k, value, hk, hvalue, hlists, c', hne, hc', -, rfl⟩ :=
    exists_of_mem_operatorSuggestions hr
  obtain ⟨hcontent, hnegated, hlookup, hc⟩ := SettledKey.of_ofDraft? hk
  have hcomplete := SettledKey.completeClosing?_of_ofDraft? hk
  rw [hvalue] at hcomplete
  obtain ⟨k', hk', hvalue', hkey, hcomparison, hfilter⟩ :=
    SettledKey.exists_settled_render hk hlists hc'
  have hlists' : k'.lists value = true := by
    rwa [SettledKey.lists, hkey]
  have hoffered := SettledKey.alternatives_eq hk hvalue hlists hlimit
  have hoffered' := SettledKey.alternatives_eq hk' hvalue' hlists' hlimit
  rw [hkey, hcomparison, hfilter] at hoffered'
  refine ⟨k.negated, k.spelling, k.comparison, c', value, hcomplete, rfl, hne,
    accepts_iff_lookup?.mpr ⟨k.key, hlookup, hc'⟩, ?_, fun b => ?_⟩
  · change (standard.alternatives (.ofText (k.filter c' value).render) limit).Sublist _
    rw [hoffered']
    exact (List.filter_sublist.trans List.filter_sublist).map _
  · change b ∈ standard.alternatives (.ofText (k.filter c' value).render) limit ↔
      b ≠ .operator (k.filter c' value) ∧ (b = .operator (k.filter k.comparison value) ∨ _)
    rw [hoffered', hoffered]
    simp only [List.mem_map, List.mem_filter, OperatorClass.mem_comparisons, decide_eq_true_eq]
    constructor
    · rintro ⟨d, ⟨hd, hdc⟩, rfl⟩
      refine ⟨fun heq => hdc (SettledKey.filter_inj (Candidate.operator.inj heq)), ?_⟩
      by_cases hsame : d = k.comparison
      · exact .inl (by rw [hsame])
      · exact .inr ⟨d, ⟨hd, hsame⟩, rfl⟩
    · rintro ⟨hb, rfl | ⟨d, ⟨hd, -⟩, rfl⟩⟩
      · exact ⟨k.comparison, ⟨hc, hne.symm⟩, rfl⟩
      · exact ⟨d, ⟨hd, fun heq => hb (by rw [heq])⟩, rfl⟩

/-- A regular expression that is not closed yet, its key in capitals. The filter with `!=` is
offered for it, and is taken. -/
theorem Vocabulary.alternatives_closed_open_regex :
    let t := Draft.Term.ofText "-R>=/Mythic"
    let a := Candidate.operator (.term (.keyed true "r" .notEqual (.regex "Mythic")))
    6 ≤ 6 ∧ a ∈ standard.alternatives t 6 ∧ a.render = "-r!=/Mythic/" ∧
      ∃ negated key c c' value, t.completeClosing? = some (.keyed negated key c value) ∧
        a = .operator (.term (.keyed negated key c' value)) ∧ c' ≠ c ∧ standard.Accepts key c' ∧
        (standard.alternatives (.ofText a.render) 6).Sublist
          (Comparison.all.map fun c => .operator (.term (.keyed negated key c value))) ∧
        ∀ b, b ∈ standard.alternatives (.ofText a.render) 6 ↔ b ≠ a ∧
          (b = .operator (.term (.keyed negated key c value)) ∨
            b ∈ standard.alternatives t 6) := by
  intro t a
  have ha : a ∈ standard.alternatives t 6 := by decide +kernel
  exact ⟨le_refl 6, ha, by decide +kernel, alternatives_closed t 6 (le_refl 6) a ha⟩

end CardFilter
