import CardFilter.Proofs.Agreement
import CardFilter.Proofs.Snapshots

/-!
# Accepting a suggestion

To accept a suggestion is to put its text in the search box, so the text must be read as what was
offered (`CardFilter.Candidate.ComesBack`): a filter as this very filter, and a key as a term that
waits for its value.

A filter comes back from its text when it is well-formed, and then both readers agree on it. So
nothing has to be read here; it is enough to see that no source makes a filter that cannot be
written (`CardFilter.Offers.wellFormed`). The sources put their filters together in different ways:

* a saved filter was read from some text, and its negation is written with the same values;
* the key of a draft term is a spelling of the vocabulary, in lower case whatever was typed, and
  the comparisons offered for it are those that it accepts;
* the values of a key are listed, and a value that was typed is only kept where it is one of them
  but for the case of its letters, so that it brings no quotes with it, not even where it was typed
  as a regular expression;
* a card name is written between quotes, which is why no name may hold both kinds of them.

The main statement is `CardFilter.Session.comesBack_of_stream`.
-/

namespace CardFilter

/-! ### Filters that can be written -/

theorem Filter.WellFormed.withNegation {f : Filter} (h : f.WellFormed) (negated : Bool) :
    (f.withNegation negated).WellFormed := by
  cases f with
  | term t => cases t <;> exact h
  | anyOf _ _ => exact h

/-- No value that a standard key lists holds a quote. -/
theorem Vocabulary.standard_values : ∀ k ∈ standard.keys, ∀ listed ∈ k.values.getD [],
    ∀ c ∈ asciiLower listed, Quote.ofChar? c = none := by
  -- evaluated as a test, because the table is long
  have htable : standard.keys.all (fun k => (k.values.getD []).all fun listed =>
      (asciiLower listed).all fun c => (Quote.ofChar? c).isNone) = true := by
    decide +kernel
  simpa only [List.all_eq_true, Option.isNone_iff_eq_none] using htable

/-- **A value that a key lists can be written**, in whatever case and between whichever quotes. -/
theorem Value.wellFormed_of_listed {k : Key} (hk : k ∈ Vocabulary.standard.keys)
    {listed : String} (hlisted : listed ∈ k.values.getD []) {value : Value}
    (hsame : sameAsciiIgnoringCase listed value.content = true) : value.WellFormed := by
  have hquotes : ∀ q : Quote, q.mark ∉ value.content.toList := by
    intro q hq
    -- a quote is its own small letter, so the listed value would hold it too
    have hlower : q.mark.toLower ∈ asciiLower value.content := List.mem_map_of_mem hq
    rw [← eq_of_beq hsame] at hlower
    have hnone := Vocabulary.standard_values k hk listed hlisted _ hlower
    cases q <;> exact absurd hnone (by decide)
  cases value with
  | text s => exact fun hboth => hquotes .double hboth.1
  | regex s => exact hquotes .regex

/-- **A name that the catalog gives** is one of its names, and contains the fragment. -/
theorem Catalog.found_of_mem_complete {c : Catalog} {fragment name : String}
    (h : name ∈ c.complete fragment) :
    name ∈ c.names ∧ ∃ range, findIgnoringCase name fragment = some range := by
  obtain ⟨⟨name', start⟩, hfound, rfl⟩ := List.mem_map.mp h
  obtain ⟨name'', hname, hmatch⟩ := List.mem_filterMap.mp (mem_of_mem_take_rankBy hfound)
  obtain ⟨range, hrange, heq⟩ := Option.map_eq_some_iff.mp hmatch
  obtain ⟨rfl, -⟩ := Prod.mk.inj heq
  exact ⟨hname, range, hrange⟩

/-! ### What is offered comes back -/

/-- **The candidate comes back when it is accepted.** -/
structure Candidate.ComesBack (a : Candidate) : Prop where
  /-- A filter is what is read from its text, strictly and by the search box. -/
  filter : ∀ f ∈ a.filter?, Filter.parse a.render = .ok f ∧ Outcome.ofText a.render = .valid f
  /-- The text of a key is read as a term with this key and the comparison `:`, the value of which
  is still to come. -/
  key : ∀ k, a = .key k → Draft.Term.ofText a.render =
    ⟨k.negated, .keyed k.key (.complete .including) (.bare ""), a.render⟩

section Offers

variable {s : Sources} {t : Draft.Term} {names : List String} {a : Candidate}

theorem SettledKey.wellFormed_filter {k : SettledKey} {c : Comparison} {value : Value}
    (h : SettledKey.ofDraft? .standard t = some k) (hc : k.key.operators.accepts c = true)
    (hvalue : value.WellFormed) : (k.filter c value).WellFormed := by
  obtain ⟨-, -, hlookup, -⟩ := of_ofDraft? h
  exact ⟨Vocabulary.accepts_iff_lookup?.mpr ⟨k.key, hlookup, hc⟩, hvalue⟩

/-- **Every filter that can be offered can be written.** -/
theorem Offers.wellFormed (h : Offers s t names a)
    (hsaved : ∀ l, ∀ f ∈ (s.store l).entries, f.WellFormed)
    (hnames : ∀ name ∈ names, (Value.text name).WellFormed) : ∀ f ∈ a.filter?, f.WellFormed := by
  have hkey : ∀ {k : SettledKey}, SettledKey.ofDraft? .standard t = some k →
      k.key ∈ Vocabulary.standard.keys := fun hk =>
    (Vocabulary.lookup?_eq_some_iff.mp (SettledKey.of_ofDraft? hk).2.2.1).1
  intro f hf
  cases h with
  | @saved l g hg =>
    obtain rfl := Option.some.inj ((l.filter?_candidate g).symm.trans hf)
    exact hsaved l g hg
  | @negated l g hg =>
    obtain rfl := Option.some.inj ((l.filter?_candidate _).symm.trans hf)
    exact (hsaved l g hg).withNegation true
  | key => cases hf
  | value hk hlisted =>
    obtain rfl := Option.some.inj hf
    refine SettledKey.wellFormed_filter hk (SettledKey.of_ofDraft? hk).2.2.2 ?_
    exact Value.wellFormed_of_listed (hkey hk) hlisted (beq_self_eq_true _)
  | operator hk _ hlists _ hc =>
    obtain rfl := Option.some.inj hf
    obtain ⟨listed, hlisted, hsame⟩ := List.any_eq_true.mp hlists
    exact SettledKey.wellFormed_filter hk hc (Value.wellFormed_of_listed (hkey hk) hlisted hsame)
  | name hname =>
    obtain rfl := Option.some.inj hf
    exact hnames _ hname

/-- A key is offered as a standard key with the comparison `:`. -/
theorem Offers.key_cases {k : KeyCandidate} (h : Offers s t names (.key k)) :
    k.comparison = .including ∧
      ∃ key ∈ Vocabulary.standard.keys, k.key ∈ key.spellings := by
  generalize hcandidate : Candidate.key k = a at h
  cases h with
  | @saved l | @negated l => cases l <;> cases hcandidate
  | key hkey hspelling =>
    obtain rfl := Candidate.key.inj hcandidate
    exact ⟨rfl, _, hkey, hspelling⟩
  | value | operator | name => cases hcandidate

/-- **Whatever can be offered comes back.** -/
theorem Offers.comesBack (h : Offers s t names a)
    (hsaved : ∀ l, ∀ f ∈ (s.store l).entries, f.WellFormed)
    (hnames : ∀ name ∈ names, (Value.text name).WellFormed) : a.ComesBack := by
  refine ⟨fun f hf => ?_, ?_⟩
  · have hrender : a.render = f.render := by
      cases a <;> cases hf <;> rfl
    have hparse := Filter.parse_render_of_wellFormed (h.wellFormed hsaved hnames f hf)
    rw [hrender]
    exact ⟨hparse, Outcome.ofText_of_parse hparse⟩
  · rintro ⟨negated, spelling, comparison⟩ rfl
    obtain ⟨rfl, key, hkey, hspelling⟩ := h.key_cases
    obtain ⟨hword, hlower⟩ := Vocabulary.standard_spellings key hkey spelling hspelling
    have hlookup : Vocabulary.standard.lookup? (lowercase (String.ofList spelling.toList)) =
        some key := by
      rw [String.ofList_toList, hlower]
      exact Vocabulary.lookup?_eq_some_of_mem hkey hspelling
    have hread : Draft.Term.ofText (String.ofList
        (negationChars negated ++ (spelling.toList ++ (Comparison.including.chars ++ [])))) = _ :=
      Draft.Term.ofText_keyed hword hlookup (by simp)
    rw [String.ofList_toList, hlower, List.append_nil, ← List.append_assoc] at hread
    exact hread

end Offers

/-! ### The lists of a stream -/

theorem exists_mem_of_mem_getD {list? : Option (List α)} {a : α} (h : a ∈ list?.getD []) :
    ∃ list ∈ list?, a ∈ list := by
  cases list? with
  | none => cases h
  | some list => exact ⟨list, rfl, h⟩

namespace Session

/-- **Accepting a suggestion gives what was offered**: whatever has been typed, and whatever is left
out, every suggestion of the list that is known at once and of every list that a stream delivers
comes back, where the saved filters have been read from some text and no name that the catalog
answers holds both kinds of quotes. -/
theorem comesBack_of_stream (sources : Sources) (minLength debounce : Nat)
    (service : CatalogService) (before after : List Event) (c : Completion) :
    let s := (start sources minLength debounce service).run before
    (∀ l, ∀ f ∈ (s.sources.store l).entries, ∃ text, Filter.parse text = .ok f) →
      (∀ time fragment, ∀ names ∈ service.answer? time fragment, ∀ name ∈ names,
        ¬('"' ∈ name.toList ∧ '\'' ∈ name.toList)) →
      ∀ list ∈ s.immediate c :: (s.openStream c).deliveries s.streams.length after,
        ∀ r ∈ list, r.candidate.ComesBack := by
  intro s hparsed hquotes list hlist r hr
  have h : s.Settled := settled_run (settled_start ..) before
  have hlater : (start sources minLength debounce service).lookups.Later s.lookups :=
    later_run before _
  have hsaved : ∀ l, ∀ f ∈ (s.sources.store l).entries, f.WellFormed := by
    intro l f hf
    obtain ⟨text, htext⟩ := hparsed l f hf
    exact Filter.wellFormed_of_parse htext
  have hanswer (time : Nat) : ∀ name ∈ (service.answer? time (nameFragment c.term)).getD [],
      (Value.text name).WellFormed := by
    intro name hname
    obtain ⟨names, hnames, hname⟩ := exists_mem_of_mem_getD hname
    exact hquotes time _ names hnames name hname
  -- each of the lists is merged from some of the sources
  obtain ⟨names, os, hnames, hmerged⟩ : ∃ names os,
      (∀ name ∈ names, (Value.text name).WellFormed) ∧ IsMerged s.sources c names os list := by
    have hfirst := isMerged_immediate s.sources c []
    rcases List.mem_cons.mp hlist with rfl | hdelivered
    · exact ⟨[], _, by simp, hfirst⟩
    rcases eq_of_mem_deliveries h c after hdelivered with rfl | rfl
    · exact ⟨[], _, by simp, hfirst⟩
    · rw [hlater.service_eq]
      exact ⟨_, _, hanswer _, isMerged_withNames s.sources c _⟩
  obtain ⟨o, -, hoffered⟩ := List.mem_flatMap.mp (hmerged.sublist.subset hr)
  exact (Origin.makes_of_mem_offers hoffered).offers.comesBack hsaved hnames

/-- Saved filters that are offered negated, a key, and a name that stands between single quotes. -/
theorem comesBack_of_stream_negated :
    let s := start ⟨⟨none, [.term (.keyed false "t" .including (.text "orc"))]⟩,
      ⟨none, [.anyOf false [.name false false (.text "orc"), .name false false (.text "or")]]⟩⟩
      2 250 (.ofCatalog ⟨["Orcish \"Oriflamme\""]⟩ 40 false)
    let c : Completion := ⟨.ofText "-or", [], 1⟩
    let lists := (s.openStream c).deliveries 0 [.polled 0, .waited 290, .polled 0]
    lists.length = 2 ∧ ∀ list ∈ lists, ∀ r ∈ list, r.candidate.ComesBack := by
  intro s c lists
  have hterm : Filter.parse "t:orc" = .ok (.term (.keyed false "t" .including (.text "orc"))) := by
    decide +kernel
  have hgroup : Filter.parse "(orc \"or\")" =
      .ok (.anyOf false [.name false false (.text "orc"), .name false false (.text "or")]) := by
    decide +kernel
  have hparsed : ∀ l, ∀ f ∈ (s.sources.store l).entries, ∃ text, Filter.parse text = .ok f := by
    intro l f hf
    cases l with
    | pinned => exact ⟨_, List.mem_singleton.mp hf ▸ hterm⟩
    | history => exact ⟨_, List.mem_singleton.mp hf ▸ hgroup⟩
  have hquotes (time : Nat) (fragment : String) : ∀ names ∈
      (CatalogService.ofCatalog ⟨["Orcish \"Oriflamme\""]⟩ 40 false).answer? time fragment,
      ∀ name ∈ names, ¬('"' ∈ name.toList ∧ '\'' ∈ name.toList) := by
    intro names hnames name hname
    obtain rfl := Option.some.inj hnames
    obtain rfl := List.mem_singleton.mp (Catalog.found_of_mem_complete hname).1
    decide
  refine ⟨by decide +kernel, fun list hlist => ?_⟩
  exact comesBack_of_stream _ 2 250 (.ofCatalog ⟨["Orcish \"Oriflamme\""]⟩ 40 false) []
    [.polled 0, .waited 290, .polled 0] c hparsed hquotes list (List.mem_cons_of_mem _ hlist)

end Session

end CardFilter
