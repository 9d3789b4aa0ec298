import CardFilter.Proofs.RoundTrip
import CardFilter.Proofs.Snapshots

/-!
# Different candidates show different texts

Suggestions are merged by the texts that they show, so two candidates with one text count as one.
For this to lose nothing, what is offered must be known by its text. It is, even where the text
cannot be read back as a filter: a name that holds both kinds of quotes still has a text of its own.

A filter or a key is written as a mark of negation and a body (`CardFilter.Body`): a name, a key
with its comparison and perhaps a value, or a group. The text is taken apart from the left, and at
every place one character decides:

* no body begins with `-` and no value with `!`, so that the marks are seen;
* a key ends where its word does, and of the comparisons the longest one is meant, since no value
  begins with `=`;
* a word has no quotes in it, so that the first character of a value tells how it is written.

Only the members of a group are not found in this way, for the word `or` can stand between the
quotes of a member as well. They are what a reader of the text finds
(`CardFilter.Filter.parse_render_of_wellFormed`), and here it does matter that the group is one that
can be read: a key of several words would make one member of two.

The main statement is `CardFilter.Candidate.offer_eq_iff_render_eq`.
-/

namespace CardFilter

/-! ### Marks, keys and values -/

section Parts

variable {mark : Char} {b b' : Bool} {cs cs' key key' : List Char}

/-- **A mark that may be missing is seen**, where what follows does not begin with it. -/
theorem mark_append_inj (hcs : mark ∉ cs.head?) (hcs' : mark ∉ cs'.head?)
    (h : (if b then [mark] else []) ++ cs = (if b' then [mark] else []) ++ cs') :
    b = b' ∧ cs = cs' := by
  cases b with
  | false =>
    cases b' with
    | false => exact ⟨rfl, h⟩
    | true =>
      obtain rfl : cs = mark :: cs' := h
      exact absurd rfl hcs
  | true =>
    cases b' with
    | false =>
      obtain rfl : mark :: cs = cs' := h
      exact absurd rfl hcs'
    | true => exact ⟨rfl, (List.cons.inj h).2⟩

theorem not_mem_head?_of_isWord {d : Char} (h : IsWord cs) (hd : isWordChar d = false) :
    d ∉ (cs ++ cs').head? := by
  obtain ⟨c, rest, rfl⟩ := List.exists_cons_of_ne_nil h.1
  intro hc
  obtain rfl : c = d := Option.some.inj hc
  exact ne_of_isWordChar (h.2 c List.mem_cons_self) hd rfl

/-- **A key and a comparison are seen**, where no `=` follows. -/
theorem key_append_inj {c c' : Comparison} (hkey : IsWord key) (hkey' : IsWord key')
    (hcs : '=' ∉ cs.head?) (hcs' : '=' ∉ cs'.head?)
    (h : key ++ (c.chars ++ cs) = key' ++ (c'.chars ++ cs')) :
    key = key' ∧ c = c' ∧ cs = cs' := by
  have htake : ∀ {key cs : List Char} {c : Comparison}, IsWord key →
      (key ++ (c.chars ++ cs)).takeWhile isWordChar = key := fun hkey =>
    takeWhile_append_of_head? hkey.2 (Comparison.isWordChar_of_mem_head? _)
  have hread : ∀ {cs : List Char} {c : Comparison}, '=' ∉ cs.head? →
      Comparison.read? (c.chars ++ cs) = some (c, cs) := fun hcs =>
    Comparison.read?_chars_append fun d hd heq => hcs (heq ▸ hd)
  obtain rfl : key = key' := by rw [← htake hkey, h, htake hkey']
  have hrest : Comparison.read? (c.chars ++ cs) = some (c, cs) := hread hcs
  rw [List.append_cancel_left h, hread hcs'] at hrest
  obtain ⟨rfl, rfl⟩ := Prod.mk.inj (Option.some.inj hrest)
  exact ⟨rfl, rfl, rfl⟩

theorem Quote.enclose_inj {q q' : Quote} (h : q.enclose cs = q'.enclose cs') :
    q = q' ∧ cs = cs' := by
  obtain ⟨hmark, hrest⟩ := List.cons.inj h
  have hq : some q = some q' := by rw [← ofChar?_mark q, ← ofChar?_mark q', hmark]
  obtain rfl := Option.some.inj hq
  exact ⟨rfl, List.append_cancel_right hrest⟩

/-- **Different values have different texts.** -/
theorem Value.chars_injective : Function.Injective Value.chars := by
  -- a word holds no quote
  have hdiffer : ∀ {cs body : List Char} {q : Quote}, IsWord cs → cs ≠ q.enclose body := by
    intro cs body q hword heq
    have hmark := hword.2 q.mark (heq ▸ List.mem_cons_self)
    cases q <;> exact absurd hmark (by decide)
  intro v w h
  rcases v.isWord_or_eq_enclose with ⟨hword, -, hv⟩ | ⟨q, hchars, hv⟩
  · rcases w.isWord_or_eq_enclose with ⟨-, -, hw⟩ | ⟨q', hchars', -⟩
    · rw [hv, hw, h]
    · exact absurd (h.trans hchars') (hdiffer hword)
  · rcases w.isWord_or_eq_enclose with ⟨hword', -⟩ | ⟨q', hchars', hw⟩
    · exact absurd (h.symm.trans hchars) (hdiffer hword')
    · obtain ⟨rfl, hcontent⟩ := Quote.enclose_inj (hchars.symm.trans (h.trans hchars'))
      rw [hv, hw, String.toList_inj.mp hcontent]

theorem Value.not_mem_head?_chars {d : Char} (value : Value) (hd : isWordChar d = false)
    (hquote : Quote.ofChar? d = none) : d ∉ value.chars.head? :=
  fun hmem => value.beginsValue_chars.ne_of_mem_head? hd hquote d hmem rfl

end Parts

/-! ### Bodies -/

/-- **What follows the mark of negation.** -/
inductive Body
  /-- A name, with the mark `!` before it or not. -/
  | name (literal : Bool) (value : Value)
  /-- A key and a comparison, and the value if there is one yet. -/
  | keyed (key : String) (comparison : Comparison) (value? : Option Value)
  /-- The members of a group. -/
  | group (members : List Term)

namespace Body

/-- The characters of the value, if there is one yet. -/
def valueChars (value? : Option Value) : List Char :=
  (value?.map Value.chars).getD []

/-- The text of the body. -/
def chars : Body → List Char
  | name literal value => literalChars literal ++ value.chars
  | keyed key c value? => key.toList ++ (c.chars ++ valueChars value?)
  | group ms => '(' :: (Filter.memberChars ms ++ [')'])

/-- The key is a word, and the members of a group can be read. -/
def Legible : Body → Prop
  | name _ _ => True
  | keyed key _ _ => IsWord key.toList
  | group ms => (Filter.anyOf false ms).WellFormed

/-- A value is never written with nothing. -/
theorem valueChars_injective : Function.Injective valueChars := by
  intro v w h
  cases v <;> cases w
  · rfl
  · exact absurd h.symm (Value.beginsValue_chars _).ne_nil
  · exact absurd h (Value.beginsValue_chars _).ne_nil
  · rw [Value.chars_injective h]

theorem not_mem_head?_valueChars {d : Char} (value? : Option Value) (hd : isWordChar d = false)
    (hquote : Quote.ofChar? d = none) : d ∉ (valueChars value?).head? := by
  cases value? with
  | none => simp [valueChars]
  | some value => exact value.not_mem_head?_chars hd hquote

/-- No body but a group begins with a mark that is neither `!` nor a quote. -/
theorem not_mem_head?_chars {d : Char} {body : Body} (h : body.Legible)
    (hd : isWordChar d = false) (hquote : Quote.ofChar? d = none) (hbang : d ≠ '!')
    (hopen : d = '(' → ∀ ms, body ≠ group ms) : d ∉ body.chars.head? := by
  cases body with
  | name literal value =>
    cases literal with
    | true => exact fun hmem => hbang (Option.some.inj hmem).symm
    | false => exact value.not_mem_head?_chars hd hquote
  | keyed key c value? => exact not_mem_head?_of_isWord h hd
  | group ms => exact fun hmem => hopen (Option.some.inj hmem).symm ms rfl

/-- A name is no key with a comparison: it is all word, or it does not begin with one. -/
theorem chars_name_ne_keyed {literal : Bool} {value : Value} {key : String} {c : Comparison}
    {value? : Option Value} (hkey : IsWord key.toList) :
    (name literal value).chars ≠ (keyed key c value?).chars := by
  intro h
  cases literal with
  | true =>
    have hfirst : '!' ∈ (name true value).chars.head? := rfl
    rw [h] at hfirst
    exact not_mem_head?_of_isWord hkey (by decide) hfirst
  | false =>
    change value.chars = key.toList ++ (c.chars ++ valueChars value?) at h
    rcases value.beginsValue_chars with hword | ⟨q, rest, hchars⟩
    · -- in a word there is no place for the comparison
      obtain ⟨d, hd, hnot⟩ : ∃ d ∈ c.chars, isWordChar d = false := by
        cases c <;> exact ⟨_, List.mem_cons_self, by decide⟩
      have hmem : d ∈ value.chars := by simp [h, hd]
      exact ne_of_isWordChar (hword.2 d hmem) hnot rfl
    · have hfirst : q.mark ∈ (key.toList ++ (c.chars ++ valueChars value?)).head? := by
        rw [← h, hchars]
        rfl
      exact not_mem_head?_of_isWord hkey (by cases q <;> decide) hfirst

/-- **The members of a group** are what its text is read as. -/
theorem members_eq_of_chars_eq {ms ns : List Term} (hms : (Filter.anyOf false ms).WellFormed)
    (hns : (Filter.anyOf false ns).WellFormed) (h : (group ms).chars = (group ns).chars) :
    ms = ns := by
  have hrender : (Filter.anyOf false ms).render = (Filter.anyOf false ns).render :=
    congrArg String.ofList h
  have hread := Filter.parse_render_of_wellFormed hms
  rw [hrender, Filter.parse_render_of_wellFormed hns] at hread
  exact (Filter.anyOf.inj (Except.ok.inj hread)).2.symm

/-- **Different bodies have different texts.** -/
theorem eq_of_chars_eq {a b : Body} (ha : a.Legible) (hb : b.Legible) (h : a.chars = b.chars) :
    a = b := by
  -- only a group begins with a parenthesis
  have hgroup : ∀ {a b : Body} {ms : List Term}, b.Legible → a = group ms →
      a.chars = b.chars → ∃ ns, b = group ns := by
    rintro a b ms hb rfl h
    by_contra hnone
    have hfirst : '(' ∈ (group ms).chars.head? := rfl
    rw [h] at hfirst
    exact not_mem_head?_chars hb (by decide) (by decide) (by decide)
      (fun _ ns heq => hnone ⟨ns, heq⟩) hfirst
  cases a with
  | name literal value =>
    cases b with
    | name literal' value' =>
      obtain ⟨rfl, hvalue⟩ := mark_append_inj
        (value.not_mem_head?_chars (by decide) (by decide))
        (value'.not_mem_head?_chars (by decide) (by decide)) h
      rw [Value.chars_injective hvalue]
    | keyed key c value? => exact absurd h (chars_name_ne_keyed hb)
    | group ms =>
      obtain ⟨ns, hns⟩ := hgroup ha rfl h.symm
      cases hns
  | keyed key c value? =>
    cases b with
    | name literal value => exact absurd h.symm (chars_name_ne_keyed ha)
    | keyed key' c' value?' =>
      obtain ⟨hkey, rfl, hvalue⟩ := key_append_inj ha hb
        (not_mem_head?_valueChars value? (by decide) (by decide))
        (not_mem_head?_valueChars value?' (by decide) (by decide)) h
      rw [String.toList_inj.mp hkey, valueChars_injective hvalue]
    | group ms =>
      obtain ⟨ns, hns⟩ := hgroup ha rfl h.symm
      cases hns
  | group ms =>
    obtain ⟨ns, rfl⟩ := hgroup hb rfl h
    rw [members_eq_of_chars_eq ha hb h]

/-- **A mark of negation and a body** are told by the text that they make. -/
theorem eq_of_negated_chars_eq {negated negated' : Bool} {a b : Body} (ha : a.Legible)
    (hb : b.Legible)
    (h : negationChars negated ++ a.chars = negationChars negated' ++ b.chars) :
    negated = negated' ∧ a = b := by
  have hminus : ∀ {body : Body}, body.Legible → '-' ∉ body.chars.head? := fun hbody =>
    not_mem_head?_chars hbody (by decide) (by decide) (by decide)
      (fun hopen => absurd hopen (by decide))
  obtain ⟨rfl, hchars⟩ := mark_append_inj (hminus ha) (hminus hb) h
  exact ⟨rfl, eq_of_chars_eq ha hb hchars⟩

end Body

/-! ### What is offered -/

/-- **What is offered**, wherever it comes from. -/
inductive Offer
  /-- A whole filter. -/
  | filter (filter : Filter)
  /-- A key to go on typing after. -/
  | key (candidate : KeyCandidate)
  deriving DecidableEq, Repr

namespace Offer

/-- The text of what is offered. -/
def render : Offer → String
  | filter f => f.render
  | key k => k.render

/-- It is negated as a whole. -/
def negated : Offer → Bool
  | filter f => f.isNegated
  | key k => k.negated

/-- What follows the mark of negation. -/
def body : Offer → Body
  | filter (.term (.name _ literal value)) => .name literal value
  | filter (.term (.keyed _ spelling c value)) => .keyed spelling c (some value)
  | filter (.anyOf _ ms) => .group ms
  | key k => .keyed k.key k.comparison none

/-- **What is known by its text**: the key of a term and a key on its own are words, and a group is
one that some text is read as. Of names and values nothing is asked. -/
def Legible : Offer → Prop
  | filter (.term (.name _ _ _)) => True
  | filter (.term (.keyed _ spelling _ _)) => IsWord spelling.toList
  | filter (.anyOf negated ms) => ∃ text, Filter.parse text = .ok (.anyOf negated ms)
  | key k => IsWord k.key.toList

theorem Legible.body {o : Offer} (h : o.Legible) : o.body.Legible := by
  match o, h with
  | filter (.term (.name _ _ _)), _ => trivial
  | filter (.term (.keyed _ _ _ _)), hkey => exact hkey
  | filter (.anyOf _ _), ⟨_, hparse⟩ => exact Filter.wellFormed_of_parse hparse
  | key _, hkey => exact hkey

theorem render_eq (o : Offer) :
    o.render = String.ofList (negationChars o.negated ++ o.body.chars) := by
  match o with
  | filter (.term (.name _ _ _)) | filter (.anyOf _ _) =>
    exact congrArg String.ofList (List.append_assoc _ _ _)
  | filter (.term (.keyed _ _ _ _)) =>
    simp [render, Filter.render, Filter.chars, Term.chars, negated, Filter.isNegated,
      Term.isNegated, body, Body.chars, Body.valueChars]
  | key _ =>
    simp [render, KeyCandidate.render, negated, body, Body.chars, Body.valueChars]

/-- What a mark of negation and a body make. -/
def ofBody (negated : Bool) : Body → Offer
  | .name literal value => filter (.term (.name negated literal value))
  | .keyed spelling c (some value) => filter (.term (.keyed negated spelling c value))
  | .keyed spelling c none => key ⟨negated, spelling, c⟩
  | .group ms => filter (.anyOf negated ms)

theorem ofBody_body (o : Offer) : ofBody o.negated o.body = o := by
  match o with
  | filter (.term (.name _ _ _)) | filter (.term (.keyed _ _ _ _)) | filter (.anyOf _ _)
  | key _ => rfl

/-- **What is offered is known by its text.** -/
theorem eq_of_render_eq {o o' : Offer} (ho : o.Legible) (ho' : o'.Legible)
    (h : o.render = o'.render) : o = o' := by
  rw [render_eq, render_eq, String.ofList_inj] at h
  obtain ⟨hnegated, hbody⟩ := Body.eq_of_negated_chars_eq ho.body ho'.body h
  rw [← ofBody_body o, ← ofBody_body o', hnegated, hbody]

/-- A key that is no word makes one member look like two. -/
example :
    (filter (.anyOf false [.keyed false "x or y" .including (.text "z")])).render =
      (filter (.anyOf false
        [.name false false (.text "x"), .keyed false "y" .including (.text "z")])).render := by
  decide

end Offer

/-! ### Candidates -/

namespace Candidate

/-- What the candidate offers. -/
def offer : Candidate → Offer
  | pinned f | history f | value f | operator f | name f => .filter f
  | key k => .key k

theorem render_offer (a : Candidate) : a.offer.render = a.render := by
  cases a <;> rfl

/-- **Two candidates that show the same text offer the same**, whichever sources they come from. So
a merge, which keeps of every text the first suggestion, keeps the first of everything that is
offered, and drops nothing but repeats. -/
theorem offer_eq_iff_render_eq :
    (∀ a b : Candidate, a.offer.Legible → b.offer.Legible →
      (a.render = b.render ↔ a.offer = b.offer)) ∧
      ∀ list : List Suggestion, (∀ r ∈ list, r.candidate.offer.Legible) →
        merge list = distinctBy (fun r => r.candidate.offer) list := by
  have hiff : ∀ a b : Candidate, a.offer.Legible → b.offer.Legible →
      (a.render = b.render ↔ a.offer = b.offer) := by
    intro a b ha hb
    rw [← render_offer a, ← render_offer b]
    exact ⟨Offer.eq_of_render_eq ha hb, congrArg Offer.render⟩
  exact ⟨hiff, fun list hlist => distinctBy_congr fun r hr r' hr' =>
    hiff r.candidate r'.candidate (hlist r hr) (hlist r' hr')⟩

/-- A name with both kinds of quotes from two sources, a key beside a term that has it, and a
group. -/
theorem offer_eq_iff_render_eq_both_quotes :
    let list : List Suggestion :=
      [⟨.pinned (.nameSearch "a\"b'c"), none, .inner⟩,
        ⟨.history (.nameSearch "a\"b'c"), none, .inner⟩,
        ⟨.key ⟨true, "t", .less⟩, none, .inner⟩,
        ⟨.value (.term (.keyed true "t" .lessOrEqual (.text ""))), none, .inner⟩,
        ⟨.history (.anyOf true [.name false false (.text "or"),
          .keyed false "t" .including (.text "elf")]), none, .inner⟩]
    (∀ r ∈ list, r.candidate.offer.Legible) ∧
      merge list = distinctBy (fun r => r.candidate.offer) list ∧ (merge list).length = 4 := by
  intro list
  have hgroup : Filter.parse "-(\"or\" T:elf)" = .ok (.anyOf true
      [.name false false (.text "or"), .keyed false "t" .including (.text "elf")]) := by
    decide +kernel
  have hlegible : ∀ r ∈ list, r.candidate.offer.Legible := by
    simp only [list, List.forall_mem_cons]
    exact ⟨trivial, trivial, (by decide : IsWord _), (by decide : IsWord _), ⟨_, hgroup⟩, by simp⟩
  exact ⟨hlegible, offer_eq_iff_render_eq.2 list hlegible, by decide +kernel⟩

end Candidate

end CardFilter
