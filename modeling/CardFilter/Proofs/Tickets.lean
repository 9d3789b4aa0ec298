import CardFilter.Lookup.Suggest
import Mathlib.Data.List.Induction

/-!
# Only the newest ticket delivers

Calls for card names may overlap in any way: tickets are handed out between them, one ticket may be
used for several calls or be stale when it is used, requests may end at any time and in any order,
and a caller may look for its result at any time or walk away. This file shows that none of this
lets an old ticket deliver: `CardFilter.Lookups.newest_of_delivered`.

## Runs

`CardFilter.Lookups.Event` is what can happen, and `CardFilter.Lookups.run` a sequence of it.
Beside the clock, which serves all lookups at their times from one service, the request of one
lookup may also be begun and answered by itself. So nothing is assumed of a catalog: neither how
long it takes nor when it fails.

## One lookup

A lookup is followed by its place. Whatever happens, it stays as it is or moves in one of six ways
(`CardFilter.Lookup.Moves`), and that is all that is used of an event afterwards. Names are
returned in one of the moves only, where the caller finds its ticket to be the newest; and since
tickets only grow, it was the newest already when the request was completed.
-/

namespace CardFilter

/-! ### Runs of events -/

namespace Lookups

/-- What can happen to the lookups, in any order. -/
inductive Event
  /-- A ticket is handed out. -/
  | invalidated
  /-- A term is looked up under a ticket, which may be stale or in use. -/
  | called (ticket : Nat) (term : Draft.Term)
  /-- A term is looked up under a new ticket. -/
  | suggested (term : Draft.Term)
  /-- The quiet period of a lookup ends, and its request is begun; `due` is when it will be
  answered if the clock decides. -/
  | asked (place due : Nat)
  /-- The request of a lookup is over, with names unless it failed. -/
  | answered (place : Nat) (names : Option (List String))
  /-- The clock runs to a time. -/
  | advanced (time : Nat)
  /-- The caller of a lookup looks for its result. -/
  | resumed (place : Nat)
  /-- The caller of a lookup walks away. -/
  | dropped (place : Nat)

/-- Looks a term up under a ticket, if it is one to look up. -/
def call (minLength ticket : Nat) (t : Draft.Term) (s : Lookups) : Lookups :=
  if isLookedUp minLength t then s.begin ticket (nameFragment t) else s

/-- Begins the request of a lookup whose quiet period lasts. -/
def ask (place due : Nat) (s : Lookups) : Lookups :=
  match s.all[place]? with
  | some ⟨ticket, fragment, .waiting _⟩ =>
    { s with
      all := s.all.modify place fun l => { l with phase := .asking due }
      begun := s.begun ++ [⟨s.now, ticket, fragment⟩] }
  | _ => s

/-- Ends a request that is under way, with names unless it failed. -/
def answer (place : Nat) (names : Option (List String)) (s : Lookups) : Lookups :=
  match s.all[place]? with
  | some ⟨ticket, fragment, .asking _⟩ =>
    { s with
      all := s.all.modify place fun l => { l with phase := .answered names }
      answered := s.answered ++ if names.isSome then [⟨s.now, ticket, fragment⟩] else [] }
  | _ => s

/-- **What an event does to the lookups.** -/
def step (minLength : Nat) (s : Lookups) : Event → Lookups
  | .invalidated => s.invalidate
  | .called ticket t => s.call minLength ticket t
  | .suggested t => s.invalidate.call minLength s.invalidate.ticket t
  | .asked place due => s.ask place due
  | .answered place names => s.answer place names
  | .advanced time => s.advance time
  | .resumed place => s.resume place
  | .dropped place => s.drop place

/-- The lookups after a sequence of events. -/
def run (minLength : Nat) (s : Lookups) (es : List Event) : Lookups :=
  es.foldl (step minLength) s

theorem run_cons (minLength : Nat) (s : Lookups) (e : Event) (es : List Event) :
    s.run minLength (e :: es) = (s.step minLength e).run minLength es := rfl

theorem run_append (minLength : Nat) (s : Lookups) (es fs : List Event) :
    s.run minLength (es ++ fs) = (s.run minLength es).run minLength fs :=
  List.foldl_append

theorem run_concat (minLength : Nat) (s : Lookups) (es : List Event) (e : Event) :
    s.run minLength (es ++ [e]) = (s.run minLength es).step minLength e :=
  run_append minLength s es [e]

/-- What a call for a term has returned, where its lookup stands at a place: the suggestions that
a caller who waits is given. -/
def suggestions? (minLength place : Nat) (t : Draft.Term) (excluding : List Filter) (limit : Nat)
    (s : Lookups) : Option (List Suggestion) :=
  if isLookedUp minLength t then
    (s.delivered? place).map fun names => nameSuggestions t names excluding limit
  else none

/-- The event completes the request of the lookup at a place, with names unless it failed. -/
def Completes (minLength : Nat) (s : Lookups) (e : Event) (place : Nat)
    (names : Option (List String)) : Prop :=
  (∀ l ∈ s.all[place]?, l.isOver = false) ∧
    ∃ l ∈ (s.step minLength e).all[place]?, l.phase = .answered names

/-- The lookup at a place can begin the request: it is for its fragment, and its quiet period
lasts. -/
def CanBegin (s : Lookups) (place : Nat) (r : Request) : Prop :=
  ∃ l ∈ s.all[place]?, (∃ due, l.phase = .waiting due) ∧ r.ticket = l.ticket ∧
    r.fragment = l.fragment

end Lookups

/-! ### One lookup -/

/-- The result of the request is not known yet. -/
def Lookup.IsOutstanding (l : Lookup) : Prop :=
  ∃ due, l.phase = .waiting due ∨ l.phase = .asking due

/-- The caller has taken up the result or walked away. -/
def Lookup.IsClosed (l : Lookup) : Prop :=
  l.phase = .dropped ∨ ∃ names, l.phase = .returned names

/-- **The ways in which a lookup can move**, where `newest` is the newest ticket. -/
inductive Lookup.Moves (newest : Nat) (l : Lookup) : Lookup → Prop
  /-- It stays as it is. -/
  | kept : Moves newest l l
  /-- Its request is called off. -/
  | cancelled : l.IsOutstanding → Moves newest l { l with phase := .cancelled }
  /-- Its request is begun. -/
  | asked {due later : Nat} : l.phase = .waiting due →
    Moves newest l { l with phase := .asking later }
  /-- Its request is over. -/
  | answered {names : Option (List String)} : l.IsOutstanding →
    Moves newest l { l with phase := .answered names }
  /-- Its caller takes up what the request has brought, if the ticket is the newest. -/
  | returned {names : Option (List String)} : l.phase = .answered names →
    Moves newest l
      { l with phase := .returned (if l.ticket = newest then some (names.getD []) else none) }
  /-- Its caller finds that the request was called off. -/
  | returnedNothing : l.phase = .cancelled → Moves newest l { l with phase := .returned none }
  /-- Its caller walks away. -/
  | dropped : (∀ names, l.phase ≠ .returned names) →
    Moves newest l { l with phase := .dropped }

namespace Lookup

variable {newest : Nat} {l l' : Lookup}

theorem moves_cancel (l : Lookup) : l.Moves newest l.cancel := by
  unfold cancel
  split
  · rename_i due hphase
    exact .cancelled ⟨due, .inl hphase⟩
  · rename_i due hphase
    exact .cancelled ⟨due, .inr hphase⟩
  · exact .kept

theorem cancel_cancel (l : Lookup) : l.cancel.cancel = l.cancel := by
  rcases l with ⟨ticket, fragment, phase⟩
  cases phase <;> rfl

theorem moves_advance (service : CatalogService) (time : Nat) (l : Lookup) :
    l.Moves newest (l.advance service time) := by
  unfold advance
  split
  · rename_i due hphase
    split
    · exact .answered ⟨due, .inl hphase⟩
    · split
      · exact .asked hphase
      · exact .kept
  · rename_i due hphase
    split
    · exact .answered ⟨due, .inr hphase⟩
    · exact .kept
  · exact .kept

theorem moves_resume (l : Lookup) : l.Moves newest (l.resume (l.ticket == newest)) := by
  unfold resume
  split
  · rename_i names hphase
    simp only [beq_iff_eq]
    exact .returned hphase
  · rename_i hphase
    exact .returnedNothing hphase
  · exact .kept

theorem moves_drop (l : Lookup) : l.Moves newest l.drop := by
  unfold drop
  split
  · exact .kept
  · rename_i hphase
    exact .dropped hphase

theorem Moves.ticket_eq (h : l.Moves newest l') : l'.ticket = l.ticket := by
  cases h <;> rfl

theorem isClosed_of_returned {names : Option (List String)} (h : l.phase = .returned names) :
    l.IsClosed :=
  .inr ⟨names, h⟩

/-- What is closed stays as it is. -/
theorem Moves.eq_of_isClosed (h : l.Moves newest l') (hl : l.IsClosed) : l' = l := by
  rcases h with _ | ⟨due, hdue⟩ | hdue | ⟨due, hdue⟩ | hphase | hphase | hphase
  · rfl
  · rcases hl with hl | ⟨names, hl⟩ <;> simp [hl] at hdue
  · rcases hl with hl | ⟨names, hl⟩ <;> simp [hl] at hdue
  · rcases hl with hl | ⟨names, hl⟩ <;> simp [hl] at hdue
  · rcases hl with hl | ⟨names, hl⟩ <;> simp [hl] at hphase
  · rcases hl with hl | ⟨names, hl⟩ <;> simp [hl] at hphase
  · rcases hl with hl | ⟨names, hl⟩
    · rw [← hl]
    · exact absurd hl (hphase names)

/-- A request that is over was outstanding before, unless it was over already. -/
theorem Moves.of_answered {names : Option (List String)} (h : l.Moves newest l')
    (hl' : l'.phase = .answered names) : l.phase = .answered names ∨ l.IsOutstanding := by
  cases h with
  | kept => exact .inl hl'
  | answered houtstanding => exact .inr houtstanding
  | cancelled | asked | returned | returnedNothing | dropped => cases hl'

/-- **Names are returned only under the newest ticket**, and only those of a request that is
over. -/
theorem Moves.of_returned {names : List String} (h : l.Moves newest l')
    (hl' : l'.phase = .returned (some names)) :
    l.phase = .returned (some names) ∨
      l.ticket = newest ∧ ∃ answer, l.phase = .answered answer ∧ names = answer.getD [] := by
  cases h with
  | kept => exact .inl hl'
  | @returned answer hphase =>
    by_cases hticket : l.ticket = newest
    · exact .inr ⟨hticket, answer, hphase, by simpa [hticket] using hl'.symm⟩
    · simp [hticket] at hl'
  | cancelled | asked | answered | returnedNothing | dropped => cases hl'

end Lookup

namespace Lookups

variable {place : Nat} {s : Lookups} {l : Lookup}

/-! ### What an event does -/

theorem ticket_cancelPending (s : Lookups) : s.cancelPending.ticket = s.ticket := by
  unfold cancelPending
  split <;> rfl

theorem begun_cancelPending (s : Lookups) : s.cancelPending.begun = s.begun := by
  unfold cancelPending
  split <;> rfl

theorem length_cancelPending (s : Lookups) : s.cancelPending.all.length = s.all.length := by
  unfold cancelPending
  split <;> simp

/-- Of each lookup, nothing or its request is called off with the pending one. -/
theorem getElem?_cancelPending (h : s.all[place]? = some l) :
    s.cancelPending.all[place]? = some l ∨ s.cancelPending.all[place]? = some l.cancel := by
  unfold cancelPending
  split
  · rw [List.getElem?_modify, h]
    split
    · exact .inr rfl
    · exact .inl rfl
  · exact .inl h

/-- A lookup that begins leaves the earlier ones in their places. -/
theorem getElem?_call (minLength ticket : Nat) (t : Draft.Term) (h : s.all[place]? = some l) :
    (s.call minLength ticket t).all[place]? = some l ∨
      (s.call minLength ticket t).all[place]? = some l.cancel := by
  have hlt : place < s.all.length := (List.getElem?_eq_some_iff.mp h).1
  unfold call begin
  split
  swap
  · exact .inl h
  split
  · rw [List.getElem?_append_left (by rwa [length_cancelPending])]
    exact getElem?_cancelPending h
  · rw [List.getElem?_append_left hlt]
    exact .inl h

/-- **Every event moves a lookup in one of the ways**, and leaves it at its place. -/
theorem exists_moves_of_step (minLength : Nat) (e : Event) (h : s.all[place]? = some l) :
    ∃ l', (s.step minLength e).all[place]? = some l' ∧ l.Moves s.ticket l' := by
  -- its request is called off with others, or not
  have hcancel : ∀ all : List Lookup, all[place]? = some l ∨ all[place]? = some l.cancel →
      ∃ l', all[place]? = some l' ∧ l.Moves s.ticket l' := by
    rintro all (hkept | hcancelled)
    · exact ⟨l, hkept, .kept⟩
    · exact ⟨l.cancel, hcancelled, l.moves_cancel⟩
  -- it is the one that the event is about, or not
  have hmodify : ∀ (i : Nat) (f : Lookup → Lookup), (i = place → l.Moves s.ticket (f l)) →
      ∃ l', (s.all.modify i f)[place]? = some l' ∧ l.Moves s.ticket l' := by
    intro i f hf
    rw [List.getElem?_modify, h]
    split
    · rename_i hi
      exact ⟨f l, rfl, hf hi⟩
    · exact ⟨l, rfl, .kept⟩
  cases e with
  | invalidated => exact hcancel _ (getElem?_cancelPending h)
  | called ticket t => exact hcancel _ (getElem?_call minLength ticket t h)
  | suggested t =>
    refine hcancel _ ?_
    have hinvalidate : s.invalidate.all[place]? = some l ∨
        s.invalidate.all[place]? = some l.cancel := getElem?_cancelPending h
    rcases hinvalidate with hkept | hcancelled
    · exact getElem?_call minLength _ t hkept
    · have hcall := getElem?_call minLength s.invalidate.ticket t hcancelled
      rw [Lookup.cancel_cancel, or_self] at hcall
      exact .inr hcall
  | asked i due =>
    simp only [step, ask]
    split
    · rename_i ticket fragment since hi
      refine hmodify i _ ?_
      rintro rfl
      obtain rfl : l = ⟨ticket, fragment, .waiting since⟩ := Option.some.inj (h.symm.trans hi)
      exact .asked rfl
    · exact ⟨l, h, .kept⟩
  | answered i names =>
    simp only [step, answer]
    split
    · rename_i ticket fragment since hi
      refine hmodify i _ ?_
      rintro rfl
      obtain rfl : l = ⟨ticket, fragment, .asking since⟩ := Option.some.inj (h.symm.trans hi)
      exact .answered ⟨since, .inr rfl⟩
    · exact ⟨l, h, .kept⟩
  | advanced time =>
    refine ⟨l.advance s.service (max s.now time), ?_, l.moves_advance _ _⟩
    simp only [step, advance, List.getElem?_map, h, Option.map_some]
  | resumed i =>
    simp only [step, resume]
    split
    · rename_i other hi
      refine hmodify i _ ?_
      rintro rfl
      obtain rfl : l = other := Option.some.inj (h.symm.trans hi)
      exact l.moves_resume
    · exact ⟨l, h, .kept⟩
  | dropped i => exact hmodify i _ fun _ => l.moves_drop

theorem ticket_call (minLength ticket : Nat) (t : Draft.Term) (s : Lookups) :
    (s.call minLength ticket t).ticket = s.ticket := by
  unfold call begin
  split
  · split
    · exact ticket_cancelPending s
    · rfl
  · rfl

/-- **Tickets only grow.** -/
theorem ticket_le_step (minLength : Nat) (e : Event) (s : Lookups) :
    s.ticket ≤ (s.step minLength e).ticket := by
  cases e with
  | invalidated => exact Nat.le_succ _
  | called ticket t => exact Nat.le_of_eq (ticket_call minLength ticket t s).symm
  | suggested t =>
    rw [step, ticket_call]
    exact Nat.le_succ _
  | asked i due =>
    simp only [step, ask]
    split <;> exact Nat.le_refl _
  | answered i names =>
    simp only [step, answer]
    split <;> exact Nat.le_refl _
  | advanced time => exact Nat.le_refl _
  | resumed i =>
    simp only [step, resume]
    split <;> exact Nat.le_refl _
  | dropped i => exact Nat.le_refl _

theorem ticket_le_run (minLength : Nat) (es : List Event) (s : Lookups) :
    s.ticket ≤ (s.run minLength es).ticket := by
  induction es generalizing s with
  | nil => exact Nat.le_refl _
  | cons e es ih => exact Nat.le_trans (ticket_le_step minLength e s) (ih _)

/-! ### The requests that an event begins -/

theorem begun_call (minLength ticket : Nat) (t : Draft.Term) (s : Lookups) :
    (s.call minLength ticket t).begun = s.begun := by
  unfold call begin
  split
  · split
    · exact begun_cancelPending s
    · rfl
  · rfl

/-- **A request is begun only for a lookup whose quiet period lasts.** -/
theorem exists_begun_of_step (minLength : Nat) (e : Event) (s : Lookups) :
    ∃ new, (s.step minLength e).begun = s.begun ++ new ∧
      ∀ r ∈ new, ∃ place, s.CanBegin place r := by
  have hnone : ∀ log : List Request, log = s.begun →
      ∃ new, log = s.begun ++ new ∧ ∀ r ∈ new, ∃ place, s.CanBegin place r := by
    rintro log rfl
    exact ⟨[], by simp⟩
  cases e with
  | invalidated => exact hnone _ (begun_cancelPending s)
  | called ticket t => exact hnone _ (begun_call minLength ticket t s)
  | suggested t => exact hnone _ ((begun_call _ _ t _).trans (begun_cancelPending s))
  | asked i due =>
    simp only [step, ask]
    split
    · rename_i ticket fragment since hi
      refine ⟨[⟨s.now, ticket, fragment⟩], rfl, ?_⟩
      rintro r hr
      obtain rfl := List.mem_singleton.mp hr
      exact ⟨i, _, hi, ⟨since, rfl⟩, rfl, rfl⟩
    · exact hnone _ rfl
  | answered i names =>
    refine hnone _ ?_
    simp only [step, answer]
    split <;> rfl
  | advanced time =>
    refine ⟨_, rfl, fun r hr => ?_⟩
    obtain ⟨l, hl, hrequest⟩ := List.mem_filterMap.mp ((rankBy_perm _ _).mem_iff.mp hr)
    obtain ⟨place, hplace⟩ := List.getElem?_of_mem hl
    unfold Lookup.requestBy Lookup.askingTime? at hrequest
    split at hrequest
    swap
    · cases hrequest
    rename_i due hdue
    split at hdue
    swap
    · cases hdue
    rename_i since hphase
    split at hrequest
    swap
    · cases hrequest
    obtain rfl := Option.some.inj hrequest
    exact ⟨place, l, hplace, ⟨since, hphase⟩, rfl, rfl⟩
  | resumed i =>
    refine hnone _ ?_
    simp only [step, resume]
    split <;> rfl
  | dropped i => exact hnone _ rfl

/-! ### Runs -/

section Run

/-- What is closed stays as it is, whatever follows. -/
theorem getElem?_run_of_isClosed (minLength : Nat) (es : List Event) (h : s.all[place]? = some l)
    (hl : l.IsClosed) : (s.run minLength es).all[place]? = some l := by
  induction es generalizing s with
  | nil => exact h
  | cons e es ih =>
    obtain ⟨l', hl', hmoves⟩ := exists_moves_of_step minLength e h
    rw [hmoves.eq_of_isClosed hl] at hl'
    exact ih hl'

/-- How a lookup that began under a ticket can stand after a run: a result that it has was brought
by an event of the run, and names that it has returned were brought under its own ticket. -/
structure History (minLength place : Nat) (s : Lookups) (es : List Event) (l : Lookup) : Prop where
  /-- A completed request was completed by an event of the run. -/
  answered : ∀ names, l.phase = .answered names → ∃ p e q, es = p ++ e :: q ∧
    (s.run minLength p).Completes minLength e place names
  /-- Names that were returned come from a request that was completed while no later ticket had
  been handed out. -/
  returned : ∀ list, l.phase = .returned (some list) → ∃ p e q names, es = p ++ e :: q ∧
    (s.run minLength p).Completes minLength e place names ∧ list = names.getD [] ∧
      (s.run minLength (p ++ [e])).ticket ≤ l.ticket

theorem exists_history (minLength : Nat) (es : List Event) (h : s.all[place]? = some l)
    (hl : l.IsOutstanding ∨ l.phase = .returned none) :
    ∃ l', (s.run minLength es).all[place]? = some l' ∧ l'.ticket = l.ticket ∧
      History minLength place s es l' := by
  induction es using List.reverseRecOn with
  | nil =>
    refine ⟨l, h, rfl, ⟨fun names hnames => ?_, fun list hlist => ?_⟩⟩
    · rcases hl with ⟨due, hdue⟩ | hreturned
      · simp [hnames] at hdue
      · simp [hnames] at hreturned
    · rcases hl with ⟨due, hdue⟩ | hreturned
      · simp [hlist] at hdue
      · simp [hlist] at hreturned
  | append_singleton es e ih =>
    obtain ⟨m, hm, hticket, hhistory⟩ := ih
    obtain ⟨m', hm', hmoves⟩ := exists_moves_of_step minLength e hm
    have hextend : ∀ {p : List Event} {d : Event} {q : List Event}, es = p ++ d :: q →
        es ++ [e] = p ++ d :: (q ++ [e]) := by
      rintro p d q rfl
      simp
    refine ⟨m', by rw [run_concat]; exact hm', hmoves.ticket_eq.trans hticket,
      ⟨fun names hnames => ?_, fun list hlist => ?_⟩⟩
    · rcases hmoves.of_answered hnames with hbefore | houtstanding
      · obtain ⟨p, d, q, hes, hcompletes⟩ := hhistory.answered names hbefore
        exact ⟨p, d, q ++ [e], hextend hes, hcompletes⟩
      · -- this very event completes the request
        refine ⟨es, e, [], rfl, ?_, m', hm', hnames⟩
        intro l₀ hl₀
        obtain rfl : m = l₀ := Option.some.inj (hm.symm.trans hl₀)
        obtain ⟨due, hdue | hdue⟩ := houtstanding <;> simp [Lookup.isOver, hdue]
    · rcases hmoves.of_returned hlist with hbefore | ⟨hnewest, answer, hanswered, hnames⟩
      · obtain ⟨p, d, q, names, hes, hcompletes, hlist, hle⟩ := hhistory.returned list hbefore
        refine ⟨p, d, q ++ [e], names, hextend hes, hcompletes, hlist, ?_⟩
        rwa [hmoves.ticket_eq]
      · -- the ticket is the newest now, and was so when the request was completed
        obtain ⟨p, d, q, rfl, hcompletes⟩ := hhistory.answered answer hanswered
        refine ⟨p, d, q ++ [e], answer, hextend rfl, hcompletes, hnames, ?_⟩
        rw [hmoves.ticket_eq, hnewest]
        have hlater := ticket_le_run minLength q (s.run minLength (p ++ [d]))
        rwa [← run_append, List.append_assoc, List.singleton_append] at hlater

end Run

/-! ### Calls -/

section Call

variable {minLength ticket : Nat} {t : Draft.Term}

/-- A call whose ticket is stale has returned nothing at once. -/
theorem getElem?_call_of_stale (ht : isLookedUp minLength t = true) (h : ticket ≠ s.ticket) :
    (s.call minLength ticket t).all[s.all.length]? =
      some ⟨ticket, nameFragment t, .returned none⟩ := by
  rw [call, if_pos ht, begin, if_neg h]
  exact List.getElem?_concat_length

/-- A call under the newest ticket waits for the end of the quiet period. -/
theorem getElem?_call_of_newest (ht : isLookedUp minLength t = true) (h : ticket = s.ticket) :
    (s.call minLength ticket t).all[s.all.length]? =
      some ⟨ticket, nameFragment t, .waiting (s.now + s.debounce)⟩ := by
  rw [call, if_pos ht, begin, if_pos h, ← length_cancelPending]
  exact List.getElem?_concat_length

theorem delivered?_eq (h : s.all[place]? = some l) :
    s.delivered? place =
      match l.phase with
      | .returned names => names
      | _ => none := by
  obtain ⟨ticket, fragment, phase⟩ := l
  rw [delivered?, h]
  cases phase <;> rfl

theorem exists_phase_of_delivered? {list : List String} (h : s.delivered? place = some list) :
    ∃ l, s.all[place]? = some l ∧ l.phase = .returned (some list) := by
  unfold delivered? at h
  split at h
  · rename_i ticket fragment names hl
    exact ⟨_, hl, by rw [h]⟩
  · cases h

/-- What a call delivers was brought by a request that was completed while its ticket was the
newest. -/
theorem exists_completes_of_delivered? (ht : isLookedUp minLength t = true) {es : List Event}
    {list : List String}
    (h : (s.run minLength (.called ticket t :: es)).delivered? s.all.length = some list) :
    ∃ p e q names, es = p ++ e :: q ∧
      (s.run minLength (.called ticket t :: p)).Completes minLength e s.all.length names ∧
      (s.run minLength (.called ticket t :: (p ++ [e]))).ticket = ticket ∧
      list = names.getD [] := by
  obtain ⟨l, hl, hphase⟩ := exists_phase_of_delivered? h
  by_cases hticket : ticket = s.ticket
  · have hcall := getElem?_call_of_newest ht hticket
    obtain ⟨l', hl', hsame, hhistory⟩ :=
      exists_history minLength es hcall (.inl ⟨_, .inl rfl⟩)
    obtain rfl : l' = l := Option.some.inj (hl'.symm.trans hl)
    obtain ⟨p, e, q, names, hes, hcompletes, hlist, hle⟩ := hhistory.returned list hphase
    refine ⟨p, e, q, names, hes, hcompletes, Nat.le_antisymm (Nat.le_trans hle ?_) ?_, hlist⟩
    · exact Nat.le_of_eq hsame
    · rw [hticket]
      exact ticket_le_run _ _ _
  · -- a stale call has returned nothing, and so it stays
    have hcall := getElem?_call_of_stale ht hticket
    have hstale := getElem?_run_of_isClosed minLength es hcall (Lookup.isClosed_of_returned rfl)
    obtain rfl := Option.some.inj (hstale.symm.trans hl)
    cases hphase

/-! ### Callers who wait -/

theorem exists_run_settle (minLength : Nat) (s : Lookups) :
    ∃ es, s.settle = s.run minLength es := by
  refine ⟨.advanced s.now :: (List.range s.all.length).map .resumed, ?_⟩
  rw [run_cons, run, List.foldl_map]
  rfl

theorem exists_run_await (minLength i : Nat) (s : Lookups) :
    ∃ es, s.await i = s.run minLength es := by
  unfold await
  split
  · rename_i time _
    obtain ⟨es, hes⟩ := exists_run_settle minLength (s.advance time)
    exact ⟨.advanced time :: es, hes⟩
  · exact exists_run_settle minLength s

/-- **What a caller who waits is given** is what the call returns in some run. -/
theorem exists_run_suggest (minLength ticket : Nat) (t : Draft.Term) (excluding : List Filter)
    (limit : Nat) (s : Lookups) :
    ∃ es, s.suggest minLength ticket t excluding limit =
      ((s.run minLength (.called ticket t :: es)).suggestions? minLength s.all.length t excluding
        limit, s.run minLength (.called ticket t :: es)) := by
  by_cases ht : isLookedUp minLength t = true
  · obtain ⟨es, hes⟩ := exists_run_settle minLength (s.begin ticket (nameFragment t))
    obtain ⟨fs, hfs⟩ :=
      exists_run_await minLength s.all.length (s.begin ticket (nameFragment t)).settle
    have hcall : s.step minLength (.called ticket t) = s.begin ticket (nameFragment t) := if_pos ht
    have hrun : s.run minLength (.called ticket t :: (es ++ fs)) =
        (s.begin ticket (nameFragment t)).settle.await s.all.length := by
      rw [run_cons, hcall, run_append, ← hes, hfs]
    refine ⟨es ++ fs, ?_⟩
    rw [hrun, suggest, if_pos ht, suggestions?, if_pos ht]
  · have hcall : s.run minLength [.called ticket t] = s := if_neg ht
    refine ⟨[], ?_⟩
    rw [hcall, suggest, if_neg ht, suggestions?, if_neg ht]

/-! ### Only the newest ticket delivers -/

/-- **Only the newest ticket delivers**, however calls, tickets, requests and their callers
interleave. A call returns suggestions only if its ticket was still the newest when its request
was completed, and then those of the names which the request brought; and a call whose ticket is
stale when it is made returns nothing, without a request of its own. -/
theorem newest_of_delivered (minLength debounce : Nat) (service : CatalogService)
    (before after : List Event) (ticket : Nat) (t : Draft.Term) (excluding : List Filter)
    (limit : Nat) :
    let s := (start debounce service).run minLength before
    let reached := fun es => s.run minLength (.called ticket t :: es)
    (∀ list, (reached after).suggestions? minLength s.all.length t excluding limit = some list →
      ∃ p e q names, after = p ++ e :: q ∧
        (reached p).Completes minLength e s.all.length names ∧
        (reached (p ++ [e])).ticket = ticket ∧
        list = nameSuggestions t (names.getD []) excluding limit) ∧
      (ticket ≠ s.ticket →
        (reached after).suggestions? minLength s.all.length t excluding limit = none ∧
        (isLookedUp minLength t = false → reached [] = s) ∧
        (isLookedUp minLength t = true →
          (reached after).all[s.all.length]? = some ⟨ticket, nameFragment t, .returned none⟩ ∧
          (reached []).begun = s.begun ∧
          ∀ p e q, after = p ++ e :: q →
            ∃ new, (reached (p ++ [e])).begun = (reached p).begun ++ new ∧
              ∀ r ∈ new, ∃ other, other ≠ s.all.length ∧ (reached p).CanBegin other r)) := by
  intro s reached
  refine ⟨fun list hlist => ?_, fun hticket => ⟨?_, fun ht => ?_, fun ht => ⟨?_, ?_, ?_⟩⟩⟩
  · by_cases ht : isLookedUp minLength t = true
    · rw [suggestions?, if_pos ht] at hlist
      obtain ⟨names, hdelivered, rfl⟩ := Option.map_eq_some_iff.mp hlist
      obtain ⟨p, e, q, answer, hafter, hcompletes, hnewest, rfl⟩ :=
        exists_completes_of_delivered? ht hdelivered
      exact ⟨p, e, q, answer, hafter, hcompletes, hnewest, rfl⟩
    · rw [suggestions?, if_neg ht] at hlist
      cases hlist
  · by_cases ht : isLookedUp minLength t = true
    · have hstale := getElem?_run_of_isClosed minLength after
        (getElem?_call_of_stale ht hticket) (Lookup.isClosed_of_returned rfl)
      simp only [suggestions?, if_pos ht, delivered?, reached, run_cons, step, hstale,
        Option.map_none]
    · rw [suggestions?, if_neg ht]
  · simp [reached, run, step, call, ht]
  · exact getElem?_run_of_isClosed minLength after (getElem?_call_of_stale ht hticket)
      (Lookup.isClosed_of_returned rfl)
  · exact begun_call minLength ticket t s
  · rintro p e q rfl
    obtain ⟨new, hnew, hbegin⟩ := exists_begun_of_step minLength e (reached p)
    refine ⟨new, ?_, fun r hr => ?_⟩
    · rw [← hnew, ← run_concat]
      rfl
    · obtain ⟨other, l, hl, ⟨due, hwaiting⟩, hrequest⟩ := hbegin r hr
      refine ⟨other, ?_, l, hl, ⟨due, hwaiting⟩, hrequest⟩
      rintro rfl
      have hstale := getElem?_run_of_isClosed minLength p
        (getElem?_call_of_stale ht hticket) (Lookup.isClosed_of_returned rfl)
      obtain rfl := Option.some.inj (hstale.symm.trans hl)
      cases hwaiting

/-- A catalog that fails does not keep a call from returning, and a later call under a stale
ticket returns nothing. -/
theorem newest_of_delivered_failed :
    let t := Draft.Term.ofText "bolt"
    let s := (start 250 (.ofCatalog ⟨[]⟩ 0 false)).run 2 [.invalidated]
    let es : List Event := [.asked 0 9, .answered 0 none, .resumed 0]
    (s.run 2 (.called 1 t :: es)).suggestions? 2 0 t [] 10 = some [] ∧
      (∃ p e q names, es = p ++ e :: q ∧
        (s.run 2 (.called 1 t :: p)).Completes 2 e 0 names ∧
        (s.run 2 (.called 1 t :: (p ++ [e]))).ticket = 1 ∧
        ([] : List Suggestion) = nameSuggestions t (names.getD []) [] 10) ∧
      (s.run 2 [.called 0 t]).suggestions? 2 0 t [] 10 = none := by
  intro t s es
  have hdelivered : (s.run 2 (.called 1 t :: es)).suggestions? 2 0 t [] 10 = some [] := by
    decide +kernel
  have hbolt := newest_of_delivered 2 250 (.ofCatalog ⟨[]⟩ 0 false) [.invalidated] es 1 t [] 10
  have hstale := newest_of_delivered 2 250 (.ofCatalog ⟨[]⟩ 0 false) [.invalidated] [] 0 t [] 10
  exact ⟨hdelivered, hbolt.1 [] hdelivered, (hstale.2 (by decide)).1⟩

end Call

end Lookups

end CardFilter
