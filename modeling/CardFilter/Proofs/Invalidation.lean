import CardFilter.Proofs.Tickets

/-!
# What a new ticket calls off

A new ticket calls off the request that is known as the pending one. This file says which requests
under older tickets that leaves: those of lookups that wait and are not known as pending
(`CardFilter.Lookups.begun_after_invalidate`).

There are none as long as every ticket is used for one lookup. A ticket that is used twice can leave
one: the second lookup calls the first one off, and when the caller of the first one finds that out,
the ticket is still the newest, so that the mark of the second lookup is cleared
(`CardFilter.Lookups.begun_under_older_ticket`).

The invariant is `CardFilter.Lookups.Marked`: a lookup that waits is known as pending, or another
lookup under its ticket has returned. An event does one of three things to the mark
(`CardFilter.Lookups.MarkMoves`), and each of them keeps the invariant.
-/

namespace CardFilter

/-- The quiet period of the lookup lasts. -/
def Lookup.IsWaiting (l : Lookup) : Prop :=
  ∃ due, l.phase = .waiting due

namespace Lookup

variable {newest : Nat} {l l' : Lookup}

theorem not_isWaiting_cancel (l : Lookup) : ¬l.cancel.IsWaiting := by
  rintro ⟨due, hdue⟩
  unfold cancel at hdue
  split at hdue
  · cases hdue
  · cases hdue
  · rename_i hwaiting _
    exact hwaiting due hdue

/-- A lookup that waits has not moved. -/
theorem Moves.eq_of_isWaiting (h : l.Moves newest l') (hl' : l'.IsWaiting) : l' = l := by
  obtain ⟨due, hdue⟩ := hl'
  cases h with
  | kept => rfl
  | cancelled | asked | answered | returned | returnedNothing | dropped => cases hdue

theorem ticket_resume (current : Bool) (l : Lookup) : (l.resume current).ticket = l.ticket := by
  unfold resume
  split <;> rfl

/-- A caller who finds that the request is over has returned. -/
theorem exists_returned_resume (current : Bool) (hl : l.isOver = true) :
    ∃ names, (l.resume current).phase = .returned names := by
  obtain ⟨ticket, fragment, phase⟩ := l
  cases phase with
  | answered names => exact ⟨_, rfl⟩
  | cancelled => exact ⟨none, rfl⟩
  | waiting | asking | returned | dropped => cases hl

end Lookup

namespace Lookups

variable {place : Nat} {s : Lookups} {l : Lookup}

/-! ### The mark of the pending request -/

/-- **What an event does to the mark** of the pending request, from `s` to `s'`. -/
inductive MarkMoves (s s' : Lookups) : Prop
  /-- It stays where it is, and so does the newest ticket. -/
  | kept : s'.pending = s.pending → s'.ticket = s.ticket → MarkMoves s s'
  /-- The request that it marks is called off. -/
  | calledOff : (∀ place l, s.pending = some place → s.all[place]? = some l →
      s'.all[place]? = some l.cancel) → MarkMoves s s'
  /-- It is cleared by a caller who takes up a result under the newest ticket. -/
  | cleared {i : Nat} {m : Lookup} : s.all[i]? = some m → m.isOver = true →
      m.ticket = s.ticket → s'.all[i]? = some (m.resume true) → MarkMoves s s'

theorem getElem?_cancelPending_of_pending (hpending : s.pending = some place)
    (h : s.all[place]? = some l) : s.cancelPending.all[place]? = some l.cancel := by
  simp [cancelPending, hpending, h]

theorem getElem?_cancelPending_of_ne (hpending : s.pending ≠ some place) :
    s.cancelPending.all[place]? = s.all[place]? := by
  unfold cancelPending
  split
  · rename_i i hi
    have hne : i ≠ place := fun heq => hpending (heq ▸ hi)
    simp [hne]
  · rfl

theorem markMoves_call (minLength ticket : Nat) (t : Draft.Term) (s : Lookups) :
    MarkMoves s (s.call minLength ticket t) := by
  unfold call begin
  split
  swap
  · exact .kept rfl rfl
  split
  · refine .calledOff fun place l hpending h => ?_
    have hlt : place < s.all.length := (List.getElem?_eq_some_iff.mp h).1
    rw [List.getElem?_append_left (by rwa [length_cancelPending])]
    exact getElem?_cancelPending_of_pending hpending h
  · exact .kept rfl rfl

/-- What has been called off before a lookup begins stays so. -/
theorem getElem?_call_cancel (minLength ticket : Nat) (t : Draft.Term)
    (h : s.all[place]? = some l.cancel) :
    (s.call minLength ticket t).all[place]? = some l.cancel := by
  have hcall := getElem?_call minLength ticket t h
  rwa [Lookup.cancel_cancel, or_self] at hcall

theorem markMoves_step (minLength : Nat) (e : Event) (s : Lookups) :
    MarkMoves s (s.step minLength e) := by
  cases e with
  | invalidated => exact .calledOff fun _ _ => getElem?_cancelPending_of_pending
  | called ticket t => exact markMoves_call minLength ticket t s
  | suggested t =>
    refine .calledOff fun place l hpending h => getElem?_call_cancel minLength _ t ?_
    exact getElem?_cancelPending_of_pending hpending h
  | asked i due =>
    simp only [step, ask]
    split <;> exact .kept rfl rfl
  | answered i names =>
    simp only [step, answer]
    split <;> exact .kept rfl rfl
  | advanced time => exact .kept rfl rfl
  | dropped i => exact .kept rfl rfl
  | resumed i =>
    simp only [step, resume]
    split
    swap
    · exact .kept rfl rfl
    rename_i m hm
    by_cases hcleared : (m.isOver && m.ticket == s.ticket) = true
    · obtain ⟨hover, hticket⟩ := Bool.and_eq_true_iff.mp hcleared
      refine .cleared hm hover (beq_iff_eq.mp hticket) ?_
      rw [hticket, List.getElem?_modify_eq, hm]
      rfl
    · exact .kept (if_neg hcleared) rfl

/-! ### Lookups that wait -/

/-- Another lookup under the ticket of the one at a place has returned. -/
def HasReturnedPeer (s : Lookups) (place : Nat) (l : Lookup) : Prop :=
  ∃ other ≠ place, ∃ m, s.all[other]? = some m ∧ m.ticket = l.ticket ∧
    ∃ names, m.phase = .returned names

/-- **A lookup that waits is known as pending**, under the newest ticket, unless another lookup
under its ticket has returned. -/
def Marked (s : Lookups) : Prop :=
  ∀ place l, s.all[place]? = some l → l.IsWaiting →
    s.pending = some place ∧ l.ticket = s.ticket ∨ s.HasReturnedPeer place l

/-- What has returned stays so. -/
theorem HasReturnedPeer.step (h : s.HasReturnedPeer place l) (minLength : Nat) (e : Event) :
    (s.step minLength e).HasReturnedPeer place l := by
  obtain ⟨other, hne, m, hm, hticket, names, hnames⟩ := h
  have hreturned := Lookup.isClosed_of_returned hnames
  obtain ⟨m', hm', hmoves⟩ := exists_moves_of_step minLength e hm
  rw [hmoves.eq_of_isClosed hreturned] at hm'
  exact ⟨other, hne, m, hm', hticket, names, hnames⟩

/-- A lookup that begins stands behind the earlier ones, and if it waits, it is known as pending. -/
theorem pending_call_of_isWaiting {minLength ticket : Nat} {t : Draft.Term}
    (hnew : s.all.length ≤ place) (h : (s.call minLength ticket t).all[place]? = some l)
    (hl : l.IsWaiting) :
    (s.call minLength ticket t).pending = some place ∧
      l.ticket = (s.call minLength ticket t).ticket := by
  cases ht : isLookedUp minLength t with
  | false =>
    have hnone : s.call minLength ticket t = s := by simp [call, ht]
    rw [hnone, List.getElem?_eq_none hnew] at h
    cases h
  | true =>
    have hlength : (s.call minLength ticket t).all.length = s.all.length + 1 := by
      simp only [call, ht, if_true, begin]
      split <;> simp [length_cancelPending]
    have hlt : place < (s.call minLength ticket t).all.length :=
      (List.getElem?_eq_some_iff.mp h).1
    obtain rfl : place = s.all.length := by omega
    by_cases hticket : ticket = s.ticket
    · obtain rfl := Option.some.inj ((getElem?_call_of_newest ht hticket).symm.trans h)
      refine ⟨?_, by rw [ticket_call, hticket]⟩
      rw [call, if_pos ht, begin, if_pos hticket]
    · -- under a stale ticket nothing waits
      obtain rfl := Option.some.inj ((getElem?_call_of_stale ht hticket).symm.trans h)
      obtain ⟨due, hdue⟩ := hl
      cases hdue

theorem length_invalidate (s : Lookups) : s.invalidate.all.length = s.all.length :=
  length_cancelPending s

/-- **A lookup that waits** has waited before the event, or has begun with it and is known as
pending, under the newest ticket. -/
theorem isWaiting_of_step (minLength : Nat) (e : Event)
    (h : (s.step minLength e).all[place]? = some l) (hl : l.IsWaiting) :
    s.all[place]? = some l ∨
      (s.step minLength e).pending = some place ∧ l.ticket = (s.step minLength e).ticket := by
  by_cases hlt : place < s.all.length
  · have hbefore := List.getElem?_eq_getElem hlt
    obtain ⟨l', hl', hmoves⟩ := exists_moves_of_step minLength e hbefore
    obtain rfl := Option.some.inj (hl'.symm.trans h)
    rw [hmoves.eq_of_isWaiting hl]
    exact .inl hbefore
  · have hnew : s.all.length ≤ place := Nat.le_of_not_lt hlt
    -- no other event makes the list of lookups longer
    have hnone : ∀ all : List Lookup, all.length = s.all.length → all[place]? ≠ some l := by
      intro all hlength hsome
      rw [List.getElem?_eq_none (hlength ▸ hnew)] at hsome
      cases hsome
    cases e with
    | called ticket t => exact .inr (pending_call_of_isWaiting hnew h hl)
    | suggested t =>
      have hinvalidated : s.invalidate.all.length ≤ place := length_invalidate s ▸ hnew
      exact .inr (pending_call_of_isWaiting hinvalidated h hl)
    | invalidated => exact absurd h (hnone _ (length_invalidate s))
    | asked i due =>
      refine absurd h (hnone _ ?_)
      simp only [step, ask]
      split <;> simp
    | answered i names =>
      refine absurd h (hnone _ ?_)
      simp only [step, answer]
      split <;> simp
    | advanced time => exact absurd h (hnone _ (by simp [step, advance]))
    | resumed i =>
      refine absurd h (hnone _ ?_)
      simp only [step, resume]
      split <;> simp
    | dropped i => exact absurd h (hnone _ (by simp [step, drop]))

theorem Marked.step (h : s.Marked) (minLength : Nat) (e : Event) :
    (s.step minLength e).Marked := by
  intro place l hplace hl
  rcases isWaiting_of_step minLength e hplace hl with hbefore | hnew
  swap
  · exact .inl hnew
  rcases h place l hbefore hl with ⟨hpending, hticket⟩ | hpeer
  swap
  · exact .inr (hpeer.step minLength e)
  rcases markMoves_step minLength e s with
    ⟨hkept, hsame⟩ | hcalledOff | @⟨i, m, hm, hover, hnewest, hm'⟩
  · exact .inl ⟨hkept.trans hpending, hticket.trans hsame.symm⟩
  · -- what has been called off does not wait
    have hcancelled := hcalledOff place l hpending hbefore
    have hsame : l.cancel = l := Option.some.inj (hcancelled.symm.trans hplace)
    rw [← hsame] at hl
    exact absurd hl l.not_isWaiting_cancel
  · -- the caller who clears the mark has the same ticket
    refine .inr ⟨i, ?_, m.resume true, hm', ?_, m.exists_returned_resume true hover⟩
    · rintro rfl
      obtain rfl := Option.some.inj (hbefore.symm.trans hm)
      obtain ⟨due, hdue⟩ := hl
      simp [Lookup.isOver, hdue] at hover
    · rw [Lookup.ticket_resume, hnewest, hticket]

theorem marked_start (debounce : Nat) (service : CatalogService) :
    (start debounce service).Marked := by
  intro place l h
  cases h

theorem Marked.run (h : s.Marked) (minLength : Nat) (es : List Event) :
    (s.run minLength es).Marked := by
  induction es generalizing s with
  | nil => exact h
  | cons e es ih => exact ih (h.step minLength e)

/-! ### Requests after a new ticket -/

/-- A lookup that waits after a run has waited before it, or has a ticket at least as new as the
newest one then. -/
theorem isWaiting_of_run (minLength : Nat) (es : List Event)
    (h : (s.run minLength es).all[place]? = some l) (hl : l.IsWaiting) :
    s.all[place]? = some l ∨ s.ticket ≤ l.ticket := by
  induction es generalizing s with
  | nil => exact .inl h
  | cons e es ih =>
    rcases ih h with hbefore | hle
    · rcases isWaiting_of_step minLength e hbefore hl with hfirst | ⟨-, hticket⟩
      · exact .inl hfirst
      · exact .inr (hticket ▸ ticket_le_step minLength e s)
    · exact .inr (Nat.le_trans (ticket_le_step minLength e s) hle)

/-- **Every request of a run** is begun for a lookup that waits at that point of it. -/
theorem exists_begun_of_run (minLength : Nat) (es : List Event) (s : Lookups) :
    ∃ new, (s.run minLength es).begun = s.begun ++ new ∧
      ∀ r ∈ new, ∃ p place, (s.run minLength p).CanBegin place r := by
  induction es generalizing s with
  | nil => exact ⟨[], by simp [run]⟩
  | cons e es ih =>
    obtain ⟨first, hfirst, hbegin⟩ := exists_begun_of_step minLength e s
    obtain ⟨rest, hrest, hlater⟩ := ih (s.step minLength e)
    refine ⟨first ++ rest, by rw [run_cons, hrest, hfirst, List.append_assoc], fun r hr => ?_⟩
    rcases List.mem_append.mp hr with hr | hr
    · obtain ⟨place, hplace⟩ := hbegin r hr
      exact ⟨[], place, hplace⟩
    · obtain ⟨p, place, hplace⟩ := hlater r hr
      exact ⟨e :: p, place, hplace⟩

/-- The lookup at a place waits, and is not known as the pending one. -/
def IsMissed (s : Lookups) (place : Nat) (l : Lookup) : Prop :=
  s.all[place]? = some l ∧ l.IsWaiting ∧ s.pending ≠ some place

/-- **A new ticket leaves waiting** what was not known as pending. -/
theorem isMissed_of_invalidate (h : s.invalidate.all[place]? = some l) (hl : l.IsWaiting) :
    s.IsMissed place l := by
  have hlt : place < s.all.length := length_invalidate s ▸ (List.getElem?_eq_some_iff.mp h).1
  have hpending : s.pending ≠ some place := by
    intro hpending
    have hcancelled : s.invalidate.all[place]? = some s.all[place].cancel :=
      getElem?_cancelPending_of_pending hpending (List.getElem?_eq_getElem hlt)
    obtain rfl := Option.some.inj (hcancelled.symm.trans h)
    exact Lookup.not_isWaiting_cancel _ hl
  exact ⟨(getElem?_cancelPending_of_ne hpending).symm.trans h, hl, hpending⟩

/-- A lookup that a new ticket misses begins its request when its quiet period ends. -/
theorem IsMissed.begun_asked (h : s.IsMissed place l) (minLength due : Nat) :
    (s.run minLength [.invalidated, .asked place due]).begun =
      s.begun ++ [⟨s.now, l.ticket, l.fragment⟩] := by
  obtain ⟨hplace, ⟨since, hwaiting⟩, hpending⟩ := h
  have hkept : s.invalidate.all[place]? = some ⟨l.ticket, l.fragment, .waiting since⟩ := by
    rw [← hwaiting]
    exact (getElem?_cancelPending_of_ne hpending).trans hplace
  change (s.invalidate.ask place due).begun = _
  rw [ask, hkept]
  have hnow : s.invalidate.now = s.now := by
    unfold invalidate cancelPending
    split <;> rfl
  have hbegun : s.invalidate.begun = s.begun := begun_cancelPending s
  simp only [hnow, hbegun]

/-- **What is begun under an older ticket** once a new one has been handed out, however calls,
tickets, requests and their callers interleave before and after that:

* a request for a lookup that the new ticket misses, under a ticket under which another lookup has
  returned;
* each such request, as soon as the quiet period of its lookup ends;
* nothing, if no two lookups have had the same ticket. -/
theorem begun_after_invalidate (minLength debounce : Nat) (service : CatalogService)
    (before after : List Event) :
    let s := (start debounce service).run minLength before
    (∃ new, (s.run minLength (.invalidated :: after)).begun = s.begun ++ new ∧
      (∀ r ∈ new, r.ticket ≤ s.ticket → ∃ place l, s.IsMissed place l ∧
        r.ticket = l.ticket ∧ r.fragment = l.fragment ∧ s.HasReturnedPeer place l) ∧
      ((s.all.map Lookup.ticket).Nodup → ∀ r ∈ new, s.ticket < r.ticket)) ∧
      ∀ place l due, s.IsMissed place l →
        (s.run minLength [.invalidated, .asked place due]).begun =
          s.begun ++ [⟨s.now, l.ticket, l.fragment⟩] := by
  intro s
  have hmarked : s.Marked := (marked_start debounce service).run minLength before
  obtain ⟨new, hnew, hbegin⟩ := exists_begun_of_run minLength after s.invalidate
  have hbegun : (s.run minLength (.invalidated :: after)).begun = s.begun ++ new :=
    hnew.trans (congrArg (· ++ new) (begun_cancelPending s))
  have hmissed : ∀ r ∈ new, r.ticket ≤ s.ticket → ∃ place l, s.IsMissed place l ∧
      r.ticket = l.ticket ∧ r.fragment = l.fragment ∧ s.HasReturnedPeer place l := by
    intro r hr hle
    obtain ⟨p, place, l, hplace, hwaiting, hticket, hfragment⟩ := hbegin r hr
    rcases isWaiting_of_run minLength p hplace hwaiting with hbefore | hnewer
    · have hl := isMissed_of_invalidate hbefore hwaiting
      refine ⟨place, l, hl, hticket, hfragment, ?_⟩
      exact (hmarked place l hl.1 hwaiting).resolve_left fun hpending => hl.2.2 hpending.1
    · -- a lookup that begins later has a newer ticket
      have hlater : s.ticket + 1 ≤ l.ticket := hnewer
      omega
  refine ⟨⟨new, hbegun, hmissed, fun hnodup r hr => ?_⟩, fun place l due hl =>
    hl.begun_asked minLength due⟩
  by_contra hle
  obtain ⟨place, l, hl, -, -, other, hne, m, hm, hsame, -⟩ := hmissed r hr (Nat.le_of_not_lt hle)
  -- the two lookups have the same ticket, and so the same place
  have hother : (s.all.map Lookup.ticket)[other]? = (s.all.map Lookup.ticket)[place]? := by
    simp [hm, hl.1, hsame]
  have hlt : other < (s.all.map Lookup.ticket).length := by
    simpa using (List.getElem?_eq_some_iff.mp hm).1
  exact hne ((List.getElem?_inj hlt hnodup).mp hother)

/-- A ticket that was used twice leaves a lookup waiting; one that was used once does not. -/
theorem begun_after_invalidate_used_twice :
    let t := Draft.Term.ofText "shock"
    let s₀ := start 250 (.ofCatalog ⟨["Shock"]⟩ 0 false)
    let once := s₀.run 2 [.invalidated, .called 1 t]
    let twice := s₀.run 2 [.invalidated, .called 1 t, .called 1 t, .resumed 0]
    (∃ place l, twice.IsMissed place l ∧ 1 = l.ticket ∧ "shock" = l.fragment ∧
        twice.HasReturnedPeer place l) ∧
      (twice.run 2 [.invalidated, .asked 1 250]).begun = [⟨0, 1, "shock"⟩] ∧
      ∀ r ∈ (once.run 2 [.invalidated, .called 2 t, .advanced 250]).begun, 1 < r.ticket := by
  intro t s₀ once twice
  obtain ⟨⟨new, hnew, hmissed, -⟩, hasked⟩ := begun_after_invalidate 2 250
    (.ofCatalog ⟨["Shock"]⟩ 0 false)
    [.invalidated, .called 1 t, .called 1 t, .resumed 0] [.advanced 250]
  obtain ⟨⟨newer, hnewer, -, hnone⟩, -⟩ := begun_after_invalidate 2 250
    (.ofCatalog ⟨["Shock"]⟩ 0 false) [.invalidated, .called 1 t] [.called 2 t, .advanced 250]
  have htwice : twice.begun ++ new = [⟨250, 1, "shock"⟩] := by
    refine hnew.symm.trans ?_
    decide +kernel
  have honce : once.begun ++ newer =
      (once.run 2 [.invalidated, .called 2 t, .advanced 250]).begun := hnewer.symm
  have hwaiting : twice.IsMissed 1 ⟨1, "shock", .waiting 250⟩ :=
    ⟨by decide +kernel, ⟨250, rfl⟩, by decide +kernel⟩
  have hfacts : twice.begun = [] ∧ twice.now = 0 ∧ twice.ticket = 1 ∧ once.begun = [] ∧
      once.ticket = 1 ∧ (once.all.map Lookup.ticket).Nodup := by
    decide +kernel
  obtain ⟨hbegun, hnow, hticket, hbegun', hticket', hnodup⟩ := hfacts
  rw [hbegun, List.nil_append] at htwice
  rw [hbegun', List.nil_append] at honce
  have hasked' := hasked 1 ⟨1, "shock", .waiting 250⟩ 250 hwaiting
  have hnone' := hnone hnodup
  refine ⟨hmissed ⟨250, 1, "shock"⟩ (by simp [htwice]) (Nat.le_of_eq hticket.symm), ?_, ?_⟩
  · rw [hasked', hbegun, hnow]
    rfl
  · rw [← honce]
    intro r hr
    have hlt := hnone' r hr
    rwa [hticket'] at hlt

/-- **A new ticket can leave an older lookup waiting**: the second of two lookups under one ticket,
when the caller of the first one has found it called off. Its request is begun under a ticket that
is not the newest any more. -/
theorem begun_under_older_ticket :
    let t := Draft.Term.ofText "shock"
    let s := (start 250 (.ofCatalog ⟨["Shock"]⟩ 0 false)).run 2
      [.invalidated, .called 1 t, .called 1 t, .resumed 0, .invalidated]
    s.ticket = 2 ∧ s.begun = [] ∧ (s.run 2 [.advanced 250]).begun = [⟨250, 1, "shock"⟩] := by
  decide +kernel

end Lookups

end CardFilter
