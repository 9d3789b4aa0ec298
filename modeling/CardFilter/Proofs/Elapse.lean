import CardFilter.Proofs.Tickets
import Mathlib.Data.List.Basic

/-!
# Lookups while time passes

In a session the lookups are left alone for a time, and then everything happens that has become
possible (`CardFilter.Lookups.elapse`). As every new ticket calls off the request before it, at most
one request is under way; so lookups are in one of two states:

* all of them are done (`CardFilter.Lookups.Idle`), and time only moves the clock;
* all but the last are done, and the request of the last is the pending one
  (`CardFilter.Lookups.Looking`), so that time moves the last as if it were alone.

In both, waiting twice is waiting once for the later time
(`CardFilter.Lookups.Idle.elapse_elapse`, `CardFilter.Lookups.Looking.elapse_elapse`). This is what
lets a run be described by how far the clock comes, without a word on the single waits.
-/

namespace CardFilter

/-! ### One lookup -/

namespace Lookup

/-- The request is under way at the time, and something of it is due later. -/
def IsAhead (time : Nat) (l : Lookup) : Prop :=
  ∃ due, time < due ∧ (l.phase = .waiting due ∨ l.phase = .asking due)

/-- Nothing can happen to the lookup at the time by itself. -/
def IsStill (time : Nat) (l : Lookup) : Prop :=
  l.IsClosed ∨ l.IsAhead time

/-- The lookup has nothing to deliver any more, where `newest` is the newest ticket. -/
def IsDone (newest : Nat) (l : Lookup) : Prop :=
  l.IsClosed ∨ l.phase = .cancelled ∧ l.ticket ≠ newest

/-- The lookup at a later time, when its caller has taken up what there is under the newest
ticket. -/
def elapse (service : CatalogService) (time : Nat) (l : Lookup) : Lookup :=
  (l.advance service time).resume true

/-- The request that is begun by a time, if there is one. -/
def begunBy (time : Nat) (l : Lookup) : List Request :=
  (l.requestBy time l.askingTime?).toList

/-- The request that is over by a time, if there is one. -/
def overBy (latency time : Nat) (l : Lookup) : List Request :=
  (l.requestBy time (l.answerTime? latency)).toList

variable {newest time later : Nat} {l l' : Lookup} {service : CatalogService}

theorem IsAhead.isOutstanding (h : l.IsAhead time) : l.IsOutstanding := by
  obtain ⟨due, -, hdue⟩ := h
  exact ⟨due, hdue⟩

theorem IsOutstanding.not_isClosed (h : l.IsOutstanding) : ¬l.IsClosed := by
  grind [IsOutstanding, IsClosed]

theorem IsClosed.drop_eq (h : l.IsClosed) : l.drop = l :=
  Moves.eq_of_isClosed (l.moves_drop : l.Moves 0 _) h

theorem IsClosed.advance_eq (h : l.IsClosed) (service : CatalogService) (time : Nat) :
    l.advance service time = l :=
  Moves.eq_of_isClosed (l.moves_advance service time : l.Moves 0 _) h

theorem IsClosed.resume_eq (h : l.IsClosed) (current : Bool) : l.resume current = l := by
  rcases h with h | ⟨names, h⟩ <;> simp only [resume, h]

/-- A lookup at a time is at that time already. -/
theorem advance_advance (service : CatalogService) (time : Nat) (l : Lookup) :
    (l.advance service time).advance service time = l.advance service time := by
  grind [advance]

theorem begunBy_advance (service : CatalogService) (time : Nat) (l : Lookup) :
    (l.advance service time).begunBy time = [] := by
  obtain ⟨ticket, fragment, phase⟩ := l
  cases phase <;> grind [begunBy, requestBy, askingTime?, advance]

theorem overBy_advance (service : CatalogService) (time : Nat) (l : Lookup) :
    (l.advance service time).overBy service.latency time = [] := by
  obtain ⟨ticket, fragment, phase⟩ := l
  cases phase <;> grind [overBy, requestBy, answerTime?, advance]

/-- **Once its caller has looked for the result**, a lookup is ahead of the clock or closed. -/
theorem isStill_resume_advance (service : CatalogService) (time : Nat) (current : Bool)
    (l : Lookup) : ((l.advance service time).resume current).IsStill time := by
  obtain ⟨ticket, fragment, phase⟩ := l
  cases phase <;> grind [advance, resume, IsStill, IsClosed, IsAhead]

theorem IsDone.advance_eq (h : l.IsDone newest) (service : CatalogService) (time : Nat) :
    l.advance service time = l := by
  grind [IsDone, IsClosed, advance]

theorem IsDone.cancel_eq (h : l.IsDone newest) : l.cancel = l := by
  grind [IsDone, IsClosed, cancel]

theorem IsDone.begunBy_eq_nil (h : l.IsDone newest) (time : Nat) : l.begunBy time = [] := by
  grind [IsDone, IsClosed, begunBy, requestBy, askingTime?]

theorem IsDone.overBy_eq_nil (h : l.IsDone newest) (latency time : Nat) :
    l.overBy latency time = [] := by
  grind [IsDone, IsClosed, overBy, requestBy, answerTime?]

theorem IsDone.resume_eq (h : l.IsDone newest) (current : Bool) :
    l.resume current = l.resume false := by
  grind [IsDone, IsClosed, resume]

/-- No caller takes up names from a lookup that is done. -/
theorem IsDone.not_isOver_of_newest (h : l.IsDone newest) :
    (l.isOver && l.ticket == newest) = false := by
  grind [IsDone, IsClosed, isOver]

theorem IsDone.isClosed_resume (h : l.IsDone newest) : (l.resume false).IsClosed := by
  grind [IsDone, IsClosed, resume]

theorem IsDone.isClosed_of_isStill (h : l.IsDone newest) (hl : l.IsStill time) : l.IsClosed := by
  grind [IsDone, IsStill, IsClosed, IsAhead]

theorem IsStill.advance_eq (h : l.IsStill time) (service : CatalogService) :
    l.advance service time = l := by
  grind [IsStill, IsClosed, IsAhead, advance]

theorem IsStill.begunBy_eq_nil (h : l.IsStill time) : l.begunBy time = [] := by
  grind [IsStill, IsClosed, IsAhead, begunBy, requestBy, askingTime?]

theorem IsStill.overBy_eq_nil (h : l.IsStill time) (latency : Nat) :
    l.overBy latency time = [] := by
  grind [IsStill, IsClosed, IsAhead, overBy, requestBy, answerTime?]

theorem IsStill.resume_eq (h : l.IsStill time) (current : Bool) : l.resume current = l := by
  grind [IsStill, IsClosed, IsAhead, resume]

theorem IsStill.isOver_eq_false (h : l.IsStill time) : l.isOver = false := by
  grind [IsStill, IsClosed, IsAhead, isOver]

theorem IsClosed.elapse_eq (h : l.IsClosed) (service : CatalogService) (time : Nat) :
    l.elapse service time = l := by
  rw [elapse, h.advance_eq, h.resume_eq]

/-- **A request that is under way** is so after a time, or its caller has taken up the names. -/
theorem IsOutstanding.elapse_cases (h : l.IsOutstanding) (service : CatalogService)
    (time : Nat) :
    (l.advance service time).isOver = false ∧ (l.elapse service time).IsAhead time ∨
      (l.advance service time).isOver = true ∧ (l.elapse service time).IsClosed := by
  obtain ⟨ticket, fragment, phase⟩ := l
  cases phase <;>
    grind [IsOutstanding, IsAhead, IsClosed, elapse, advance, resume, isOver]

theorem ticket_elapse (service : CatalogService) (time : Nat) (l : Lookup) :
    (l.elapse service time).ticket = l.ticket := by
  obtain ⟨ticket, fragment, phase⟩ := l
  cases phase <;> grind [elapse, advance, resume]

theorem isOver_advance_elapse (h : time ≤ later) (service : CatalogService)
    (hl : (l.advance service time).isOver = false) :
    ((l.elapse service time).advance service later).isOver =
      (l.advance service later).isOver := by
  obtain ⟨ticket, fragment, phase⟩ := l
  cases phase <;> grind [elapse, advance, resume, isOver]

/-- A request that is over stays so. -/
theorem isOver_advance_of_le (h : time ≤ later) (service : CatalogService)
    (hl : (l.advance service time).isOver = true) : (l.advance service later).isOver = true := by
  obtain ⟨ticket, fragment, phase⟩ := l
  cases phase <;> grind [advance, isOver]

/-- A lookup whose quiet period lasts goes on to ask, and then to return what is answered. -/
theorem phase_elapse_of_waiting {due : Nat} (h : l.phase = .waiting due)
    (service : CatalogService) (time : Nat) :
    (l.elapse service time).phase =
      if due + service.latency ≤ time then
        .returned (some ((service.answer? (due + service.latency) l.fragment).getD []))
      else if due ≤ time then .asking (due + service.latency)
      else .waiting due := by
  grind [elapse, advance, resume]

theorem elapse_elapse (h : time ≤ later) (service : CatalogService) (l : Lookup) :
    (l.elapse service time).elapse service later = l.elapse service later := by
  obtain ⟨ticket, fragment, phase⟩ := l
  cases phase <;> grind [elapse, advance, resume]

theorem begunBy_elapse (h : time ≤ later) (service : CatalogService) (l : Lookup) :
    l.begunBy time ++ (l.elapse service time).begunBy later = l.begunBy later := by
  obtain ⟨ticket, fragment, phase⟩ := l
  cases phase <;> grind [begunBy, requestBy, askingTime?, elapse, advance, resume]

theorem overBy_elapse (h : time ≤ later) (service : CatalogService) (l : Lookup) :
    l.overBy service.latency time ++ (l.elapse service time).overBy service.latency later =
      l.overBy service.latency later := by
  obtain ⟨ticket, fragment, phase⟩ := l
  cases phase <;> grind [overBy, requestBy, answerTime?, elapse, advance, resume]

end Lookup

/-! ### Changes to one entry of a list -/

theorem modify_append_cons (f : α → α) (xs ys : List α) (a : α) :
    (xs ++ a :: ys).modify xs.length f = xs ++ f a :: ys := by
  induction xs with
  | nil => rfl
  | cons x xs ih => exact congrArg (x :: ·) ih

theorem modify_eq_self {f : α → α} {xs : List α} {i : Nat} (h : ∀ a ∈ xs[i]?, f a = a) :
    xs.modify i f = xs := by
  apply List.ext_getElem?
  intro j
  rw [List.getElem?_modify]
  split
  · rename_i hij
    subst hij
    cases hx : xs[i]? with
    | none => rfl
    | some a => exact congrArg some (h a hx)
  · exact Option.map_id'

namespace Lookups

variable {s : Lookups} {older : List Lookup} {l : Lookup} {time later : Nat}

/-! ### What no event changes -/

/-- The second are lookups after the first: of the same session, and not earlier. -/
structure Later (s s' : Lookups) : Prop where
  /-- The clock has not gone back. -/
  now_le : s.now ≤ s'.now
  /-- The quiet period is the same. -/
  debounce_eq : s'.debounce = s.debounce
  /-- The service is the same. -/
  service_eq : s'.service = s.service

theorem Later.refl (s : Lookups) : s.Later s :=
  ⟨Nat.le_refl _, rfl, rfl⟩

theorem Later.trans {s' s'' : Lookups} (h : s.Later s') (h' : s'.Later s'') : s.Later s'' :=
  ⟨Nat.le_trans h.now_le h'.now_le, h'.debounce_eq.trans h.debounce_eq,
    h'.service_eq.trans h.service_eq⟩

theorem cancelPending_eq (s : Lookups) :
    s.cancelPending = { s with all := s.cancelPending.all, pending := none } := by
  unfold cancelPending
  split
  · rfl
  · rename_i hpending
    rw [← hpending]

theorem later_cancelPending (s : Lookups) : s.Later s.cancelPending := by
  rw [cancelPending_eq]
  exact ⟨Nat.le_refl _, rfl, rfl⟩

theorem later_call (minLength ticket : Nat) (t : Draft.Term) (s : Lookups) :
    s.Later (s.call minLength ticket t) := by
  unfold call begin
  split
  · split
    · exact (later_cancelPending s).trans ⟨Nat.le_refl _, rfl, rfl⟩
    · exact ⟨Nat.le_refl _, rfl, rfl⟩
  · exact .refl s

theorem later_invalidate (s : Lookups) : s.Later s.invalidate :=
  (later_cancelPending s).trans ⟨Nat.le_refl _, rfl, rfl⟩

theorem later_step (minLength : Nat) (e : Event) (s : Lookups) :
    s.Later (s.step minLength e) := by
  cases e with
  | invalidated => exact later_invalidate s
  | called ticket t => exact later_call minLength ticket t s
  | suggested t => exact (later_invalidate s).trans (later_call minLength _ t _)
  | asked place due =>
    simp only [step, ask]
    split <;> exact ⟨Nat.le_refl _, rfl, rfl⟩
  | answered place names =>
    simp only [step, answer]
    split <;> exact ⟨Nat.le_refl _, rfl, rfl⟩
  | advanced time => exact ⟨Nat.le_max_left _ _, rfl, rfl⟩
  | resumed place =>
    simp only [step, resume]
    split <;> exact ⟨Nat.le_refl _, rfl, rfl⟩
  | dropped place => exact ⟨Nat.le_refl _, rfl, rfl⟩

theorem later_run (minLength : Nat) (es : List Event) (s : Lookups) :
    s.Later (s.run minLength es) := by
  induction es generalizing s with
  | nil => exact .refl s
  | cons e es ih => exact (later_step minLength e s).trans (ih _)

/-! ### Waiting -/

/-- **Lets a time come**, and everything happen that it makes possible. -/
def elapse (time : Nat) (s : Lookups) : Lookups :=
  (s.advance time).settle

/-- Every caller takes up what there is. -/
def takeUp (s : Lookups) : Lookups :=
  { s with
    all := s.all.map fun l => l.resume (l.ticket == s.ticket)
    pending := if s.all.any fun l => l.isOver && l.ticket == s.ticket then none else s.pending }

/-- Nothing is left that needs no time. -/
def AtRest (s : Lookups) : Prop :=
  ∀ l ∈ s.all, l.IsStill s.now

/-- All lookups are done. -/
def Idle (s : Lookups) : Prop :=
  ∀ l ∈ s.all, l.IsDone s.ticket

/-- **One request is under way**: that of the last lookup, under the newest ticket. -/
structure Looking (s : Lookups) (older : List Lookup) (l : Lookup) : Prop where
  /-- The lookup stands last. -/
  all_eq : s.all = older ++ [l]
  /-- The lookups before it are done. -/
  isDone : ∀ m ∈ older, m.IsDone s.ticket
  /-- The request is under way. -/
  isOutstanding : l.IsOutstanding
  /-- The ticket is the newest. -/
  ticket_eq : l.ticket = s.ticket
  /-- The request is known as the pending one. -/
  pending_eq : s.pending = some older.length

theorem inOrder_toList (r : Option Request) : inOrder r.toList = r.toList := by
  cases r with
  | none => exact List.mergeSort_nil
  | some r => exact List.mergeSort_singleton r

theorem resume_of_eq_append {xs ys : List Lookup} (h : s.all = xs ++ l :: ys) :
    s.resume xs.length =
      { s with
        all := xs ++ l.resume (l.ticket == s.ticket) :: ys
        pending := if l.isOver && l.ticket == s.ticket then none else s.pending } := by
  have hl : s.all[xs.length]? = some l := by simp [h]
  simp only [resume, hl]
  rw [h, modify_append_cons]

/-- One caller after the other takes up what there is. -/
theorem foldl_resume_range {xs ys : List Lookup} (h : s.all = xs ++ ys) :
    (List.range xs.length).foldl (fun s i => s.resume i) s =
      { s with
        all := xs.map (fun l => l.resume (l.ticket == s.ticket)) ++ ys
        pending := if xs.any fun l => l.isOver && l.ticket == s.ticket then none
          else s.pending } := by
  induction xs using List.reverseRecOn generalizing ys with
  | nil => simp [← h]
  | append_singleton xs l ih =>
    have hxs := @ih (l :: ys) (by simpa using h)
    rw [List.length_append, List.length_singleton, List.range_succ, List.foldl_append, hxs,
      List.foldl_cons, List.foldl_nil, ← List.length_map (fun l => l.resume (l.ticket == s.ticket)),
      resume_of_eq_append rfl]
    simp only [List.map_append, List.map_cons, List.map_nil, List.append_assoc, List.cons_append,
      List.nil_append, List.any_append, List.any_cons, List.any_nil, Bool.or_false]
    grind

theorem advance_eq (time : Nat) (s : Lookups) :
    s.advance time =
      { s with
        now := max s.now time
        all := s.all.map (Lookup.advance s.service (max s.now time))
        begun := s.begun ++ inOrder (s.all.flatMap (Lookup.begunBy (max s.now time)))
        answered := s.answered ++
          (inOrder (s.all.flatMap (Lookup.overBy s.service.latency (max s.now time)))).filter
            s.service.answers } := by
  simp only [advance, List.filterMap_eq_flatMap_toList]
  rfl

theorem advance_advance (time : Nat) (s : Lookups) :
    (s.advance time).advance (s.advance time).now = s.advance time := by
  have hbegun : (s.advance time).all.flatMap (Lookup.begunBy (s.advance time).now) = [] := by
    simp [advance, Lookup.begunBy_advance]
  have hover : (s.advance time).all.flatMap
      (Lookup.overBy (s.advance time).service.latency (s.advance time).now) = [] := by
    simp [advance, Lookup.overBy_advance]
  have hall : (s.advance time).all.map
      (Lookup.advance (s.advance time).service (s.advance time).now) = (s.advance time).all := by
    simp [advance, Lookup.advance_advance]
  rw [advance_eq, Nat.max_self, hbegun, hover, hall]
  simp [inOrder, rankBy]

theorem elapse_eq_takeUp (time : Nat) (s : Lookups) : s.elapse time = (s.advance time).takeUp := by
  rw [elapse, settle, advance_advance, foldl_resume_range (List.append_nil _).symm]
  simp only [List.append_nil, takeUp]

theorem length_elapse (time : Nat) (s : Lookups) :
    (s.elapse time).all.length = s.all.length := by
  rw [elapse_eq_takeUp, advance_eq]
  simp only [takeUp, List.length_map]

theorem now_elapse (time : Nat) (s : Lookups) : (s.elapse time).now = max s.now time := by
  rw [elapse_eq_takeUp, advance_eq]
  rfl

/-- **After a time nothing is left** that needs no time. -/
theorem atRest_elapse (time : Nat) (s : Lookups) : (s.elapse time).AtRest := by
  rw [elapse_eq_takeUp, advance_eq]
  simp only [AtRest, takeUp, List.map_map, List.forall_mem_map, Function.comp]
  exact fun l _ => Lookup.isStill_resume_advance _ _ _ l

theorem AtRest.elapse_now (h : s.AtRest) : s.elapse s.now = s := by
  have hadvance : s.all.map (Lookup.advance s.service s.now) = s.all :=
    (List.map_congr_left fun l hl => (h l hl).advance_eq s.service).trans (List.map_id s.all)
  have hbegun : s.all.flatMap (Lookup.begunBy s.now) = [] :=
    List.flatMap_eq_nil_iff.mpr fun l hl => (h l hl).begunBy_eq_nil
  have hover : s.all.flatMap (Lookup.overBy s.service.latency s.now) = [] :=
    List.flatMap_eq_nil_iff.mpr fun l hl => (h l hl).overBy_eq_nil _
  have hresume : s.all.map (fun l => l.resume (l.ticket == s.ticket)) = s.all :=
    (List.map_congr_left fun l hl => (h l hl).resume_eq _).trans (List.map_id s.all)
  have hpending : (s.all.any fun l => l.isOver && l.ticket == s.ticket) = false :=
    List.any_eq_false.mpr fun l hl => by simp [(h l hl).isOver_eq_false]
  rw [elapse_eq_takeUp, advance_eq, Nat.max_self, hadvance, hbegun, hover]
  simp [takeUp, hresume, hpending, inOrder, rankBy]

/-! ### Lookups that are done -/

section Done

variable {newest : Nat} {ms : List Lookup} (h : ∀ m ∈ ms, m.IsDone newest)

include h

theorem map_advance_of_isDone (service : CatalogService) (time : Nat) :
    ms.map (Lookup.advance service time) = ms :=
  (List.map_congr_left fun m hm => (h m hm).advance_eq service time).trans (List.map_id ms)

theorem flatMap_begunBy_of_isDone (time : Nat) : ms.flatMap (Lookup.begunBy time) = [] :=
  List.flatMap_eq_nil_iff.mpr fun m hm => (h m hm).begunBy_eq_nil time

theorem flatMap_overBy_of_isDone (latency time : Nat) :
    ms.flatMap (Lookup.overBy latency time) = [] :=
  List.flatMap_eq_nil_iff.mpr fun m hm => (h m hm).overBy_eq_nil latency time

theorem map_resume_of_isDone :
    ms.map (fun m => m.resume (m.ticket == newest)) = ms.map (Lookup.resume false) :=
  List.map_congr_left fun m hm => (h m hm).resume_eq _

theorem any_isOver_of_isDone : (ms.any fun m => m.isOver && m.ticket == newest) = false :=
  List.any_eq_false.mpr fun m hm => Bool.eq_false_iff.mp (h m hm).not_isOver_of_newest

end Done

/-! ### At most one request under way -/

/-- **While all lookups are done**, only the clock moves. -/
theorem Idle.elapse_eq (h : s.Idle) (time : Nat) :
    s.elapse time =
      { s with now := max s.now time, all := s.all.map (Lookup.resume false) } := by
  rw [elapse_eq_takeUp, advance_eq, map_advance_of_isDone h, flatMap_begunBy_of_isDone h,
    flatMap_overBy_of_isDone h]
  simp [takeUp, map_resume_of_isDone h, any_isOver_of_isDone h, inOrder, rankBy]

/-- **While one request is under way**, its lookup moves as if it were alone. -/
theorem Looking.elapse_eq (h : s.Looking older l) (time : Nat) :
    s.elapse time =
      { s with
        now := max s.now time
        all := older.map (Lookup.resume false) ++ [l.elapse s.service (max s.now time)]
        pending := if (l.advance s.service (max s.now time)).isOver then none else s.pending
        begun := s.begun ++ l.begunBy (max s.now time)
        answered := s.answered ++
          (l.overBy s.service.latency (max s.now time)).filter s.service.answers } := by
  have hmoves : l.Moves s.ticket (l.advance s.service (max s.now time)) := l.moves_advance _ _
  have hticket : (l.advance s.service (max s.now time)).ticket = s.ticket :=
    hmoves.ticket_eq.trans h.ticket_eq
  rw [elapse_eq_takeUp, advance_eq, h.all_eq, List.map_append, map_advance_of_isDone h.isDone,
    List.flatMap_append, flatMap_begunBy_of_isDone h.isDone, List.flatMap_append,
    flatMap_overBy_of_isDone h.isDone]
  simp [takeUp, map_resume_of_isDone h.isDone, any_isOver_of_isDone h.isDone, hticket,
    Lookup.begunBy, Lookup.overBy, inOrder_toList, Lookup.elapse]

theorem Idle.idle_elapse (h : s.Idle) (time : Nat) : (s.elapse time).Idle := by
  rw [h.elapse_eq]
  simp only [Idle, List.forall_mem_map]
  exact fun l hl => .inl (h l hl).isClosed_resume

/-- **Time leaves the same request under way**, or all lookups done. -/
theorem Looking.elapse_cases (h : s.Looking older l) (time : Nat) :
    (s.elapse time).Looking (older.map (Lookup.resume false))
        (l.elapse s.service (max s.now time)) ∧
        (l.advance s.service (max s.now time)).isOver = false ∨
      (s.elapse time).Idle ∧ (l.elapse s.service (max s.now time)).IsClosed ∧
        (l.advance s.service (max s.now time)).isOver = true := by
  have hdone : ∀ m ∈ older.map (Lookup.resume false), m.IsDone s.ticket := by
    simp only [List.forall_mem_map]
    exact fun m hm => .inl (h.isDone m hm).isClosed_resume
  rcases h.isOutstanding.elapse_cases s.service (max s.now time) with
    ⟨hover, hahead⟩ | ⟨hover, hclosed⟩
  · refine .inl ⟨?_, hover⟩
    rw [h.elapse_eq]
    exact
      { all_eq := rfl
        isDone := hdone
        isOutstanding := hahead.isOutstanding
        ticket_eq := (Lookup.ticket_elapse _ _ l).trans h.ticket_eq
        pending_eq := by simpa [hover] using h.pending_eq }
  · refine .inr ⟨?_, hclosed, hover⟩
    rw [h.elapse_eq]
    intro m hm
    rcases List.mem_append.mp hm with hm | hm
    · exact hdone m hm
    · exact .inl (List.mem_singleton.mp hm ▸ hclosed)

theorem Idle.elapse_elapse (h : s.Idle) (hle : time ≤ later) :
    (s.elapse time).elapse later = s.elapse later := by
  rw [(h.idle_elapse time).elapse_eq, h.elapse_eq, h.elapse_eq]
  have hresume : ∀ m ∈ s.all, (m.resume false).resume false = m.resume false :=
    fun m hm => (h m hm).isClosed_resume.resume_eq false
  have hnow : max (max s.now time) later = max s.now later := by omega
  simpa [hnow] using hresume

/-- **Waiting twice is waiting once** for the later time. -/
theorem Looking.elapse_elapse (h : s.Looking older l) (hle : time ≤ later) :
    (s.elapse time).elapse later = s.elapse later := by
  have hresume : ∀ m ∈ older, (m.resume false).resume false = m.resume false :=
    fun m hm => (h.isDone m hm).isClosed_resume.resume_eq false
  have hnow : max (max s.now time) later = max s.now later := by omega
  have hle : max s.now time ≤ max s.now later := by omega
  have helapse := Lookup.elapse_elapse hle s.service l
  have hbegun := Lookup.begunBy_elapse hle s.service l
  have hanswered := Lookup.overBy_elapse hle s.service l
  rcases h.elapse_cases time with ⟨hlooking, hover⟩ | ⟨hidle, hclosed, hover⟩
  · have hlater := Lookup.isOver_advance_elapse hle s.service hover
    rw [hlooking.elapse_eq, h.elapse_eq time, h.elapse_eq later]
    simpa [hnow, helapse, hlater, hover, hbegun, ← hanswered] using hresume
  · -- nothing happens to the lookup after the first time
    have hlater := Lookup.isOver_advance_of_le hle s.service hover
    have hdone : (l.elapse s.service (max s.now time)).IsDone s.ticket := .inl hclosed
    rw [hclosed.elapse_eq] at helapse
    rw [hdone.begunBy_eq_nil, List.append_nil] at hbegun
    rw [hdone.overBy_eq_nil, List.append_nil] at hanswered
    rw [hidle.elapse_eq, h.elapse_eq time, h.elapse_eq later]
    simpa [hnow, hlater, hover, hbegun, hanswered, ← helapse, hclosed.resume_eq] using hresume

/-! ### New tickets and callers who walk away -/

theorem settle_eq_elapse (s : Lookups) : s.settle = s.elapse s.now := by
  have hlength : (s.advance s.now).all.length = s.all.length := List.length_map _
  have hnow : (s.advance s.now).now = s.now := Nat.max_self _
  have hadvance := advance_advance s.now s
  rw [hnow] at hadvance
  rw [elapse, settle, settle, hlength, hnow, hadvance]

theorem Idle.cancelPending_eq (h : s.Idle) : s.cancelPending = { s with pending := none } := by
  have hcancel : ∀ i, s.all.modify i Lookup.cancel = s.all := fun i =>
    modify_eq_self fun l hl => (h l (List.mem_of_getElem? hl)).cancel_eq
  unfold cancelPending
  split
  · rw [hcancel]
  · rename_i hpending
    rw [← hpending]

theorem Looking.cancelPending_eq (h : s.Looking older l) :
    s.cancelPending = { s with all := older ++ [l.cancel], pending := none } := by
  have hmodify : s.all.modify older.length Lookup.cancel = older ++ [l.cancel] := by
    rw [h.all_eq, modify_append_cons]
  simp only [cancelPending, h.pending_eq, hmodify]

theorem invalidate_eq (s : Lookups) :
    s.invalidate =
      { s with ticket := s.ticket + 1, all := s.invalidate.all, pending := none } := by
  have hall : s.invalidate.all = s.cancelPending.all := rfl
  rw [hall, invalidate, Lookups.cancelPending_eq]

/-- **A new ticket leaves all lookups done.** -/
theorem idle_invalidate (hrest : s.AtRest) (h : s.Idle ∨ ∃ older l, s.Looking older l) :
    s.invalidate.Idle := by
  rcases h with hidle | ⟨older, l, hlooking⟩
  · rw [invalidate, hidle.cancelPending_eq]
    exact fun m hm => .inl ((hidle m hm).isClosed_of_isStill (hrest m hm))
  · rw [invalidate, hlooking.cancelPending_eq]
    intro m hm
    rcases List.mem_append.mp hm with hm | hm
    · have hall : m ∈ s.all := hlooking.all_eq ▸ List.mem_append_left _ hm
      exact .inl ((hlooking.isDone m hm).isClosed_of_isStill (hrest m hall))
    · obtain rfl := List.mem_singleton.mp hm
      have hticket : l.ticket ≠ s.ticket + 1 :=
        hlooking.ticket_eq ▸ Nat.ne_of_lt (Nat.lt_succ_self _)
      obtain ⟨due, hdue | hdue⟩ := hlooking.isOutstanding <;>
        exact .inr ⟨by simp only [Lookup.cancel, hdue], by simpa only [Lookup.cancel, hdue]⟩

/-- **A lookup under the newest ticket** is the one under way. -/
theorem Idle.begin_eq (h : s.Idle) (fragment : String) :
    s.begin s.ticket fragment =
      { s with
        all := s.all ++ [⟨s.ticket, fragment, .waiting (s.now + s.debounce)⟩]
        pending := some s.all.length } := by
  rw [begin, if_pos rfl, h.cancelPending_eq]

/-- A caller who walks away from the lookup under way leaves all of them done. -/
theorem Looking.idle_drop (h : s.Looking older l) : (s.drop older.length).Idle := by
  have hdrop : (s.drop older.length).all = older ++ [l.drop] := by
    rw [drop, h.all_eq, modify_append_cons]
  have hclosed : l.drop.IsClosed := by
    obtain ⟨due, hdue | hdue⟩ := h.isOutstanding <;> exact .inl (by simp only [Lookup.drop, hdue])
  intro m hm
  rcases List.mem_append.mp (hdrop ▸ hm) with hm | hm
  · exact h.isDone m hm
  · exact .inl (List.mem_singleton.mp hm ▸ hclosed)

/-- A caller who walks away from a closed lookup changes nothing. -/
theorem drop_eq_self {i : Nat} (h : ∀ m ∈ s.all[i]?, m.IsClosed) : s.drop i = s := by
  rw [drop, modify_eq_self fun m hm => (h m hm).drop_eq]

end Lookups

end CardFilter
