import CardFilter.Proofs.Elapse
import CardFilter.Session

/-!
# The requests of a session

Streams may be opened, asked, given up and left alone for a time in any order, and filters may be
saved in between. This file says exactly which requests the catalog sees, and which it answers
(`CardFilter.Session.requests_of_run`): a stream whose term is looked up makes one request, as soon
as the quiet period is over, if the clock comes that far before another stream is opened and before
the stream itself is given up.

The proof goes forward through the events. Between two of them a session is settled
(`CardFilter.Session.Settled`): all lookups are done, or the request of the newest stream is under
way. The requests that a run adds are then those which the present lookups make in the time that is
left to the newest stream (`CardFilter.Session.reach`), and those of the streams that are still to
be opened.
-/

namespace CardFilter

/-! ### The last entry of a list -/

theorem modify_concat (f : α → α) (xs : List α) (a : α) (i : Nat) :
    (xs ++ [a]).modify i f = xs.modify i f ++ [if i = xs.length then f a else a] := by
  induction xs generalizing i with
  | nil => cases i <;> simp
  | cons x xs ih => cases i <;> simp [ih]

theorem exists_mem_of_mem_modify {f : α → α} {xs : List α} {i : Nat} {b : α}
    (h : b ∈ xs.modify i f) : ∃ a ∈ xs, b = a ∨ b = f a := by
  obtain ⟨j, hj⟩ := List.getElem?_of_mem h
  rw [List.getElem?_modify] at hj
  obtain ⟨a, ha, rfl⟩ := Option.map_eq_some_iff.mp hj
  refine ⟨a, List.mem_of_getElem? ha, ?_⟩
  split
  · exact .inr rfl
  · exact .inl rfl

/-! ### Terms that are looked up -/

/-- **The term can be looked up**: it is a name and no regular expression, and without the blanks
around it the name has at least `minLength` characters, and at least one. -/
def Draft.Term.IsEligible (minLength : Nat) (t : Draft.Term) : Prop :=
  ∃ literal text, t.content = .name literal text ∧ text.isRegex = false ∧
    max 1 minLength ≤ (trim t.fragment).toList.length

/-- The terms that are looked up are those that can be. -/
theorem isLookedUp_iff {minLength : Nat} {t : Draft.Term} :
    isLookedUp minLength t = true ↔ t.IsEligible minLength := by
  unfold isLookedUp Draft.Term.IsEligible
  split
  · rename_i literal text hcontent
    rw [Bool.and_eq_true, Bool.not_eq_true', decide_eq_true_iff, hcontent, Nat.max_comm]
    constructor
    · rintro ⟨hregex, hlength⟩
      exact ⟨literal, text, rfl, hregex, hlength⟩
    · rintro ⟨_, _, hname, hregex, hlength⟩
      cases hname
      exact ⟨hregex, hlength⟩
  · rename_i hcontent
    simp [hcontent]

instance (minLength : Nat) (t : Draft.Term) : Decidable (t.IsEligible minLength) :=
  decidable_of_iff _ isLookedUp_iff

namespace Session

/-! ### Runs of events -/

/-- The session after a sequence of events. -/
def run (s : Session) (es : List Event) : Session :=
  es.foldl (fun s e => (s.step e).2) s

/-- Lets a time come. -/
def elapse (time : Nat) (s : Session) : Session :=
  { s with lookups := s.lookups.elapse time }

/-- The event calls off the lookup of the stream at a place, if that is the newest: another stream
is opened, or the stream is given up. -/
def Event.callsOff (place : Nat) : Event → Bool
  | .opened _ => true
  | .dropped i => i == place
  | _ => false

/-- **How far the clock comes** before an event calls off the lookup of the stream at a place. -/
def reach (place : Nat) (s : Session) (es : List Event) : Nat :=
  (s.run (es.takeWhile fun e => !e.callsOff place)).lookups.now

/-- That a stream is opened in a run. -/
structure Opening where
  /-- When. -/
  time : Nat
  /-- The ticket that is handed out. -/
  ticket : Nat
  /-- The term being typed. -/
  term : Draft.Term
  /-- How far the clock comes before another stream is opened and before this one is given up. -/
  reach : Nat

/-- The streams that a run opens, oldest first. -/
def openings (s : Session) : List Event → List Opening
  | [] => []
  | .opened c :: es =>
    ⟨s.lookups.now, s.lookups.ticket + 1, c.term, (s.openStream c).reach s.streams.length es⟩
      :: (s.openStream c).openings es
  | e :: es => (s.step e).2.openings es

/-- The request of a stream, a time after the stream was opened: there is one if the term can be
looked up, and the clock comes that far. -/
def Opening.request? (minLength wait : Nat) (o : Opening) : Option Request :=
  if o.term.IsEligible minLength ∧ o.time + wait ≤ o.reach then
    some ⟨o.time + wait, o.ticket, trim o.term.fragment⟩
  else none

variable {s : Session} {older : List Lookup} {l : Lookup} {old : List Stream} {newest : Stream}

theorem run_cons (s : Session) (e : Event) (es : List Event) :
    s.run (e :: es) = (s.step e).2.run es := rfl

theorem reach_cons (place : Nat) (s : Session) (e : Event) (es : List Event) :
    s.reach place (e :: es) =
      if e.callsOff place then s.lookups.now else (s.step e).2.reach place es := by
  unfold reach
  rw [List.takeWhile_cons]
  cases e.callsOff place <;> rfl

/-! ### Settled sessions -/

/-- **The request of the newest stream is under way.** -/
structure Searching (s : Session) (older : List Lookup) (l : Lookup) (old : List Stream)
    (newest : Stream) : Prop where
  /-- One request is under way. -/
  looking : s.lookups.Looking older l
  /-- The stream stands last. -/
  streams_eq : s.streams = old ++ [newest]
  /-- The stream waits for the lookup under way. -/
  lookup_eq : newest.lookup = some older.length
  /-- No other stream does. -/
  lookup_lt : ∀ stream ∈ old, ∀ i ∈ stream.lookup, i < older.length

/-- **The session is settled**, as it is between two events. -/
structure Settled (s : Session) : Prop where
  /-- Nothing is left that needs no time. -/
  atRest : s.lookups.AtRest
  /-- Streams wait for lookups that were begun. -/
  lookup_lt : ∀ stream ∈ s.streams, ∀ i ∈ stream.lookup, i < s.lookups.all.length
  /-- All lookups are done, or the request of the newest stream is under way. -/
  idle_or_searching : s.lookups.Idle ∨ ∃ older l old newest, s.Searching older l old newest

theorem Settled.idle_or_looking (h : s.Settled) :
    s.lookups.Idle ∨ ∃ older l, s.lookups.Looking older l := by
  rcases h.idle_or_searching with hidle | ⟨older, l, _, _, hsearching⟩
  · exact .inl hidle
  · exact .inr ⟨older, l, hsearching.looking⟩

theorem settled_start (sources : Sources) (minLength debounce : Nat) (service : CatalogService) :
    (start sources minLength debounce service).Settled where
  atRest _ hl := nomatch hl
  lookup_lt _ hstream := nomatch hstream
  idle_or_searching := .inl fun _ hl => nomatch hl

theorem Settled.congr {s' : Session} (h : s.Settled) (hlookups : s'.lookups = s.lookups)
    (hstreams : s'.streams = s.streams) : s'.Settled where
  atRest := hlookups ▸ h.atRest
  lookup_lt := by
    rw [hlookups, hstreams]
    exact h.lookup_lt
  idle_or_searching := by
    rcases h.idle_or_searching with hidle | ⟨older, l, old, newest, hsearching⟩
    · exact .inl (hlookups ▸ hidle)
    · exact .inr ⟨older, l, old, newest,
        { looking := hlookups ▸ hsearching.looking
          streams_eq := hstreams.trans hsearching.streams_eq
          lookup_eq := hsearching.lookup_eq
          lookup_lt := hsearching.lookup_lt }⟩

/-- Time leaves a session settled. -/
theorem settled_elapse (h : s.Settled) (time : Nat) : (s.elapse time).Settled where
  atRest := Lookups.atRest_elapse time s.lookups
  lookup_lt stream hstream i hi := by
    rw [elapse, Lookups.length_elapse]
    exact h.lookup_lt stream hstream i hi
  idle_or_searching := by
    rcases h.idle_or_searching with hidle | ⟨older, l, old, newest, hsearching⟩
    · exact .inl (hidle.idle_elapse time)
    · rcases hsearching.looking.elapse_cases time with ⟨hlooking, -⟩ | ⟨hidle, -, -⟩
      · have hlength : (older.map (Lookup.resume false)).length = older.length :=
          List.length_map _
        exact .inr ⟨_, _, old, newest,
          { looking := hlooking
            streams_eq := hsearching.streams_eq
            lookup_eq := hlength.symm ▸ hsearching.lookup_eq
            lookup_lt := hlength.symm ▸ hsearching.lookup_lt }⟩
      · exact .inl hidle

/-- A session stays settled when a stream is marked, if the newest goes on waiting. -/
theorem Settled.modify (h : s.Settled) (f : Stream → Stream) (i : Nat)
    (hf : ∀ stream, (f stream).lookup = stream.lookup ∨ (f stream).lookup = none)
    (hnewest : ∀ older l old newest, s.Searching older l old newest → i = old.length →
      (f newest).lookup = newest.lookup) :
    ({ s with streams := s.streams.modify i f } : Session).Settled := by
  have hlookup : ∀ (streams : List Stream) (n : Nat),
      (∀ stream ∈ streams, ∀ i ∈ stream.lookup, i < n) →
      ∀ stream ∈ streams.modify i f, ∀ i ∈ stream.lookup, i < n := by
    intro streams n hlt stream hstream j hj
    obtain ⟨before, hbefore, rfl | rfl⟩ := exists_mem_of_mem_modify hstream
    · exact hlt _ hbefore j hj
    · rcases hf before with heq | heq
      · exact hlt before hbefore j (heq ▸ hj)
      · rw [heq] at hj
        cases hj
  refine ⟨h.atRest, hlookup _ _ h.lookup_lt, ?_⟩
  rcases h.idle_or_searching with hidle | ⟨older, l, old, newest, hsearching⟩
  · exact .inl hidle
  · refine .inr ⟨older, l, old.modify i f, if i = old.length then f newest else newest, ?_⟩
    exact
      { looking := hsearching.looking
        streams_eq := by
          change s.streams.modify i f = _
          rw [hsearching.streams_eq, modify_concat]
        lookup_eq := by
          split
          · rename_i hi
            rw [hnewest _ _ _ _ hsearching hi, hsearching.lookup_eq]
          · exact hsearching.lookup_eq
        lookup_lt := hlookup _ _ hsearching.lookup_lt }

/-- Where a stream waits for a lookup under way, it has not got its names. -/
theorem Searching.delivered?_eq_none (h : s.Searching older l old newest) :
    s.lookups.delivered? older.length = none := by
  have hl : s.lookups.all[older.length]? = some l := by simp [h.looking.all_eq]
  rw [Lookups.delivered?_eq hl]
  obtain ⟨due, hdue | hdue⟩ := h.looking.isOutstanding <;> rw [hdue]

theorem Searching.length_streams (h : s.Searching older l old newest) :
    s.streams.length = old.length + 1 := by
  rw [h.streams_eq, List.length_append, List.length_singleton]

/-- Only the newest stream waits for the lookup under way. -/
theorem Searching.eq_length_of_lookup (h : s.Searching older l old newest) {i : Nat}
    (hi : s.streams[i]?.bind (·.lookup) = some older.length) : i = old.length := by
  obtain ⟨stream, hstream, hlookup⟩ := Option.bind_eq_some_iff.mp hi
  rw [h.streams_eq] at hstream
  rcases getElem?_concat_eq_some_iff.mp hstream with hold | ⟨heq, -⟩
  · exact absurd (h.lookup_lt stream (List.mem_of_getElem? hold) _ hlookup) (Nat.lt_irrefl _)
  · exact heq

theorem settled_poll (h : s.Settled) (i : Nat) : (s.poll i).2.Settled := by
  unfold poll
  split
  · rename_i list hpeek
    refine h.modify take i (fun stream => ?_) fun older l old newest hsearching hi => ?_
    · unfold take
      split
      · exact .inr rfl
      · exact .inl rfl
    · subst hi
      have hstream : s.streams[old.length]? = some newest := by simp [hsearching.streams_eq]
      simp only [peek, hstream, hsearching.lookup_eq, hsearching.delivered?_eq_none] at hpeek
      unfold take
      grind
  · exact h

theorem settled_updateStore (h : s.Settled) (l : SavedList) (f : Store → Store) :
    (s.updateStore l f).Settled := by
  have hlookups : (s.updateStore l f).lookups = s.lookups := by cases l <;> rfl
  have hstreams : (s.updateStore l f).streams = s.streams := by cases l <;> rfl
  exact h.congr hlookups hstreams

/-! ### Streams that are given up -/

/-- Every lookup is closed but the one under way. -/
theorem Settled.isClosed_or_searching (h : s.Settled) {j : Nat} {m : Lookup}
    (hm : s.lookups.all[j]? = some m) :
    m.IsClosed ∨ ∃ older old newest, s.Searching older m old newest ∧ j = older.length := by
  have hstill := h.atRest m (List.mem_of_getElem? hm)
  rcases h.idle_or_searching with hidle | ⟨older, l, old, newest, hsearching⟩
  · exact .inl ((hidle m (List.mem_of_getElem? hm)).isClosed_of_isStill hstill)
  · rw [hsearching.looking.all_eq] at hm
    rcases getElem?_concat_eq_some_iff.mp hm with hold | ⟨rfl, rfl⟩
    · have hdone := hsearching.looking.isDone m (List.mem_of_getElem? hold)
      exact .inl (hdone.isClosed_of_isStill hstill)
    · exact .inr ⟨older, old, newest, hsearching, rfl⟩

/-- **The request that is under way** is the pending one. -/
theorem Settled.pending_eq (h : s.Settled) {j : Nat} {m : Lookup}
    (hm : s.lookups.all[j]? = some m) (houtstanding : m.IsOutstanding) :
    s.lookups.pending = some j := by
  rcases h.isClosed_or_searching hm with hclosed | ⟨older, old, newest, hsearching, rfl⟩
  · exact absurd hclosed houtstanding.not_isClosed
  · exact hsearching.looking.pending_eq

/-- **A stream that is given up** takes the lookup under way with it, if it is the newest one and
waits for that; else nothing happens to the lookups. -/
theorem lookups_drop_cases (h : s.Settled) (i : Nat) :
    (∃ older l old newest, s.Searching older l old newest ∧ i = old.length ∧
        (s.drop i).lookups = (s.lookups.drop older.length).settle) ∨
      (s.drop i).lookups = s.lookups ∧
        ∀ older l old newest, s.Searching older l old newest → i ≠ old.length := by
  by_cases hi : ∃ older l old newest, s.Searching older l old newest ∧ i = old.length
  · obtain ⟨older, l, old, newest, hsearching, rfl⟩ := hi
    have hlookup : s.streams[old.length]?.bind (·.lookup) = some older.length := by
      simp [hsearching.streams_eq, hsearching.lookup_eq]
    exact .inl ⟨older, l, old, newest, hsearching, rfl, by simp only [drop, hlookup]⟩
  · have hother : ∀ older l old newest, s.Searching older l old newest → i ≠ old.length :=
      fun older l old newest hsearching heq => hi ⟨older, l, old, newest, hsearching, heq⟩
    have hsettle : s.lookups.settle = s.lookups := by
      rw [Lookups.settle_eq_elapse, h.atRest.elapse_now]
    refine .inr ⟨?_, hother⟩
    unfold drop
    split
    · rename_i j hj
      have hclosed : ∀ m ∈ s.lookups.all[j]?, m.IsClosed := by
        intro m hm
        rcases h.isClosed_or_searching hm with hclosed | ⟨older, old, newest, hsearching, rfl⟩
        · exact hclosed
        · exact absurd (hsearching.eq_length_of_lookup hj) (hother older m old newest hsearching)
      simp only [Lookups.drop_eq_self hclosed, hsettle]
    · exact hsettle

theorem settled_drop (h : s.Settled) (i : Nat) : (s.drop i).Settled := by
  have hmarked := h.modify (fun stream => { stream with dropped := true }) i (fun _ => .inl rfl)
    fun _ _ _ _ _ _ => rfl
  rcases lookups_drop_cases h i with ⟨older, l, old, newest, hsearching, rfl, hdrop⟩ | ⟨hdrop, -⟩
  · rw [Lookups.settle_eq_elapse] at hdrop
    have hlength : (s.drop old.length).lookups.all.length = s.lookups.all.length := by
      rw [hdrop, Lookups.length_elapse]
      exact List.length_modify ..
    refine ⟨hdrop ▸ Lookups.atRest_elapse _ _, ?_,
      .inl (hdrop ▸ hsearching.looking.idle_drop.idle_elapse _)⟩
    rw [hlength]
    exact hmarked.lookup_lt
  · exact hmarked.congr hdrop rfl

/-! ### Streams that are opened -/

/-- The lookups when a stream has been opened, before anything else happens. -/
def lookupsOpened (c : Completion) (s : Session) : Lookups :=
  s.lookups.step s.minLength (.suggested c.term)

/-- The lookup of a stream that has just been opened. -/
def lookupOpened (c : Completion) (s : Session) : Lookup :=
  ⟨s.lookups.ticket + 1, nameFragment c.term, .waiting (s.lookups.now + s.lookups.debounce)⟩

theorem lookupsOpened_of_isLookedUp (h : s.Settled) {c : Completion}
    (hc : isLookedUp s.minLength c.term = true) :
    s.lookupsOpened c =
      { s.lookups.invalidate with
        all := s.lookups.invalidate.all ++ [s.lookupOpened c]
        pending := some s.lookups.invalidate.all.length } := by
  have hidle := Lookups.idle_invalidate h.atRest h.idle_or_looking
  rw [lookupsOpened, Lookups.step, Lookups.call, if_pos hc, hidle.begin_eq, Lookups.invalidate_eq]
  rfl

theorem lookupsOpened_of_not_isLookedUp {c : Completion}
    (hc : isLookedUp s.minLength c.term = false) : s.lookupsOpened c = s.lookups.invalidate :=
  if_neg (Bool.eq_false_iff.mp hc)

theorem looking_lookupsOpened (h : s.Settled) {c : Completion}
    (hc : isLookedUp s.minLength c.term = true) :
    (s.lookupsOpened c).Looking s.lookups.invalidate.all (s.lookupOpened c) := by
  have hidle := Lookups.idle_invalidate h.atRest h.idle_or_looking
  rw [lookupsOpened_of_isLookedUp h hc]
  exact
    { all_eq := rfl
      isDone := hidle
      isOutstanding := ⟨_, .inl rfl⟩
      ticket_eq := rfl
      pending_eq := rfl }

theorem idle_lookupsOpened (h : s.Settled) {c : Completion}
    (hc : isLookedUp s.minLength c.term = false) : (s.lookupsOpened c).Idle := by
  rw [lookupsOpened_of_not_isLookedUp hc]
  exact Lookups.idle_invalidate h.atRest h.idle_or_looking

/-- A stream that is opened takes no time and makes no request at once. -/
theorem lookupsOpened_kept (h : s.Settled) (c : Completion) :
    (s.lookupsOpened c).now = s.lookups.now ∧
      (s.lookupsOpened c).service = s.lookups.service ∧
      (s.lookupsOpened c).begun = s.lookups.begun ∧
      (s.lookupsOpened c).answered = s.lookups.answered := by
  cases hc : isLookedUp s.minLength c.term
  · rw [lookupsOpened_of_not_isLookedUp hc, Lookups.invalidate_eq]
    exact ⟨rfl, rfl, rfl, rfl⟩
  · rw [lookupsOpened_of_isLookedUp h hc, Lookups.invalidate_eq]
    exact ⟨rfl, rfl, rfl, rfl⟩

theorem lookups_openStream_eq_settle (c : Completion) (s : Session) :
    (s.openStream c).lookups = (s.lookupsOpened c).settle := by
  have hopened : s.lookupsOpened c = if isLookedUp s.minLength c.term then
      s.lookups.invalidate.begin s.lookups.invalidate.ticket (nameFragment c.term)
    else s.lookups.invalidate := rfl
  rw [hopened]
  unfold openStream
  split <;> rfl

theorem lookups_openStream (h : s.Settled) (c : Completion) :
    (s.openStream c).lookups = (s.lookupsOpened c).elapse s.lookups.now := by
  rw [← (lookupsOpened_kept h c).1, ← Lookups.settle_eq_elapse, lookups_openStream_eq_settle]

theorem now_openStream (h : s.Settled) (c : Completion) :
    (s.openStream c).lookups.now = s.lookups.now := by
  rw [lookups_openStream h, Lookups.now_elapse, (lookupsOpened_kept h c).1, Nat.max_self]

theorem streams_openStream (c : Completion) (s : Session) :
    (s.openStream c).streams = s.streams ++ [⟨c, s.immediate c, false,
      if isLookedUp s.minLength c.term then some s.lookups.invalidate.all.length else none,
      false⟩] := by
  unfold openStream
  split <;> rfl

theorem settled_openStream (h : s.Settled) (c : Completion) : (s.openStream c).Settled := by
  have hlookups := lookups_openStream h c
  have hstreams := streams_openStream c s
  have hlength : s.lookups.invalidate.all.length = s.lookups.all.length :=
    Lookups.length_cancelPending s.lookups
  have hlt : ∀ stream ∈ s.streams, ∀ i ∈ stream.lookup, i < s.lookups.invalidate.all.length :=
    hlength ▸ h.lookup_lt
  cases hc : isLookedUp s.minLength c.term
  · rw [hc] at hstreams
    have hidle := idle_lookupsOpened h hc
    have hall : (s.lookupsOpened c).all = s.lookups.invalidate.all := by
      rw [lookupsOpened_of_not_isLookedUp hc]
    refine ⟨hlookups ▸ Lookups.atRest_elapse _ _, ?_, .inl (hlookups ▸ hidle.idle_elapse _)⟩
    rw [hlookups, hstreams, Lookups.length_elapse, hall]
    intro stream hstream i hi
    rcases List.mem_append.mp hstream with hstream | hstream
    · exact hlt stream hstream i hi
    · obtain rfl := List.mem_singleton.mp hstream
      cases hi
  · rw [hc] at hstreams
    have hlooking := looking_lookupsOpened h hc
    have hall := congrArg List.length hlooking.all_eq
    rw [List.length_append, List.length_singleton] at hall
    refine ⟨hlookups ▸ Lookups.atRest_elapse _ _, ?_, ?_⟩
    · rw [hlookups, hstreams, Lookups.length_elapse, hall]
      intro stream hstream i hi
      rcases List.mem_append.mp hstream with hstream | hstream
      · exact Nat.lt_succ_of_lt (hlt stream hstream i hi)
      · obtain rfl := List.mem_singleton.mp hstream
        obtain rfl := Option.some.inj hi
        exact Nat.lt_succ_self _
    · rcases hlooking.elapse_cases s.lookups.now with ⟨hlooking, -⟩ | ⟨hidle, -, -⟩
      · have hmap : (s.lookups.invalidate.all.map (Lookup.resume false)).length =
            s.lookups.invalidate.all.length := List.length_map _
        exact .inr ⟨_, _, s.streams, _,
          { looking := hlookups ▸ hlooking
            streams_eq := hstreams
            lookup_eq := congrArg some hmap.symm
            lookup_lt := hmap.symm ▸ hlt }⟩
      · exact .inl (hlookups ▸ hidle)

/-! ### One event -/

theorem lookups_poll (i : Nat) (s : Session) : (s.poll i).2.lookups = s.lookups := by
  unfold poll
  split <;> rfl

theorem lookups_updateStore (l : SavedList) (f : Store → Store) (s : Session) :
    (s.updateStore l f).lookups = s.lookups := by
  cases l <;> rfl

/-- Waiting for a stream lets a time come. -/
theorem exists_await_eq (h : s.Settled) (i : Nat) : ∃ time, s.await i = s.elapse time := by
  have hkept : s = s.elapse s.lookups.now := by
    rw [elapse, h.atRest.elapse_now]
  unfold await
  split
  · rename_i l _ _
    unfold Lookups.await
    split
    · rename_i time _
      exact ⟨time, rfl⟩
    · exact ⟨s.lookups.now, by rw [Lookups.settle_eq_elapse, elapse]⟩
  · exact ⟨s.lookups.now, hkept⟩

/-- **An event leaves a session settled.** -/
theorem settled_step (h : s.Settled) (e : Event) : (s.step e).2.Settled := by
  cases e with
  | opened c => exact settled_openStream h c
  | polled i => exact settled_poll h i
  | awaited i =>
    obtain ⟨time, htime⟩ := exists_await_eq h i
    have hawait : (s.await i).Settled := htime ▸ settled_elapse h time
    exact settled_poll hawait i
  | dropped i => exact settled_drop h i
  | waited time => exact settled_elapse h _
  | recorded l f => exact settled_updateStore h l _
  | removed l f => exact settled_updateStore h l _

theorem settled_run (h : s.Settled) (es : List Event) : (s.run es).Settled := by
  induction es generalizing s with
  | nil => exact h
  | cons e es ih => exact ih (settled_step h e)

/-- **An event that calls nothing off** only lets a time come. -/
theorem exists_elapse_of_step (h : s.Settled) {e : Event}
    (he : ∀ place, e.callsOff place = false) :
    ∃ time, (s.step e).2.lookups = s.lookups.elapse time := by
  have hkept := h.atRest.elapse_now
  cases e with
  | opened c => cases he 0
  | polled i => exact ⟨s.lookups.now, (lookups_poll i s).trans hkept.symm⟩
  | awaited i =>
    obtain ⟨time, htime⟩ := exists_await_eq h i
    exact ⟨time, (lookups_poll i _).trans (congrArg Session.lookups htime)⟩
  | dropped i => simpa [Event.callsOff] using he i
  | waited time => exact ⟨s.lookups.now + time, rfl⟩
  | recorded l f => exact ⟨s.lookups.now, (lookups_updateStore l _ s).trans hkept.symm⟩
  | removed l f => exact ⟨s.lookups.now, (lookups_updateStore l _ s).trans hkept.symm⟩

/-- **To the lookups an event is a run.** -/
theorem exists_run_step (e : Event) (s : Session) :
    ∃ es, (s.step e).2.lookups = s.lookups.run s.minLength es := by
  have hsettle := Lookups.exists_run_settle s.minLength
  -- something happens to the lookups, and then what needs no time
  have hthen : ∀ e : Lookups.Event,
      ∃ es, (s.lookups.step s.minLength e).settle = s.lookups.run s.minLength es := by
    intro e
    obtain ⟨es, hes⟩ := hsettle (s.lookups.step s.minLength e)
    exact ⟨e :: es, hes⟩
  cases e with
  | opened c =>
    obtain ⟨es, hes⟩ := hthen (.suggested c.term)
    exact ⟨es, (lookups_openStream_eq_settle c s).trans hes⟩
  | polled i => exact ⟨[], lookups_poll i s⟩
  | awaited i =>
    have hpoll : (s.step (.awaited i)).2.lookups = (s.await i).lookups := lookups_poll i _
    rw [hpoll]
    unfold await
    split
    · exact Lookups.exists_run_await _ _ _
    · exact ⟨[], rfl⟩
  | dropped i =>
    change ∃ es, (s.drop i).lookups = _
    unfold drop
    split
    · rename_i l _
      exact hthen (.dropped l)
    · exact hsettle _
  | waited time => exact hthen (.advanced _)
  | recorded l f => exact ⟨[], lookups_updateStore l _ s⟩
  | removed l f => exact ⟨[], lookups_updateStore l _ s⟩

theorem minLength_poll (i : Nat) (s : Session) : (s.poll i).2.minLength = s.minLength := by
  unfold poll
  split <;> rfl

theorem minLength_step (e : Event) (s : Session) : (s.step e).2.minLength = s.minLength := by
  cases e with
  | opened c =>
    change (s.openStream c).minLength = s.minLength
    unfold openStream
    split <;> rfl
  | polled i => exact minLength_poll i s
  | awaited i =>
    have hawait : (s.await i).minLength = s.minLength := by
      unfold await
      split <;> rfl
    exact (minLength_poll i _).trans hawait
  | dropped i => rfl
  | waited time => rfl
  | recorded l f => cases l <;> rfl
  | removed l f => cases l <;> rfl

theorem exists_run_run (es : List Event) (s : Session) :
    ∃ fs, (s.run es).lookups = s.lookups.run s.minLength fs := by
  induction es generalizing s with
  | nil => exact ⟨[], rfl⟩
  | cons e es ih =>
    obtain ⟨fs, hfs⟩ := exists_run_step e s
    obtain ⟨gs, hgs⟩ := ih (s.step e).2
    refine ⟨fs ++ gs, ?_⟩
    rw [run_cons, hgs, minLength_step, hfs, ← Lookups.run_append]

theorem later_run (es : List Event) (s : Session) : s.lookups.Later (s.run es).lookups := by
  obtain ⟨fs, hfs⟩ := exists_run_run es s
  rw [hfs]
  exact Lookups.later_run s.minLength fs s.lookups

/-! ### The requests of a run -/

theorem le_reach (place : Nat) (s : Session) (es : List Event) :
    s.lookups.now ≤ s.reach place es :=
  (later_run _ s).now_le

theorem le_reach_of_elapse {s' : Session} {time : Nat} (h : s'.lookups = s.lookups.elapse time)
    (place : Nat) (es : List Event) : time ≤ s'.reach place es := by
  refine Nat.le_trans ?_ (le_reach place s' es)
  rw [h, Lookups.now_elapse]
  exact Nat.le_max_right _ _

theorem length_streams_poll (i : Nat) (s : Session) :
    (s.poll i).2.streams.length = s.streams.length := by
  unfold poll
  split
  · exact List.length_modify ..
  · rfl

theorem length_streams_step {e : Event} (he : ∀ c, e ≠ .opened c) (s : Session) :
    (s.step e).2.streams.length = s.streams.length := by
  cases e with
  | opened c => exact absurd rfl (he c)
  | polled i => exact length_streams_poll i s
  | awaited i =>
    have hawait : (s.await i).streams = s.streams := by
      unfold await
      split <;> rfl
    exact (length_streams_poll i _).trans (congrArg List.length hawait)
  | dropped i => exact List.length_modify ..
  | waited time => rfl
  | recorded l f => cases l <;> rfl
  | removed l f => cases l <;> rfl

theorem Settled.elapse_elapse (h : s.Settled) {time later : Nat} (hle : time ≤ later) :
    (s.lookups.elapse time).elapse later = s.lookups.elapse later := by
  rcases h.idle_or_looking with hidle | ⟨older, l, hlooking⟩
  · exact hidle.elapse_elapse hle
  · exact hlooking.elapse_elapse hle

theorem Event.callsOff_eq_false_or {e : Event} (he : ∀ c, e ≠ .opened c) :
    (∀ place, e.callsOff place = false) ∨ ∃ i, e = .dropped i := by
  cases e with
  | opened c => exact absurd rfl (he c)
  | dropped i => exact .inr ⟨i, rfl⟩
  | polled | awaited | waited | recorded | removed => exact .inl fun _ => rfl

/-- **While no stream is opened**, the requests to come stay the same. -/
theorem log_elapse_step (h : s.Settled) {e : Event} (he : ∀ c, e ≠ .opened c) (es : List Event) :
    let place := s.streams.length - 1
    let later := (s.step e).2.lookups.elapse ((s.step e).2.reach place es)
    let whole := s.lookups.elapse (s.reach place (e :: es))
    later.begun = whole.begun ∧ later.answered = whole.answered := by
  intro place later whole
  rcases Event.callsOff_eq_false_or he with hquiet | ⟨i, rfl⟩
  · obtain ⟨time, htime⟩ := exists_elapse_of_step h hquiet
    have hle : time ≤ (s.step e).2.reach place es := le_reach_of_elapse htime place es
    have hlater : later = whole := by
      simp only [later, whole, reach_cons, hquiet, htime, h.elapse_elapse hle]
      rfl
    rw [hlater]
    exact ⟨rfl, rfl⟩
  · have hstep : (s.step (.dropped i)).2 = s.drop i := rfl
    simp only [later, whole, reach_cons, hstep, Event.callsOff]
    rcases lookups_drop_cases h i with
      ⟨older, l, old, newest, hsearching, rfl, hdrop⟩ | ⟨hdrop, hother⟩
    · -- the request under way is called off, and no time is left to it
      have hplace : place = old.length := by
        simp only [place, hsearching.length_streams, Nat.add_sub_cancel]
      have hidle := hsearching.looking.idle_drop
      rw [hplace, beq_self_eq_true, if_pos rfl, h.atRest.elapse_now, hdrop,
        Lookups.settle_eq_elapse, (hidle.idle_elapse _).elapse_eq, hidle.elapse_eq]
      exact ⟨rfl, rfl⟩
    · rw [hdrop]
      by_cases hplace : i = place
      · -- nothing is under way
        rcases h.idle_or_searching with hidle | ⟨older, l, old, newest, hsearching⟩
        · rw [hidle.elapse_eq, hidle.elapse_eq]
          exact ⟨rfl, rfl⟩
        · refine absurd ?_ (hother older l old newest hsearching)
          simp only [hplace, place, hsearching.length_streams, Nat.add_sub_cancel]
      · rw [beq_eq_false_iff_ne.mpr hplace]
        exact ⟨rfl, rfl⟩

theorem elapse_openStream (h : s.Settled) (c : Completion) {later : Nat}
    (hle : s.lookups.now ≤ later) :
    (s.openStream c).lookups.elapse later = (s.lookupsOpened c).elapse later := by
  rw [lookups_openStream h]
  cases hc : isLookedUp s.minLength c.term
  · exact (idle_lookupsOpened h hc).elapse_elapse hle
  · exact (looking_lookupsOpened h hc).elapse_elapse hle

/-- **What a stream adds to the requests** in the time that is left to it. -/
theorem log_elapse_openStream (h : s.Settled) (c : Completion) {reach : Nat}
    (hreach : s.lookups.now ≤ reach) :
    let o : Opening := ⟨s.lookups.now, s.lookups.ticket + 1, c.term, reach⟩
    let later := (s.openStream c).lookups.elapse reach
    later.begun = s.lookups.begun ++ (o.request? s.minLength s.lookups.debounce).toList ∧
      later.answered = s.lookups.answered ++
        (o.request? s.minLength (s.lookups.debounce + s.lookups.service.latency)).toList.filter
          s.lookups.service.answers := by
  intro o later
  obtain ⟨hnow, hservice, hbegun, hanswered⟩ := lookupsOpened_kept h c
  have hlater : later = (s.lookupsOpened c).elapse reach := elapse_openStream h c hreach
  cases hc : isLookedUp s.minLength c.term
  · rw [hlater, (idle_lookupsOpened h hc).elapse_eq, hbegun, hanswered]
    simp [o, Opening.request?, ← isLookedUp_iff, hc]
  · have hasked : (s.lookupOpened c).begunBy reach =
        (o.request? s.minLength s.lookups.debounce).toList := by
      simp [Lookup.begunBy, Lookup.requestBy, Lookup.askingTime?, lookupOpened,
        Opening.request?, o, ← isLookedUp_iff, hc, nameFragment]
    have hover : (s.lookupOpened c).overBy s.lookups.service.latency reach =
        (o.request? s.minLength (s.lookups.debounce + s.lookups.service.latency)).toList := by
      simp [Lookup.overBy, Lookup.requestBy, Lookup.answerTime?, lookupOpened,
        Opening.request?, o, ← isLookedUp_iff, hc, nameFragment, Nat.add_assoc]
    rw [hlater, (looking_lookupsOpened h hc).elapse_eq, hnow, hservice, hbegun, hanswered,
      Nat.max_eq_right hreach, hasked, hover]
    exact ⟨rfl, rfl⟩

theorem filterMap_cons_eq_append (f : α → Option β) (a : α) (as : List α) :
    (a :: as).filterMap f = (f a).toList ++ as.filterMap f := by
  rw [List.filterMap_cons]
  cases f a <;> rfl

/-- **The requests of a run**: those that the present lookups make in the time that is left to the
newest stream, and those of the streams that are still to be opened. -/
theorem log_run (h : s.Settled) (es : List Event) :
    let present := s.lookups.elapse (s.reach (s.streams.length - 1) es)
    (s.run es).lookups.begun = present.begun ++
        (s.openings es).filterMap (Opening.request? s.minLength s.lookups.debounce) ∧
      (s.run es).lookups.answered = present.answered ++ ((s.openings es).filterMap
        (Opening.request? s.minLength (s.lookups.debounce + s.lookups.service.latency))).filter
          s.lookups.service.answers := by
  induction es generalizing s with
  | nil =>
    have hpresent : s.lookups.elapse (s.reach (s.streams.length - 1) []) = s.lookups :=
      h.atRest.elapse_now
    simp only [hpresent, openings]
    simp [run]
  | cons e es ih =>
    have hlater : s.lookups.Later (s.step e).2.lookups := later_run [e] s
    have hih := ih (settled_step h e)
    rw [minLength_step, hlater.debounce_eq, hlater.service_eq] at hih
    by_cases he : ∃ c, e = .opened c
    · -- the present lookups have no time left, and the new stream adds its own request
      obtain ⟨c, rfl⟩ := he
      have hpresent : s.lookups.elapse (s.reach (s.streams.length - 1) (.opened c :: es)) =
          s.lookups := h.atRest.elapse_now
      have hplace : (s.openStream c).streams.length - 1 = s.streams.length := by
        rw [streams_openStream, List.length_append]
        rfl
      have hle : s.lookups.now ≤ (s.openStream c).reach s.streams.length es :=
        Nat.le_trans hlater.now_le (le_reach _ _ es)
      obtain ⟨hbegun, hanswered⟩ := log_elapse_openStream h c hle
      simp only [step, hplace, hbegun, hanswered, List.append_assoc] at hih
      simp only [hpresent, openings, filterMap_cons_eq_append, List.filter_append]
      exact hih
    · have he : ∀ c, e ≠ .opened c := fun c hc => he ⟨c, hc⟩
      have hopenings : s.openings (e :: es) = (s.step e).2.openings es := by
        cases e <;> first | rfl | exact absurd rfl (he _)
      obtain ⟨hbegun, hanswered⟩ := log_elapse_step h he es
      rw [length_streams_step he] at hih
      simp only [hbegun, hanswered] at hih
      rw [hopenings]
      exact hih

/-- **The requests of a session.** However streams are opened, asked, waited for and given up, and
filters saved in between:

* the catalog sees one request for each stream whose term can be looked up and from whose opening
  the clock comes as far as the end of the quiet period, before another stream is opened and before
  the stream is given up; that is when the request is begun, for the name that was typed;
* it answers the requests for which the clock also comes as far as the end of its latency, unless
  it fails then;
* there is never more than one request under way;
* asking for or giving up a stream that is not the newest leaves all lookups as they are. -/
theorem requests_of_run (sources : Sources) (minLength debounce : Nat) (service : CatalogService)
    (es : List Event) :
    let s := start sources minLength debounce service
    let later := s.run es
    later.lookups.begun = (s.openings es).filterMap (Opening.request? minLength debounce) ∧
      later.lookups.answered = ((s.openings es).filterMap
        (Opening.request? minLength (debounce + service.latency))).filter service.answers ∧
      (∀ (i j : Nat) (l m : Lookup), later.lookups.all[i]? = some l →
        later.lookups.all[j]? = some m → l.IsOutstanding → m.IsOutstanding → i = j) ∧
      ∀ i, i + 1 < later.streams.length →
        (later.poll i).2.lookups = later.lookups ∧ (later.drop i).lookups = later.lookups := by
  intro s later
  have hstart : s.Settled := settled_start sources minLength debounce service
  have hlater : later.Settled := settled_run hstart es
  obtain ⟨hbegun, hanswered⟩ := log_run hstart es
  have hidle : s.lookups.Idle := fun _ hl => nomatch hl
  rw [hidle.elapse_eq] at hbegun hanswered
  refine ⟨hbegun, hanswered, fun i j l m hl hm hl' hm' => ?_, fun i hi => ?_⟩
  · exact Option.some.inj ((hlater.pending_eq hl hl').symm.trans (hlater.pending_eq hm hm'))
  · refine ⟨lookups_poll i later, ?_⟩
    rcases lookups_drop_cases hlater i with ⟨_, _, old, _, hsearching, rfl, -⟩ | ⟨hdrop, -⟩
    · rw [hsearching.length_streams] at hi
      exact absurd hi (Nat.lt_irrefl _)
    · exact hdrop

/-- A request is called off when another stream is opened, and not when the old one is given up. -/
theorem requests_of_run_superseded :
    let es : List Event :=
      [.opened ⟨.ofText "bolt", [], 5⟩, .waited 100, .opened ⟨.ofText "helix", [], 5⟩, .dropped 0,
        .waited 250, .polled 0, .waited 40]
    let service := CatalogService.ofCatalog ⟨["Lightning Helix"]⟩ 40 false
    let later := (start ⟨⟨none, []⟩, ⟨none, []⟩⟩ 2 250 service).run es
    later.lookups.begun = [⟨350, 2, "helix"⟩] ∧ later.lookups.answered = [⟨390, 2, "helix"⟩] := by
  intro es service later
  obtain ⟨hbegun, hanswered, -⟩ :=
    requests_of_run ⟨⟨none, []⟩, ⟨none, []⟩⟩ 2 250 service es
  exact ⟨hbegun.trans (by decide +kernel), hanswered.trans (by decide +kernel)⟩

end Session

end CardFilter
