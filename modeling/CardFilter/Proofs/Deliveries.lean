import CardFilter.Proofs.Requests

/-!
# What a stream delivers

Whatever happens in a session, a stream delivers at most two lists: what was known when it was
opened, and that list with the names of the catalog behind it. What comes between can only keep the
second one from being delivered (`CardFilter.Session.deliveries_of_stream`).

The proof follows the lists that a stream could hand out at once
(`CardFilter.Session.available`). What it has handed out together with those is always the same:
the lists that it could hand out after the time that is left to it, if nobody asked before
(`CardFilter.Session.deliveries_append_available`).
-/

namespace CardFilter

/-! ### Merging -/

/-- **The list with card names** is the list without them, followed by the names whose text it
does not offer. -/
theorem withNames_immediate (s : Sources) (t : Draft.Term) (names : List String)
    (excluding : List Filter) (limit : Nat) :
    let first := s.immediate t excluding limit
    withNames first t names excluding limit =
      first ++ (merge (nameSuggestions t names excluding limit)).filter
        fun r => r.render ∉ first.map Suggestion.render := by
  intro first
  have hfirst : merge first = first := distinctBy_distinctBy Suggestion.render _
  rw [withNames, merge, distinctBy_append]
  exact congrArg (· ++ _) hfirst

/-! ### What a stream could hand out -/

namespace Stream

variable {lookups : Lookups} {stream : Stream}

/-- The list with card names, once the lookup has delivered them. -/
def second? (lookups : Lookups) (stream : Stream) : Option (List Suggestion) :=
  (stream.lookup.bind fun l => lookups.delivered? l).map fun names =>
    withNames stream.first stream.completion.term names stream.completion.excluding
      stream.completion.limit

/-- **The lists that a stream could hand out** at once, one after the other. -/
def available (lookups : Lookups) (stream : Stream) : List (List Suggestion) :=
  if stream.dropped then []
  else (if stream.firstTaken then [] else [stream.first]) ++ (stream.second? lookups).toList

theorem available_take (lookups : Lookups) (stream : Stream) :
    (Session.take stream).available lookups = (stream.available lookups).tail := by
  obtain ⟨completion, first, firstTaken, lookup, dropped⟩ := stream
  cases dropped
  · cases firstTaken
    · rfl
    · change [] = (second? lookups ⟨completion, first, true, lookup, false⟩).toList.tail
      cases second? lookups ⟨completion, first, true, lookup, false⟩ <;> rfl
  · cases firstTaken <;> rfl

theorem available_of_dropped (h : stream.dropped = true) : stream.available lookups = [] :=
  if_pos h

/-- What a stream could hand out depends on its own lookup only. -/
theorem available_congr {later : Lookups}
    (h : ∀ l ∈ stream.lookup, later.delivered? l = lookups.delivered? l) :
    stream.available later = stream.available lookups := by
  have hsecond : stream.second? later = stream.second? lookups := by
    unfold second?
    cases hlookup : stream.lookup with
    | none => rfl
    | some l => simp only [Option.bind_some, h l hlookup]
  rw [available, available, hsecond]

end Stream

namespace Lookups

variable {s : Lookups}

/-- What a closed lookup has delivered is known. -/
theorem delivered?_run_of_isClosed {place : Nat} {l : Lookup} (h : s.all[place]? = some l)
    (hl : l.IsClosed) (minLength : Nat) (es : List Event) :
    (s.run minLength es).delivered? place = s.delivered? place := by
  rw [delivered?, delivered?, getElem?_run_of_isClosed minLength es h hl, h]

theorem delivered?_run_of_eq_some {place : Nat} {names : List String}
    (h : s.delivered? place = some names) (minLength : Nat) (es : List Event) :
    (s.run minLength es).delivered? place = some names := by
  obtain ⟨l, hl, hphase⟩ := exists_phase_of_delivered? h
  rw [delivered?_run_of_isClosed hl (Lookup.isClosed_of_returned hphase), h]

theorem exists_run_elapse (minLength time : Nat) (s : Lookups) :
    ∃ es, s.elapse time = s.run minLength es := by
  obtain ⟨es, hes⟩ := exists_run_settle minLength (s.advance time)
  exact ⟨.advanced time :: es, hes⟩

end Lookups

/-- Later a stream could hand out at least the same lists. -/
theorem Stream.available_prefix_available_run (stream : Stream) (lookups : Lookups)
    (minLength : Nat) (es : List Lookups.Event) :
    stream.available lookups <+: stream.available (lookups.run minLength es) := by
  cases hsecond : stream.second? lookups with
  | none =>
    unfold available
    split
    · exact List.prefix_refl _
    · rw [hsecond]
      exact (List.prefix_append_right_inj _).mpr List.nil_prefix
  | some list =>
    -- the lookup has delivered, and goes on doing so
    unfold second? at hsecond
    obtain ⟨names, hnames, rfl⟩ := Option.map_eq_some_iff.mp hsecond
    obtain ⟨l, hl, hdelivered⟩ := Option.bind_eq_some_iff.mp hnames
    have hlater : stream.available (lookups.run minLength es) = stream.available lookups := by
      refine available_congr fun i hi => ?_
      obtain rfl := Option.some.inj (hl.symm.trans hi)
      rw [hdelivered, Lookups.delivered?_run_of_eq_some hdelivered]
    exact hlater ▸ List.prefix_refl _

/-- The list that is given, if one is. -/
def Poll.lists : Poll → List (List Suggestion)
  | .ready list => [list]
  | _ => []

namespace Session

variable {s : Session} {place : Nat}

/-- **The lists that the stream at a place could hand out** at once, one after the other. -/
def available (place : Nat) (s : Session) : List (List Suggestion) :=
  (s.streams[place]?.map (Stream.available s.lookups)).getD []

/-- The event asks the stream at a place. -/
def Event.asks (place : Nat) : Event → Bool
  | .polled i | .awaited i => i == place
  | _ => false

/-- The lists that an event hands out from the stream at a place. -/
def handedOut (place : Nat) (s : Session) (e : Event) : List (List Suggestion) :=
  if e.asks place then ((s.step e).1.map Poll.lists).getD [] else []

/-- **The lists that the stream at a place delivers** in a run. -/
def deliveries (place : Nat) (s : Session) : List Event → List (List Suggestion)
  | [] => []
  | e :: es => s.handedOut place e ++ (s.step e).2.deliveries place es

/-- **A stream that is asked** hands out the first list that it could hand out. -/
theorem lists_peek (place : Nat) (s : Session) :
    (s.peek place).lists = (s.available place).head?.toList := by
  unfold peek available
  cases s.streams[place]? with
  | none => rfl
  | some stream =>
    obtain ⟨completion, first, firstTaken, lookup, dropped⟩ := stream
    cases dropped
    · cases firstTaken
      · rfl
      · cases lookup with
        | none => rfl
        | some l =>
          cases hnames : s.lookups.delivered? l with
          | none =>
            have hlast : (if s.lookups.isOpen l then Poll.pending else .ended).lists = [] := by
              split <;> rfl
            simpa [Stream.available, Stream.second?, hnames] using hlast
          | some names => simp [Stream.available, Stream.second?, hnames, Poll.lists]
    · rfl

theorem peek_eq_ready_iff {list : List Suggestion} :
    s.peek place = .ready list ↔ (s.available place).head? = some list := by
  have hlists := lists_peek place s
  cases hpeek : s.peek place with
  | ready other =>
    rw [hpeek] at hlists
    cases hhead : (s.available place).head? with
    | none => simp [hhead, Poll.lists] at hlists
    | some first =>
      obtain rfl : other = first := by simpa [hhead, Poll.lists] using hlists
      simp
  | pending | ended =>
    rw [hpeek] at hlists
    cases hhead : (s.available place).head? with
    | none => simp
    | some first => simp [hhead, Poll.lists] at hlists

theorem fst_poll (i : Nat) (s : Session) : (s.poll i).1 = s.peek i := by
  unfold poll
  split
  · rename_i list hlist
    exact hlist.symm
  · rfl

/-! ### One event -/

theorem handedOut_polled (i : Nat) (s : Session) :
    s.handedOut place (.polled i) =
      if i = place then (s.available place).head?.toList else [] := by
  have hlists : ((s.step (.polled i)).1.map Poll.lists).getD [] =
      (s.available i).head?.toList := (congrArg Poll.lists (fst_poll i s)).trans (lists_peek i s)
  rw [handedOut, hlists]
  by_cases hi : i = place
  · rw [if_pos hi, hi, Event.asks, beq_self_eq_true, if_pos rfl]
  · rw [if_neg hi, Event.asks, beq_eq_false_iff_ne.mpr hi]
    rfl

/-- A stream that has nothing to hand out stays as it is when it is asked. -/
theorem snd_poll (i : Nat) (s : Session) :
    (s.poll i).2 =
      if (s.available i).isEmpty then s else { s with streams := s.streams.modify i take } := by
  unfold poll
  split
  · rename_i list hlist
    have hhead := peek_eq_ready_iff.mp hlist
    cases havailable : s.available i with
    | nil => simp [havailable] at hhead
    | cons => rfl
  · rename_i hnot
    cases havailable : s.available i with
    | nil => rfl
    | cons list rest =>
      have hhead : (s.available i).head? = some list := by rw [havailable, List.head?_cons]
      exact absurd (peek_eq_ready_iff.mpr hhead) (hnot list)

theorem available_of_getElem? {stream : Stream} (h : s.streams[place]? = some stream) :
    s.available place = stream.available s.lookups := by
  rw [available, h]
  rfl

theorem available_congr {s' : Session} (hstream : s'.streams[place]? = s.streams[place]?)
    (hlookups : s'.lookups = s.lookups) : s'.available place = s.available place := by
  rw [available, available, hstream, hlookups]

/-- What can be handed out does not become less with time. -/
theorem available_prefix_available_elapse (place time : Nat) (s : Session) :
    s.available place <+: (s.elapse time).available place := by
  obtain ⟨es, hes⟩ := Lookups.exists_run_elapse s.minLength time s.lookups
  unfold available elapse
  rw [hes]
  cases s.streams[place]? with
  | none => exact List.prefix_refl _
  | some stream => exact stream.available_prefix_available_run s.lookups s.minLength es

/-- **What is handed out** is what could have been, at that time and later. -/
theorem handedOut_polled_append_available (i time : Nat) (s : Session) :
    s.handedOut place (.polled i) ++ ((s.poll i).2.elapse time).available place =
      (s.elapse time).available place := by
  rw [handedOut_polled, snd_poll]
  by_cases hi : i = place
  · subst hi
    have hprefix := available_prefix_available_elapse i time s
    cases hstream : s.streams[i]? with
    | none =>
      have hnone : s.available i = [] := by rw [available, hstream]; rfl
      simp [hnone]
    | some stream =>
      have htaken : (({ s with streams := s.streams.modify i take } : Session).elapse
          time).streams[i]? = some (take stream) := by simp [elapse, hstream]
      have hlater : (s.elapse time).available i = stream.available (s.lookups.elapse time) :=
        available_of_getElem? hstream
      cases havailable : s.available i with
      | nil => simp
      | cons list rest =>
        rw [havailable, hlater] at hprefix
        obtain ⟨more, hmore⟩ := hprefix
        have htail := Stream.available_take (s.lookups.elapse time) stream
        rw [← hmore] at htail
        have hafter : (({ s with streams := s.streams.modify i take } : Session).elapse
            time).available i = rest ++ more := (available_of_getElem? htaken).trans htail
        simp [hafter, hlater, ← hmore]
  · have hother : (s.streams.modify i take)[place]? = s.streams[place]? := by
      simp [hi]
    rw [if_neg hi, List.nil_append]
    split
    · rfl
    · exact available_congr hother rfl

/-- The names of a lookup that is called off when a stream is opened never come. -/
theorem delivered?_openStream {older : List Lookup} {l : Lookup} {old : List Stream}
    {newest : Stream} (h : s.Settled) (hs : s.Searching older l old newest) (c : Completion)
    {time : Nat} (htime : s.lookups.now ≤ time) :
    ((s.openStream c).lookups.elapse time).delivered? older.length = none := by
  have hinvalidate : s.lookups.invalidate.all = older ++ [l.cancel] := by
    rw [Lookups.invalidate, hs.looking.cancelPending_eq]
  have hreturned : (l.cancel.resume false).phase = .returned none := by
    obtain ⟨due, hdue | hdue⟩ := hs.looking.isOutstanding <;>
      simp only [Lookup.cancel, hdue, Lookup.resume]
  have hall : ((s.openStream c).lookups.elapse time).all[older.length]? =
      some (l.cancel.resume false) := by
    rw [elapse_openStream h c htime]
    cases hc : isLookedUp s.minLength c.term
    · rw [(idle_lookupsOpened h hc).elapse_eq, lookupsOpened_of_not_isLookedUp hc]
      simp [hinvalidate]
    · rw [(looking_lookupsOpened h hc).elapse_eq]
      simp [hinvalidate]
  rw [Lookups.delivered?_eq hall, hreturned]

/-- A stream that does not wait for the lookup under way can hand out what it could before,
whatever follows. -/
theorem available_eq_of_run (h : s.Settled) {s' : Session} {stream : Stream}
    (hstream : s.streams[place]? = some stream) (hkept : s'.streams[place]? = some stream)
    (hother : ∀ older l old newest, s.Searching older l old newest →
      stream.lookup ≠ some older.length)
    (hrun : ∃ es, s'.lookups = s.lookups.run s.minLength es) :
    s'.available place = s.available place := by
  obtain ⟨es, hes⟩ := hrun
  rw [available_of_getElem? hstream, available_of_getElem? hkept, hes]
  refine Stream.available_congr fun i hi => ?_
  have hlt : i < s.lookups.all.length :=
    h.lookup_lt stream (List.mem_of_getElem? hstream) i hi
  rcases h.isClosed_or_searching (List.getElem?_eq_getElem hlt) with hclosed | hsearching
  · exact Lookups.delivered?_run_of_isClosed (List.getElem?_eq_getElem hlt) hclosed _ _
  · obtain ⟨older, old, newest, hsearching, rfl⟩ := hsearching
    exact absurd hi (hother _ _ _ _ hsearching)

theorem exists_run_elapse_step (e : Event) (time : Nat) (s : Session) :
    ∃ es, ((s.step e).2.elapse time).lookups = s.lookups.run s.minLength es := by
  obtain ⟨es, hes⟩ := exists_run_step e s
  obtain ⟨fs, hfs⟩ := Lookups.exists_run_elapse s.minLength time (s.step e).2.lookups
  refine ⟨es ++ fs, ?_⟩
  rw [Lookups.run_append, ← hes, ← hfs]
  rfl

/-- **A stream that is opened** ends what could come for the others. -/
theorem available_openStream (h : s.Settled) (hplace : place < s.streams.length) (c : Completion)
    {time : Nat} (htime : s.lookups.now ≤ time) :
    ((s.openStream c).elapse time).available place = s.available place := by
  have hstream := List.getElem?_eq_getElem hplace
  generalize s.streams[place] = stream at hstream
  have hkept : ((s.openStream c).elapse time).streams[place]? = some stream := by
    rw [elapse, streams_openStream, List.getElem?_append_left hplace, hstream]
  by_cases hwaits : ∃ older l old newest, s.Searching older l old newest ∧
      stream.lookup = some older.length
  · obtain ⟨older, l, old, newest, hsearching, hlookup⟩ := hwaits
    rw [available_of_getElem? hstream, available_of_getElem? hkept]
    refine Stream.available_congr fun i hi => ?_
    obtain rfl := Option.some.inj (hlookup.symm.trans hi)
    rw [hsearching.delivered?_eq_none]
    exact delivered?_openStream h hsearching c htime
  · refine available_eq_of_run h hstream hkept ?_ (exists_run_elapse_step (.opened c) time s)
    exact fun older l old newest hsearching hlookup =>
      hwaits ⟨older, l, old, newest, hsearching, hlookup⟩

/-- A stream that is given up takes nothing from another one. -/
theorem available_drop (h : s.Settled) (hplace : place < s.streams.length) {i : Nat}
    (hi : i ≠ place) (time : Nat) :
    ((s.drop i).elapse time).available place = (s.elapse time).available place := by
  have hstream := List.getElem?_eq_getElem hplace
  generalize s.streams[place] = stream at hstream
  have hkept : ((s.drop i).elapse time).streams[place]? = some stream := by
    simp [elapse, drop, hi, hstream]
  rcases lookups_drop_cases h i with ⟨older, l, old, newest, hsearching, rfl, -⟩ | ⟨hdrop, -⟩
  · -- only the stream that is given up waits for the lookup under way
    have hother : ∀ older l old newest, s.Searching older l old newest →
        stream.lookup ≠ some older.length := by
      intro _ _ old' _ hsearching' hlookup
      have hlast : place = old'.length :=
        hsearching'.eq_length_of_lookup (by simpa [hstream] using hlookup)
      have hlength := hsearching.length_streams.symm.trans hsearching'.length_streams
      omega
    have hdrop := available_eq_of_run h hstream hkept hother
      (exists_run_elapse_step (.dropped old.length) time s)
    have helapse := @available_eq_of_run s place h (s.elapse time) stream hstream hstream hother
      (Lookups.exists_run_elapse s.minLength time s.lookups)
    rw [hdrop, helapse]
  · refine available_congr (hkept.trans hstream.symm) ?_
    rw [elapse, elapse, hdrop]

theorem elapse_elapse (h : s.Settled) {time later : Nat} (hle : time ≤ later) :
    (s.elapse time).elapse later = s.elapse later :=
  congrArg (fun lookups => { s with lookups }) (h.elapse_elapse hle)

/-- **An event leaves the same to be delivered**: what it hands out, and what can be handed out
after it once the time that is left has passed, is what could be handed out before it. -/
theorem handedOut_append_available (h : s.Settled) (hplace : place < s.streams.length) {e : Event}
    (he : e ≠ .dropped place) (es : List Event) :
    s.handedOut place e ++ ((s.step e).2.elapse ((s.step e).2.reach place es)).available place =
      (s.elapse (s.reach place (e :: es))).available place := by
  rw [reach_cons]
  cases e with
  | polled i => exact handedOut_polled_append_available i _ s
  | awaited i =>
    obtain ⟨time, htime⟩ := exists_await_eq h i
    have hlookups : (s.step (.awaited i)).2.lookups = s.lookups.elapse time :=
      (lookups_poll i _).trans (congrArg Session.lookups htime)
    have hawait : (s.await i).elapse ((s.step (.awaited i)).2.reach place es) =
        s.elapse ((s.step (.awaited i)).2.reach place es) := by
      rw [htime, elapse_elapse h (le_reach_of_elapse hlookups place es)]
    have hpoll := @handedOut_polled_append_available place i
      ((s.step (.awaited i)).2.reach place es) (s.await i)
    rw [hawait] at hpoll
    exact hpoll
  | waited time =>
    have hle := @le_reach_of_elapse s (s.elapse (s.lookups.now + time)) _ rfl place es
    exact congrArg (available place) (elapse_elapse h hle)
  | recorded l f => exact available_congr (by cases l <;> rfl) (by cases l <;> rfl)
  | removed l f => exact available_congr (by cases l <;> rfl) (by cases l <;> rfl)
  | opened c =>
    have hle : s.lookups.now ≤ (s.openStream c).reach place es :=
      Nat.le_trans (later_run [.opened c] s).now_le (le_reach place _ es)
    have hnow : s.elapse s.lookups.now = s := by rw [elapse, h.atRest.elapse_now]
    exact (available_openStream h hplace c hle).trans (congrArg (available place) hnow.symm)
  | dropped i =>
    have hi : i ≠ place := fun hi => he (congrArg Event.dropped hi)
    rw [Event.callsOff, beq_eq_false_iff_ne.mpr hi]
    exact available_drop h hplace hi _

/-! ### Streams that were given up -/

/-- The stream at a place has been given up. -/
def IsDropped (place : Nat) (s : Session) : Prop :=
  ∃ stream, s.streams[place]? = some stream ∧ stream.dropped = true

theorem IsDropped.available_eq_nil (h : s.IsDropped place) : s.available place = [] := by
  obtain ⟨stream, hstream, hdropped⟩ := h
  rw [available_of_getElem? hstream, Stream.available_of_dropped hdropped]

theorem IsDropped.modify (h : s.IsDropped place) {s' : Session} {f : Stream → Stream} {i : Nat}
    (hf : ∀ stream, stream.dropped = true → (f stream).dropped = true)
    (hs' : s'.streams = s.streams.modify i f) : s'.IsDropped place := by
  obtain ⟨stream, hstream, hdropped⟩ := h
  refine ⟨if i = place then f stream else stream, ?_, ?_⟩
  · rw [hs', List.getElem?_modify, hstream]
    split <;> rfl
  · split
    · exact hf stream hdropped
    · exact hdropped

theorem isDropped_poll (h : s.IsDropped place) (i : Nat) : (s.poll i).2.IsDropped place := by
  rw [snd_poll]
  split
  · exact h
  · refine h.modify (fun stream hdropped => ?_) rfl
    unfold take
    split <;> exact hdropped

theorem isDropped_await (h : s.IsDropped place) (i : Nat) : (s.await i).IsDropped place := by
  unfold await
  split <;> exact h

theorem isDropped_step (h : s.IsDropped place) (e : Event) : (s.step e).2.IsDropped place := by
  cases e with
  | opened c =>
    obtain ⟨stream, hstream, hdropped⟩ := h
    have hlt : place < s.streams.length := (List.getElem?_eq_some_iff.mp hstream).1
    refine ⟨stream, ?_, hdropped⟩
    change (s.openStream c).streams[place]? = some stream
    rw [streams_openStream, List.getElem?_append_left hlt, hstream]
  | polled i => exact isDropped_poll h i
  | awaited i => exact isDropped_poll (isDropped_await h i) i
  | dropped i => exact h.modify (fun _ _ => rfl) rfl
  | waited time => exact h
  | recorded l f => cases l <;> exact h
  | removed l f => cases l <;> exact h

theorem isDropped_drop (h : place < s.streams.length) : (s.drop place).IsDropped place :=
  ⟨{ s.streams[place] with dropped := true }, by simp [drop, h], rfl⟩

/-- **A stream that was given up** delivers nothing. -/
theorem deliveries_of_isDropped (h : s.IsDropped place) (es : List Event) :
    s.deliveries place es = [] := by
  induction es generalizing s with
  | nil => rfl
  | cons e es ih =>
    have hpolled : ∀ {s : Session}, s.IsDropped place →
        ∀ i, s.handedOut place (.polled i) = [] := by
      intro s h i
      rw [handedOut_polled, h.available_eq_nil]
      split <;> rfl
    have hnone : s.handedOut place e = [] := by
      cases e with
      | polled i => exact hpolled h i
      | awaited i => exact hpolled (isDropped_await h i) i
      | opened | dropped | waited | recorded | removed => rfl
    rw [deliveries, hnone, ih (isDropped_step h e)]
    rfl

/-! ### All events -/

theorem lt_length_streams_step (h : place < s.streams.length) (e : Event) :
    place < (s.step e).2.streams.length := by
  by_cases he : ∃ c, e = .opened c
  · obtain ⟨c, rfl⟩ := he
    have hstreams : (s.step (.opened c)).2.streams = (s.openStream c).streams := rfl
    rw [hstreams, streams_openStream, List.length_append]
    exact Nat.lt_add_right _ h
  · rw [length_streams_step fun c hc => he ⟨c, hc⟩]
    exact h

/-- **What a stream delivers** is what it could hand out after the time that is left to it, from
the front. -/
theorem deliveries_prefix_available (h : s.Settled) (hplace : place < s.streams.length)
    (es : List Event) :
    s.deliveries place es <+: (s.elapse (s.reach place es)).available place := by
  induction es generalizing s with
  | nil => exact List.nil_prefix
  | cons e es ih =>
    by_cases he : e = .dropped place
    · subst he
      have hnone : s.deliveries place (.dropped place :: es) = [] :=
        deliveries_of_isDropped (isDropped_drop hplace) es
      rw [hnone]
      exact List.nil_prefix
    · rw [deliveries, ← handedOut_append_available h hplace he es]
      exact (List.prefix_append_right_inj _).mpr
        (ih (settled_step h e) (lt_length_streams_step hplace e))

/-- The lookup of a stream that has just been opened delivers what the service answers, once it
does. -/
theorem delivered?_opened (h : s.Settled) {c : Completion}
    (hc : isLookedUp s.minLength c.term = true) {time : Nat} (htime : s.lookups.now ≤ time) :
    ((s.openStream c).lookups.elapse time).delivered? s.lookups.invalidate.all.length =
      if s.lookups.now + s.lookups.debounce + s.lookups.service.latency ≤ time then
        some ((s.lookups.service.answer?
          (s.lookups.now + s.lookups.debounce + s.lookups.service.latency)
          (nameFragment c.term)).getD [])
      else none := by
  obtain ⟨hnow, hservice, -, -⟩ := lookupsOpened_kept h c
  have hall : ((s.openStream c).lookups.elapse time).all[s.lookups.invalidate.all.length]? =
      some ((s.lookupOpened c).elapse s.lookups.service time) := by
    rw [elapse_openStream h c htime, (looking_lookupsOpened h hc).elapse_eq, hnow, hservice,
      Nat.max_eq_right htime]
    simp
  have hphase := Lookup.phase_elapse_of_waiting (l := s.lookupOpened c) rfl s.lookups.service time
  rw [Lookups.delivered?_eq hall, hphase]
  by_cases hanswered : s.lookups.now + s.lookups.debounce + s.lookups.service.latency ≤ time
  · rw [if_pos hanswered, if_pos hanswered]
    rfl
  · rw [if_neg hanswered, if_neg hanswered]
    by_cases hasked : s.lookups.now + s.lookups.debounce ≤ time
    · rw [if_pos hasked]
    · rw [if_neg hasked]

/-- **What a stream can hand out** when nothing has been asked of it: what was known when it was
opened, and the list with card names once the request has been answered. -/
theorem available_opened (h : s.Settled) (c : Completion) {time : Nat}
    (htime : s.lookups.now ≤ time) :
    ((s.openStream c).elapse time).available s.streams.length =
      s.immediate c ::
        if isLookedUp s.minLength c.term ∧
            s.lookups.now + s.lookups.debounce + s.lookups.service.latency ≤ time then
          [withNames (s.immediate c) c.term ((s.lookups.service.answer?
            (s.lookups.now + s.lookups.debounce + s.lookups.service.latency)
            (nameFragment c.term)).getD []) c.excluding c.limit]
        else [] := by
  have hstream : ((s.openStream c).elapse time).streams[s.streams.length]? =
      some ⟨c, s.immediate c, false,
        if isLookedUp s.minLength c.term then some s.lookups.invalidate.all.length else none,
        false⟩ := by
    rw [elapse, streams_openStream, List.getElem?_concat_length]
  rw [available_of_getElem? hstream]
  cases hc : isLookedUp s.minLength c.term
  · simp [Stream.available, Stream.second?]
  · have hdelivered := delivered?_opened h hc htime
    have hsecond : ∀ lookups : Lookups, Stream.available lookups
        ⟨c, s.immediate c, false, some s.lookups.invalidate.all.length, false⟩ =
        s.immediate c :: ((lookups.delivered? s.lookups.invalidate.all.length).map fun names =>
          withNames (s.immediate c) c.term names c.excluding c.limit).toList := fun _ => rfl
    simp only [elapse, if_true, hsecond, hdelivered]
    by_cases hanswered : s.lookups.now + s.lookups.debounce + s.lookups.service.latency ≤ time
    · simp [hanswered]
    · simp [hanswered]

end Session

end CardFilter
