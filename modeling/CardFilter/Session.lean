import CardFilter.Lookup
import CardFilter.Suggestion.Merged

/-!
# Sessions of a search box

While a text is typed, a stream of suggestions is opened for every state of it. A stream gives what
is known at once, and, where the term is a name to look up, a second list with card names once the
catalog has answered. A new stream makes the lookups of all earlier ones stale.

A session is a value, and `CardFilter.Session.step` says what each event does to it and what it
answers. Time passes only where an event lets it.
-/

namespace CardFilter

/-- The term being typed in a text: the one at the cursor, or where there is no cursor the whole
text without the blanks around it. -/
def termTyped (text : String) (cursor : Option Nat) : Draft.Term :=
  match cursor with
  | some position => .atCursor text position
  | none => .ofText (trim text)

/-- What a stream is opened for. -/
structure Completion where
  /-- The term being typed. -/
  term : Draft.Term
  /-- The filters that are not to be offered. -/
  excluding : List Filter
  /-- How many suggestions each source may give. -/
  limit : Nat
  deriving Repr

/-- A stream of suggestion lists. -/
structure Stream where
  /-- What it was opened for. -/
  completion : Completion
  /-- The list that was known when it was opened. -/
  first : List Suggestion
  /-- That list has been taken. -/
  firstTaken : Bool
  /-- The lookup that a second list waits for, until that list has been taken. -/
  lookup : Option Nat
  /-- The stream has been given up. -/
  dropped : Bool
  deriving Repr

/-- **A session.** -/
structure Session where
  /-- The saved filters. -/
  sources : Sources
  /-- The least length of a name that is looked up. -/
  minLength : Nat
  /-- The lookups, with the clock. -/
  lookups : Lookups
  /-- The streams, in the order in which they were opened; a stream is known by its place. -/
  streams : List Stream

/-- What a stream has to give. -/
inductive Poll
  /-- The next list. -/
  | ready (suggestions : List Suggestion)
  /-- The next list is not known yet. -/
  | pending
  /-- There are no more lists. -/
  | ended
  deriving Repr

namespace Session

/-- No stream has been opened. -/
def start (sources : Sources) (minLength debounce : Nat) (service : CatalogService) : Session :=
  { sources, minLength, lookups := .start debounce service, streams := [] }

/-- The list of suggestions that needs no lookup. -/
def immediate (s : Session) (c : Completion) : List Suggestion :=
  s.sources.immediate c.term c.excluding c.limit

/-- **Opens a stream.** The lookups of the streams before it become stale, also where the new one
looks nothing up. -/
def openStream (c : Completion) (s : Session) : Session :=
  let lookups := s.lookups.invalidate
  let first := s.immediate c
  if isLookedUp s.minLength c.term then
    { s with
      lookups := (lookups.begin lookups.ticket (nameFragment c.term)).settle
      streams := s.streams ++ [⟨c, first, false, some lookups.all.length, false⟩] }
  else
    { s with
      lookups := lookups.settle
      streams := s.streams ++ [⟨c, first, false, none, false⟩] }

/-- What the stream at a place has to give now. -/
def peek (i : Nat) (s : Session) : Poll :=
  match s.streams[i]? with
  | none => .ended
  | some stream =>
    if stream.dropped then .ended
    else if !stream.firstTaken then .ready stream.first
    else match stream.lookup with
      | none => .ended
      | some l =>
        match s.lookups.delivered? l with
        | some names => .ready (withNames stream.first stream.completion.term names
            stream.completion.excluding stream.completion.limit)
        | none => if s.lookups.isOpen l then .pending else .ended

/-- The stream after a list has been taken. -/
def take (stream : Stream) : Stream :=
  if stream.firstTaken then { stream with lookup := none } else { stream with firstTaken := true }

/-- **Takes what a stream has to give now.** -/
def poll (i : Nat) (s : Session) : Poll × Session :=
  match s.peek i with
  | .ready suggestions => (.ready suggestions, { s with streams := s.streams.modify i take })
  | other => (other, s)

/-- Lets the clock run until the stream has something to give, or nothing any more. -/
def await (i : Nat) (s : Session) : Session :=
  match s.peek i, s.streams[i]?.bind (·.lookup) with
  | .pending, some l => { s with lookups := s.lookups.await l }
  | _, _ => s

/-- **Waits for the next list of a stream.** -/
def next (i : Nat) (s : Session) : Poll × Session :=
  (s.await i).poll i

/-- **Gives a stream up**, and its lookup with it. -/
def drop (i : Nat) (s : Session) : Session :=
  { s with
    streams := s.streams.modify i fun stream => { stream with dropped := true }
    lookups := match s.streams[i]?.bind (·.lookup) with
      | some l => (s.lookups.drop l).settle
      | none => s.lookups.settle }

/-- **Lets time pass**, in milliseconds. -/
def wait (time : Nat) (s : Session) : Session :=
  { s with lookups := (s.lookups.advance (s.lookups.now + time)).settle }

/-- The session after a change to one of the lists of saved filters. -/
def updateStore (l : SavedList) (f : Store → Store) (s : Session) : Session :=
  match l with
  | .pinned => { s with sources := { s.sources with pinned := f s.sources.pinned } }
  | .history => { s with sources := { s.sources with history := f s.sources.history } }

/-- What can happen in a session. -/
inductive Event
  /-- A stream is opened. -/
  | opened (completion : Completion)
  /-- A stream is asked for what it has now. -/
  | polled (stream : Nat)
  /-- The next list of a stream is waited for. -/
  | awaited (stream : Nat)
  /-- A stream is given up. -/
  | dropped (stream : Nat)
  /-- Time passes, in milliseconds. -/
  | waited (time : Nat)
  /-- A filter is put in front of a list. -/
  | recorded (list : SavedList) (filter : Filter)
  /-- A filter is taken out of a list. -/
  | removed (list : SavedList) (filter : Filter)
  deriving Repr

/-- **What an event does**, and what a stream that was asked gives. -/
def step (s : Session) : Event → Option Poll × Session
  | .opened c => (none, s.openStream c)
  | .polled i => let (p, s) := s.poll i; (some p, s)
  | .awaited i => let (p, s) := s.next i; (some p, s)
  | .dropped i => (none, s.drop i)
  | .waited time => (none, s.wait time)
  | .recorded l f => (none, s.updateStore l (Store.record f))
  | .removed l f => (none, s.updateStore l (Store.remove f))

end Session

end CardFilter
