import CardFilter.Catalog

/-!
# Lookups of card names

Card names come from a catalog service, which is asked only after a quiet period, so that not every
key stroke makes a request. A lookup runs under a ticket; a later ticket makes it stale. Time is a
number of milliseconds that only `CardFilter.Lookups.advance` moves.

A lookup has two sides: the request, which waits, asks and is answered or cancelled, and the caller,
who takes up the result with `CardFilter.Lookups.resume` or walks away with
`CardFilter.Lookups.drop`. One request is known as the pending one, and a new ticket cancels it. A
caller who takes up a result under the current ticket clears that mark, whoever set it.
-/

namespace CardFilter

/-- **A catalog as a service**: it answers a request after a time, or fails. What it answers can
change with the time. -/
structure CatalogService where
  /-- The names that are answered at a time to a fragment, unless the service fails. -/
  answer? : Nat → String → Option (List String)
  /-- How long an answer takes, in milliseconds. -/
  latency : Nat

/-- A catalog that does not change, as a service that may be offline. -/
def CatalogService.ofCatalog (catalog : Catalog) (latency : Nat) (offline : Bool) :
    CatalogService where
  answer? _ fragment := if offline then none else some (catalog.complete fragment)
  latency

/-- How far a lookup has come. -/
inductive LookupPhase
  /-- The quiet period lasts until the given time. -/
  | waiting (due : Nat)
  /-- The request is under way until the given time. -/
  | asking (due : Nat)
  /-- The request is over, with names unless it failed, and the caller has not taken it up. -/
  | answered (names : Option (List String))
  /-- The request was cancelled, and the caller has not taken it up. -/
  | cancelled
  /-- The caller has taken up the result: names, or nothing to deliver. -/
  | returned (names : Option (List String))
  /-- The caller has walked away. -/
  | dropped
  deriving DecidableEq, Repr

/-- A lookup. -/
structure Lookup where
  /-- The ticket it runs under. -/
  ticket : Nat
  /-- What is looked up. -/
  fragment : String
  /-- How far it has come. -/
  phase : LookupPhase
  deriving DecidableEq, Repr

/-- A request as the service sees it. -/
structure Request where
  /-- When. -/
  time : Nat
  /-- The ticket of the lookup. -/
  ticket : Nat
  /-- What is looked up. -/
  fragment : String
  deriving DecidableEq, Repr

/-- The service does not fail where the request is over. -/
def CatalogService.answers (s : CatalogService) (r : Request) : Bool :=
  (s.answer? r.time r.fragment).isSome

/-- **All lookups of a session**, with the clock. -/
structure Lookups where
  /-- The quiet period before a request, in milliseconds. -/
  debounce : Nat
  /-- The service that is asked. -/
  service : CatalogService
  /-- The time, in milliseconds. -/
  now : Nat
  /-- The newest ticket. -/
  ticket : Nat
  /-- The lookup whose request is known as the pending one. -/
  pending : Option Nat
  /-- The lookups, in the order in which they were begun; a lookup is known by its place. -/
  all : List Lookup
  /-- The requests that were begun, oldest first. -/
  begun : List Request
  /-- The requests that the catalog answered, oldest first. -/
  answered : List Request

namespace Lookup

/-- The lookup after its request is called off. A request that is over stays so. -/
def cancel (l : Lookup) : Lookup :=
  match l.phase with
  | .waiting _ | .asking _ => { l with phase := .cancelled }
  | _ => l

/-- The time at which the quiet period ends, while it lasts. -/
def askingTime? (l : Lookup) : Option Nat :=
  match l.phase with
  | .waiting due => some due
  | _ => none

/-- The time at which the request will be over, unless it is. -/
def answerTime? (latency : Nat) (l : Lookup) : Option Nat :=
  match l.phase with
  | .waiting due => some (due + latency)
  | .asking due => some due
  | _ => none

/-- The lookup at a later time. -/
def advance (service : CatalogService) (time : Nat) (l : Lookup) : Lookup :=
  match l.phase with
  | .waiting due =>
    if due + service.latency ≤ time then
      { l with phase := .answered (service.answer? (due + service.latency) l.fragment) }
    else if due ≤ time then { l with phase := .asking (due + service.latency) }
    else l
  | .asking due =>
    if due ≤ time then { l with phase := .answered (service.answer? due l.fragment) } else l
  | _ => l

/-- The request of the lookup at one of its times, if that has come. -/
def requestBy (time : Nat) (due? : Option Nat) (l : Lookup) : Option Request :=
  match due? with
  | some due => if due ≤ time then some ⟨due, l.ticket, l.fragment⟩ else none
  | none => none

/-- The lookup after its caller has looked for the result, `current` saying whether its ticket is
the newest. -/
def resume (current : Bool) (l : Lookup) : Lookup :=
  match l.phase with
  | .answered names =>
    { l with phase := .returned (if current then some (names.getD []) else none) }
  | .cancelled => { l with phase := .returned none }
  | _ => l

/-- There is a result that the caller has not taken up. -/
def isOver (l : Lookup) : Bool :=
  match l.phase with
  | .answered _ | .cancelled => true
  | _ => false

/-- The lookup after its caller has walked away. -/
def drop (l : Lookup) : Lookup :=
  match l.phase with
  | .returned _ => l
  | _ => { l with phase := .dropped }

end Lookup

namespace Lookups

/-- No lookup has been begun. -/
def start (debounce : Nat) (service : CatalogService) : Lookups :=
  { debounce, service, now := 0, ticket := 0, pending := none, all := [], begun := []
    answered := [] }

/-- Calls off the pending request. -/
def cancelPending (s : Lookups) : Lookups :=
  match s.pending with
  | some i => { s with all := s.all.modify i Lookup.cancel, pending := none }
  | none => s

/-- **A new ticket**: the pending request is called off. -/
def invalidate (s : Lookups) : Lookups :=
  { s.cancelPending with ticket := s.ticket + 1 }

/-- **Begins a lookup** under a ticket. Under a stale one it is over at once, with nothing to
deliver; else its request becomes the pending one.

The task of the request is started and the ticket is looked at in one step. Nothing is waited for
between the two, and the one thread that runs all tasks takes up another only where one waits. So no
event can come in between, and a task that is started under a stale ticket is called off before it
has run. -/
def begin (ticket : Nat) (fragment : String) (s : Lookups) : Lookups :=
  if ticket = s.ticket then
    { s.cancelPending with
      all := s.cancelPending.all ++ [⟨ticket, fragment, .waiting (s.now + s.debounce)⟩]
      pending := some s.all.length }
  else { s with all := s.all ++ [⟨ticket, fragment, .returned none⟩] }

/-- Requests in the order of their times. -/
def inOrder (requests : List Request) : List Request :=
  rankBy (fun r => [r.time]) requests

/-- **Lets the clock run** to a time, unless it is past it. -/
def advance (time : Nat) (s : Lookups) : Lookups :=
  let time := max s.now time
  let begun := s.all.filterMap fun l => l.requestBy time l.askingTime?
  let answered := s.all.filterMap fun l => l.requestBy time (l.answerTime? s.service.latency)
  { s with
    now := time
    all := s.all.map (Lookup.advance s.service time)
    begun := s.begun ++ inOrder begun
    answered := s.answered ++ (inOrder answered).filter s.service.answers }

/-- **The caller of a lookup looks for the result.** Under the newest ticket no request is known as
pending after that. -/
def resume (i : Nat) (s : Lookups) : Lookups :=
  match s.all[i]? with
  | some l =>
    { s with
      all := s.all.modify i (Lookup.resume (l.ticket == s.ticket))
      pending := if l.isOver && l.ticket == s.ticket then none else s.pending }
  | none => s

/-- **The caller of a lookup walks away**, which calls off its request. -/
def drop (i : Nat) (s : Lookups) : Lookups :=
  { s with all := s.all.modify i Lookup.drop }

/-- Lets everything happen that needs no time. -/
def settle (s : Lookups) : Lookups :=
  (List.range s.all.length).foldl (fun s i => s.resume i) (s.advance s.now)

/-- Lets the clock run until the request of a lookup is over, and its caller take up the result. -/
def await (i : Nat) (s : Lookups) : Lookups :=
  match s.all[i]?.bind (Lookup.answerTime? s.service.latency) with
  | some time => (s.advance time).settle
  | none => s.settle

/-- The names that a lookup has delivered, if it has. -/
def delivered? (i : Nat) (s : Lookups) : Option (List String) :=
  match s.all[i]? with
  | some ⟨_, _, .returned names⟩ => names
  | _ => none

/-- The lookup may still deliver. -/
def isOpen (i : Nat) (s : Lookups) : Bool :=
  match s.all[i]? with
  | some l => match l.phase with
    | .returned _ | .dropped => false
    | _ => true
  | none => false

end Lookups

end CardFilter
