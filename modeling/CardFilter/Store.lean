import CardFilter.Filter
import CardFilter.Ranking

/-!
# Stores of saved filters

A store lists saved filters, the most recent first and none of them twice. It may be bounded, and
then the oldest entries fall off.
-/

namespace CardFilter

/-- A list of saved filters, the most recent first. -/
structure Store where
  /-- The greatest number of entries, if there is a bound. -/
  capacity : Option Nat
  /-- The entries. -/
  entries : List Filter
  deriving DecidableEq, Repr

namespace Store

/-- The entries that the bound leaves. -/
def bounded (capacity : Option Nat) (entries : List Filter) : List Filter :=
  match capacity with
  | some n => entries.take n
  | none => entries

/-- **The store of a list of filters**, the most recent first; a later repeat is dropped. -/
def ofList (capacity : Option Nat) (entries : List Filter) : Store :=
  ⟨capacity, bounded capacity (distinct entries)⟩

/-- **Puts a filter in front**, from wherever it was. -/
def record (f : Filter) (s : Store) : Store :=
  ⟨s.capacity, bounded s.capacity (f :: s.entries.filter (· ≠ f))⟩

/-- The store without the filter. -/
def remove (f : Filter) (s : Store) : Store :=
  ⟨s.capacity, s.entries.filter (· ≠ f)⟩

/-- The filter is saved. -/
def contains (f : Filter) (s : Store) : Bool :=
  s.entries.contains f

/-- The number of entries. -/
def size (s : Store) : Nat :=
  s.entries.length

/-- A change to a store. -/
inductive Write
  /-- The filter is put in front. -/
  | recorded (filter : Filter)
  /-- The filter is taken out. -/
  | removed (filter : Filter)
  deriving DecidableEq, Repr

/-- **What a change does**, and for a removal whether the store has become smaller by it. -/
def step (s : Store) : Write → Option Bool × Store
  | .recorded f => (none, s.record f)
  | .removed f => (some ((s.remove f).size != s.size), s.remove f)

/-- The store after some changes. -/
def run (s : Store) (writes : List Write) : Store :=
  writes.foldl (fun s w => (s.step w).2) s

end Store

end CardFilter
