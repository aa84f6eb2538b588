import ChipEight.Journal.Event

/-!
# ChipEight.Journal.Basic

The journal: the events of a run that are important enough to be kept.
-/

namespace ChipEight

/-- The events that have been kept. -/
structure Journal where
  /-- The least important level that is kept; without one nothing is. -/
  threshold : Option Level
  /-- What has been kept, the latest event first. -/
  latest : List Event
  deriving DecidableEq, Repr

namespace Journal

def empty (threshold : Option Level) : Journal :=
  ⟨threshold, []⟩

def keeps (j : Journal) (e : Event) : Bool :=
  j.threshold.any fun level => e.level.rank ≤ level.rank

/-- Adds an event, if it is to be kept. -/
def add (j : Journal) (e : Event) : Journal :=
  if j.keeps e then { j with latest := e :: j.latest } else j

/-- Adds events in the order in which they have happened. -/
def record (j : Journal) (events : List Event) : Journal :=
  events.foldl add j

/-- The lines of the journal, that of the first event first. -/
def lines (j : Journal) : List String :=
  j.latest.reverse.map Event.line

@[simp] theorem record_nil (j : Journal) : j.record [] = j := rfl

end Journal

end ChipEight
