import HypervisorTrace.Session
import HypervisorTrace.Table

/-!
Statistics of a trace: how many records there are of each class, on each processor and of each
event, and how much time they span. All of it is counted in one pass over the entries.
-/

namespace HypervisorTrace

structure Statistics where
  recordCount : Nat
  cpuCount : Nat
  byClass : Tally Event.Class
  byCpu : Tally UInt16
  unknownEvents : Nat
  /-- The nanoseconds from the earliest record to the latest. -/
  span : Int
  topEvents : Tally String
  deriving DecidableEq

/-- What has been counted after some of the entries. -/
structure Counts where
  earliest : Int
  latest : Int
  byClass : Tally Event.Class
  byCpu : Tally UInt16
  unknownEvents : Nat
  byName : Tally String

namespace Counts

/-- Before the first entry. Every time is between the latest one and the earliest one. -/
def start : Counts :=
  ⟨Int64.maxValue.toInt, Int64.minValue.toInt, [], [], 0, []⟩

/-- Counts one more entry. Variants of an event share a name, and an event that is not recognized
is counted under one of its own. -/
def add (counts : Counts) (entry : Entry) : Counts :=
  let seen := { counts with
    earliest := min counts.earliest entry.time
    latest := max counts.latest entry.time
    byClass := counts.byClass.add (Event.Class.ofId entry.eventId)
    byCpu := counts.byCpu.add entry.cpu }
  match Event.name? entry.eventId with
  | some name => { seen with byName := seen.byName.add name }
  | none =>
    { seen with
      unknownEvents := seen.unknownEvents + 1
      byName := seen.byName.add (Event.unknownName entry.eventId) }

end Counts

namespace Session

def counts (session : Session) : Counts :=
  session.entries.foldl Counts.add Counts.start

def statistics (session : Session) (top : Nat) : Statistics :=
  let counts := session.counts
  { recordCount := session.length
    cpuCount := session.cpuCount
    byClass := counts.byClass.mergeSort fun a b => a.1.rank ≤ b.1.rank
    byCpu := counts.byCpu.mergeSort fun a b => a.1 ≤ b.1
    unknownEvents := counts.unknownEvents
    span := if 0 < session.length then counts.latest - counts.earliest else 0
    topEvents := (counts.byName.mergeSort Tally.ranksBefore).take top }

end Session

end HypervisorTrace
