import HypervisorTrace.Record
import HypervisorTrace.Table
import HypervisorTrace.Wire.Trec

/-!
From the items of the tracing tool to records, in one pass. An item without a counter takes that of
the item before it on the same processor, failing that of the item before it on any processor. The
records of the items before the first counter of the stream wait for it and are stamped when it
comes; if it never comes, their counter is zero. The guest of an item is the one that the last
scheduling event before it on the same processor switched to; before the first such event the
processor is idle.
-/

namespace HypervisorTrace.Wire.Trec

/-- The guest that an event switches its processor to, if it is one that does. -/
def incoming (id : Word) (extra : Event.Payload) : Option Guest :=
  if (Event.Id.isRunStateChange id && Event.Id.newRunState id == 0) ||
      id == Event.Id.continueRunning then
    some (Guest.ofPacked (extra.word 0))
  else if id == Event.Id.switchNext then
    some ⟨Word.lower (extra.word 0), Word.lower (extra.word 1)⟩
  else
    none

/-- The guests on the processors after a row. -/
def switch (guests : Table UInt16 Guest) (row : Row (Option UInt64)) : Table UInt16 Guest :=
  match incoming row.item.id row.item.extra with
  | some guest => guests.set row.cpu guest
  | none => guests

/-- What has been made of some rows, and what of them matters for later ones. -/
structure Collector where
  records : Array Record
  /-- The indices of the records that wait for a counter. -/
  pending : Array Nat
  counters : Table UInt16 UInt64
  /-- The last counter on any processor. -/
  latest : Option UInt64
  guests : Table UInt16 Guest

namespace Collector

def start : Collector :=
  ⟨#[], #[], [], none, []⟩

/-- The records, those at some indices with a counter in place of theirs. -/
def stampAt (indices : Array Nat) (counter : UInt64) (records : Array Record) : Array Record :=
  indices.foldl (fun stamped index => stamped.modify index ({ · with counter := counter })) records

/-- Takes notice of a counter on a processor. The records that wait for one are stamped. -/
def notice (collector : Collector) (cpu : UInt16) (counter : UInt64) : Collector where
  records := stampAt collector.pending counter collector.records
  pending := #[]
  counters := collector.counters.set cpu counter
  latest := some counter
  guests := collector.guests

/-- Lets the next record wait for a counter. -/
def defer (collector : Collector) : Collector :=
  { collector with pending := collector.pending.push collector.records.size }

/-- The counter that a row without one takes over. -/
def inherited (collector : Collector) (cpu : UInt16) : Option UInt64 :=
  (collector.counters.get? cpu).or collector.latest

def guest (collector : Collector) (cpu : UInt16) : Guest :=
  (collector.guests.get? cpu).getD (Guest.idle cpu)

/-- Adds the record of a row with a counter. A switch takes effect after the row that tells of
it. -/
def push (collector : Collector) (row : Row (Option UInt64)) (counter : UInt64) : Collector :=
  { collector with
    records := collector.records.push {
      eventId := row.item.id
      cpu := row.cpu
      counter := counter
      guest := collector.guest row.cpu
      extra := row.item.extra
      offset := row.offset }
    guests := switch collector.guests row }

def add (collector : Collector) (row : Row (Option UInt64)) : Collector :=
  match row.item.head with
  | some counter => (collector.notice row.cpu counter).push row counter
  | none =>
    match collector.inherited row.cpu with
    | some counter => collector.push row counter
    | none => collector.defer.push row 0

def addAll (collector : Collector) (rows : List (Row (Option UInt64))) : Collector :=
  rows.foldl add collector

end Collector

def collect (rows : List (Row (Option UInt64))) : List Record :=
  (Collector.start.addAll rows).records.toList

end HypervisorTrace.Wire.Trec
