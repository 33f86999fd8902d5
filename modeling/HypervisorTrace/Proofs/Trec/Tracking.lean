import HypervisorTrace.Wire.Trec.Collector
import Mathlib.Tactic

/-!
Records told without going back. A tracker knows the first counter of the rows
from the start, so the record of a row is final as soon as it is made, from what
is known after the rows before it.

What the tracker knows after some rows has three parts, and each is the last one
of its kind among the rows: the last counter of a processor, the last counter of
all, and the last guest that was switched to on a processor.
-/

namespace HypervisorTrace

/-- A record has from its row what the stream stores and where. -/
structure Record.OfRow {Head : Type} (record : Record) (row : Wire.Row Head) : Prop where
  eventId : record.eventId = row.item.id
  extra : record.extra = row.item.extra
  offset : record.offset = row.offset
  cpu : record.cpu = row.cpu

namespace Wire

def onCpu {Head : Type} (cpu : UInt16) (rows : List (Row Head)) : List (Row Head) :=
  rows.filter (·.cpu = cpu)

@[simp] theorem onCpu_append {Head : Type} (cpu : UInt16) (first second : List (Row Head)) :
    onCpu cpu (first ++ second) = onCpu cpu first ++ onCpu cpu second := by
  simp [onCpu]

@[simp] theorem onCpu_singleton_of_eq {Head : Type} {cpu : UInt16} {row : Row Head}
    (hcpu : row.cpu = cpu) : onCpu cpu [row] = [row] := by
  simp [onCpu, hcpu]

@[simp] theorem onCpu_singleton_of_ne {Head : Type} {cpu : UInt16} {row : Row Head}
    (hcpu : row.cpu ≠ cpu) : onCpu cpu [row] = [] := by
  simp [onCpu, hcpu]

namespace Trec

/-- The counters that some rows carry, in order. -/
def carried (rows : List (Row (Option UInt64))) : List UInt64 :=
  rows.filterMap (·.item.head)

@[simp] theorem carried_append (first second : List (Row (Option UInt64))) :
    carried (first ++ second) = carried first ++ carried second := by
  simp [carried]

/-- The guests that some rows switch to, in order. -/
def switchedTo (rows : List (Row (Option UInt64))) : List Guest :=
  rows.filterMap fun row => incoming row.item.id row.item.extra

@[simp] theorem switchedTo_append (first second : List (Row (Option UInt64))) :
    switchedTo (first ++ second) = switchedTo first ++ switchedTo second := by
  simp [switchedTo]

section Switch

variable {cpu : UInt16} {row : Row (Option UInt64)}

theorem get?_switch_of_eq (guests : Table UInt16 Guest) (hcpu : row.cpu = cpu) :
    (switch guests row).get? cpu =
      (incoming row.item.id row.item.extra).or (guests.get? cpu) := by
  rw [switch]
  cases incoming row.item.id row.item.extra <;> simp [hcpu]

theorem get?_switch_of_ne (guests : Table UInt16 Guest) (hcpu : row.cpu ≠ cpu) :
    (switch guests row).get? cpu = guests.get? cpu := by
  rw [switch]
  cases incoming row.item.id row.item.extra <;> simp [Ne.symm hcpu]

end Switch

structure Tracker where
  counters : Table UInt16 UInt64
  /-- The last counter on any processor; before there is one, the first of the
  rows. -/
  latest : UInt64
  guests : Table UInt16 Guest

namespace Tracker

/-- What is known before the first of some rows: their first counter, zero if
they have none. -/
def start (rows : List (Row (Option UInt64))) : Tracker where
  counters := []
  latest := (rows.findSome? (·.item.head)).getD 0
  guests := []

def counter (tracker : Tracker) (row : Row (Option UInt64)) : UInt64 :=
  row.item.head.getD ((tracker.counters.get? row.cpu).getD tracker.latest)

def guest (tracker : Tracker) (cpu : UInt16) : Guest :=
  (tracker.guests.get? cpu).getD (Guest.idle cpu)

def advance (tracker : Tracker) (row : Row (Option UInt64)) : Tracker where
  counters := match row.item.head with
    | some counter => tracker.counters.set row.cpu counter
    | none => tracker.counters
  latest := row.item.head.getD tracker.latest
  guests := switch tracker.guests row

def record (tracker : Tracker) (row : Row (Option UInt64)) : Record where
  eventId := row.item.id
  cpu := row.cpu
  counter := tracker.counter row
  guest := tracker.guest row.cpu
  extra := row.item.extra
  offset := row.offset

def records (tracker : Tracker) : List (Row (Option UInt64)) → List Record
  | [] => []
  | row :: rest => tracker.record row :: (tracker.advance row).records rest

def run (tracker : Tracker) (rows : List (Row (Option UInt64))) : Tracker :=
  rows.foldl advance tracker

@[simp] theorem run_nil (tracker : Tracker) : tracker.run [] = tracker := rfl

@[simp] theorem run_cons (tracker : Tracker) (row : Row (Option UInt64))
    (rest : List (Row (Option UInt64))) :
    tracker.run (row :: rest) = (tracker.advance row).run rest := rfl

theorem run_append (tracker : Tracker) (first second : List (Row (Option UInt64))) :
    tracker.run (first ++ second) = (tracker.run first).run second := by
  simp [run]

theorem run_append_singleton (tracker : Tracker) (rows : List (Row (Option UInt64)))
    (row : Row (Option UInt64)) :
    tracker.run (rows ++ [row]) = (tracker.run rows).advance row := by
  rw [run_append]
  rfl

theorem records_append (tracker : Tracker) (first second : List (Row (Option UInt64))) :
    tracker.records (first ++ second) =
      tracker.records first ++ (tracker.run first).records second := by
  induction first generalizing tracker with
  | nil => rfl
  | cons row rest ih => rw [List.cons_append, records, ih, records, run_cons, List.cons_append]

@[simp] theorem length_records (tracker : Tracker) (rows : List (Row (Option UInt64))) :
    (tracker.records rows).length = rows.length := by
  induction rows generalizing tracker with
  | nil => rfl
  | cons row rest ih => rw [records, List.length_cons, List.length_cons, ih]

theorem getElem?_records (tracker : Tracker) (before : List (Row (Option UInt64)))
    (row : Row (Option UInt64)) (after : List (Row (Option UInt64))) :
    (tracker.records (before ++ row :: after))[before.length]? =
      some ((tracker.run before).record row) := by
  rw [records_append, records, List.getElem?_append_right (by rw [length_records]),
    length_records, Nat.sub_self]
  rfl

theorem map_cpu_records (tracker : Tracker) (rows : List (Row (Option UInt64))) :
    (tracker.records rows).map (·.cpu) = rows.map (·.cpu) := by
  induction rows generalizing tracker with
  | nil => rfl
  | cons row rest ih =>
      rw [records, List.map_cons, List.map_cons, ih]
      rfl

/-- The record at a place is made from a row at that place, by what is known
after the rows before it. -/
theorem exists_rows_of_records {tracker : Tracker} {rows : List (Row (Option UInt64))}
    {before after : List Record} {record : Record}
    (hrecords : tracker.records rows = before ++ record :: after) :
    ∃ earlier row later, rows = earlier ++ row :: later ∧
      tracker.records earlier = before ∧ (tracker.run earlier).record row = record ∧
      (tracker.run (earlier ++ [row])).records later = after := by
  induction before generalizing tracker rows with
  | nil =>
      cases rows with
      | nil => cases hrecords
      | cons row rest =>
          rw [records, List.nil_append, List.cons.injEq] at hrecords
          exact ⟨[], row, rest, rfl, rfl, hrecords.1, hrecords.2⟩
  | cons first others ih =>
      cases rows with
      | nil => cases hrecords
      | cons row rest =>
          rw [records, List.cons_append, List.cons.injEq] at hrecords
          obtain ⟨hfirst, hothers⟩ := hrecords
          obtain ⟨earlier, found, later, rfl, hbefore, hrecord, hafter⟩ := ih hothers
          refine ⟨row :: earlier, found, later, rfl, ?_, hrecord, hafter⟩
          rw [records, hfirst, hbefore]

theorem start_latest (rows : List (Row (Option UInt64))) :
    (start rows).latest = (carried rows).head?.getD 0 := by
  rw [carried, List.head?_filterMap]
  rfl

/-- All that the tracker knows of rows before the first of them is their first
counter. -/
theorem start_eq (rows : List (Row (Option UInt64))) :
    start rows = ⟨[], (carried rows).head?.getD 0, []⟩ :=
  congrArg (fun latest => Tracker.mk [] latest []) (start_latest rows)

theorem record_ofRow (tracker : Tracker) (row : Row (Option UInt64)) :
    (tracker.record row).OfRow row :=
  ⟨rfl, rfl, rfl, rfl⟩

theorem records_ofRow (tracker : Tracker) (rows : List (Row (Option UInt64))) :
    List.Forall₂ Record.OfRow (tracker.records rows) rows := by
  induction rows generalizing tracker with
  | nil => exact .nil
  | cons row rest ih => exact .cons (tracker.record_ofRow row) (ih (tracker.advance row))

theorem run_latest (tracker : Tracker) (rows : List (Row (Option UInt64))) :
    (tracker.run rows).latest = (carried rows).getLast?.getD tracker.latest := by
  induction rows using List.reverseRecOn with
  | nil => rfl
  | append_singleton rows row ih =>
      rw [run_append_singleton, advance, ih, carried_append, List.getLast?_append]
      cases hhead : row.item.head <;> simp [carried, hhead]

/-- The counter that is known of a processor is the last one that its rows
carry. -/
theorem run_counters (tracker : Tracker) (rows : List (Row (Option UInt64))) (cpu : UInt16) :
    (tracker.run rows).counters.get? cpu =
      (carried (onCpu cpu rows)).getLast?.or (tracker.counters.get? cpu) := by
  induction rows using List.reverseRecOn with
  | nil => rfl
  | append_singleton rows row ih =>
      rw [run_append_singleton, onCpu_append, carried_append, List.getLast?_append]
      by_cases hcpu : row.cpu = cpu
      · rw [onCpu_singleton_of_eq hcpu]
        cases hhead : row.item.head with
        | none => simp [advance, carried, hhead, ih]
        | some counter => simp [advance, carried, hhead, hcpu]
      · rw [onCpu_singleton_of_ne hcpu]
        cases hhead : row.item.head with
        | none => simp [advance, carried, hhead, ih]
        | some counter => simp [advance, carried, hhead, Ne.symm hcpu, ih]

/-- The guest that is known of a processor is the last one that its rows
switch to. -/
theorem run_guests (tracker : Tracker) (rows : List (Row (Option UInt64))) (cpu : UInt16) :
    (tracker.run rows).guests.get? cpu =
      (switchedTo (onCpu cpu rows)).getLast?.or (tracker.guests.get? cpu) := by
  induction rows using List.reverseRecOn with
  | nil => rfl
  | append_singleton rows row ih =>
      rw [run_append_singleton, onCpu_append, switchedTo_append, List.getLast?_append]
      by_cases hcpu : row.cpu = cpu
      · simp only [onCpu_singleton_of_eq hcpu, advance, get?_switch_of_eq _ hcpu, ih]
        cases hguest : incoming row.item.id row.item.extra <;> simp [switchedTo, hguest]
      · simp only [onCpu_singleton_of_ne hcpu, advance, get?_switch_of_ne _ hcpu, ih]
        rfl

end Tracker

def complete (rows : List (Row (Option UInt64))) : List Record :=
  (Tracker.start rows).records rows

end Trec

end Wire

end HypervisorTrace
