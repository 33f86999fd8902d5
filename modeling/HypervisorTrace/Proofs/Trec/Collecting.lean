import HypervisorTrace.Proofs.Trec.Tracking

/-!
The pass over the rows of a stream goes back to records that it has made
already, to stamp those that wait for a counter. It is in one of two states.
Before the first counter every record waits and no counter is known; from the
first counter on some counter is known and no record waits.

The first counter decides what every record will be in the end. Given it, the
records of a collector and what it knows are those of a tracker, row by row, so
the pass makes the records that the tracker makes without going back.
-/

namespace HypervisorTrace

def Record.stamp (record : Record) (counter : UInt64) : Record :=
  { record with counter := counter }

namespace Wire.Trec

namespace Collector

variable {collector : Collector} {row : Row (Option UInt64)} {counter : UInt64}

theorem getElem?_stampAt (indices : Array Nat) (counter : UInt64) (records : Array Record)
    (place : Nat) :
    (stampAt indices counter records)[place]? =
      if place ∈ indices then records[place]?.map (·.stamp counter) else records[place]? := by
  obtain ⟨indices⟩ := indices
  rw [stampAt, List.foldl_toArray]
  simp only [List.mem_toArray]
  induction indices generalizing records with
  | nil => rw [List.foldl_nil, if_neg List.not_mem_nil]
  | cons index rest ih =>
      rw [List.foldl_cons, ih, Array.getElem?_modify]
      by_cases hplace : index = place
      · subst hplace
        -- A record that is stamped twice is as one that is stamped once.
        cases records[index]? <;> simp [Record.stamp]
      · simp [hplace, Ne.symm hplace]

@[simp] theorem size_stampAt (indices : Array Nat) (counter : UInt64) (records : Array Record) :
    (stampAt indices counter records).size = records.size := by
  obtain ⟨indices⟩ := indices
  rw [stampAt, List.foldl_toArray]
  induction indices generalizing records with
  | nil => rfl
  | cons index rest ih => rw [List.foldl_cons, ih, Array.size_modify]

@[simp] theorem stampAt_empty (counter : UInt64) (records : Array Record) :
    stampAt #[] counter records = records := rfl

theorem stampAt_range (counter : UInt64) (records : Array Record) :
    stampAt (Array.range records.size) counter records = records.map (·.stamp counter) := by
  apply Array.ext_getElem?
  intro place
  rw [getElem?_stampAt, Array.getElem?_map]
  split
  · rfl
  · rename_i hplace
    rw [Array.mem_range] at hplace
    rw [Array.getElem?_eq_none (Nat.le_of_not_lt hplace), Option.map_none]

/-- Before the first counter: every record waits for it, with the counter zero,
and no counter is known. -/
structure Waits (collector : Collector) : Prop where
  pending : collector.pending = Array.range collector.records.size
  unstamped : ∀ record ∈ collector.records, record.counter = 0
  counters : collector.counters = []
  latest : collector.latest = none

/-- From the first counter on: no record waits, and a counter is known. -/
structure Knows (collector : Collector) : Prop where
  pending : collector.pending = #[]
  latest : collector.latest.isSome

theorem waits_start : start.Waits where
  pending := rfl
  unstamped := nofun
  counters := rfl
  latest := rfl

theorem Waits.inherited (hwaits : collector.Waits) (cpu : UInt16) :
    collector.inherited cpu = none := by
  rw [Collector.inherited, hwaits.counters, hwaits.latest]
  rfl

theorem Knows.inherited (hknows : collector.Knows) (first : UInt64) (cpu : UInt16) :
    collector.inherited cpu =
      some ((collector.counters.get? cpu).getD (collector.latest.getD first)) := by
  obtain ⟨latest, hlatest⟩ := Option.isSome_iff_exists.mp hknows.latest
  rw [Collector.inherited, hlatest]
  cases collector.counters.get? cpu <;> rfl

theorem add_of_some (hhead : row.item.head = some counter) :
    collector.add row = (collector.notice row.cpu counter).push row counter := by
  rw [add, hhead]

theorem Waits.add_of_none (hwaits : collector.Waits) (hhead : row.item.head = none) :
    collector.add row = collector.defer.push row 0 := by
  rw [add, hhead]
  dsimp only
  rw [hwaits.inherited]

theorem Knows.add_of_none (hknows : collector.Knows) (hhead : row.item.head = none)
    (first : UInt64) :
    collector.add row =
      collector.push row
        ((collector.counters.get? row.cpu).getD (collector.latest.getD first)) := by
  rw [add, hhead]
  dsimp only
  rw [hknows.inherited first]

/-- A row without a counter leaves a collector waiting. -/
theorem Waits.add (hwaits : collector.Waits) (hhead : row.item.head = none) :
    (collector.add row).Waits := by
  rw [hwaits.add_of_none hhead]
  constructor
  case pending =>
    simp only [push, defer, hwaits.pending, Array.size_push]
    rw [Array.range_succ, Array.push_eq_append]
  case unstamped =>
    intro record hrecord
    obtain hformer | rfl := Array.mem_push.mp hrecord
    · exact hwaits.unstamped record hformer
    · rfl
  case counters => exact hwaits.counters
  case latest => exact hwaits.latest

/-- A row with a counter ends the waiting. -/
theorem knows_add (hhead : row.item.head = some counter) : (collector.add row).Knows := by
  rw [add_of_some hhead]
  exact ⟨rfl, rfl⟩

theorem Knows.add (hknows : collector.Knows) (row : Row (Option UInt64)) :
    (collector.add row).Knows := by
  cases hhead : row.item.head with
  | some counter => exact knows_add hhead
  | none =>
      rw [hknows.add_of_none hhead 0]
      exact ⟨hknows.pending, hknows.latest⟩

theorem addAll_append_singleton (collector : Collector) (rows : List (Row (Option UInt64)))
    (row : Row (Option UInt64)) :
    collector.addAll (rows ++ [row]) = (collector.addAll rows).add row := by
  rw [addAll, addAll, List.foldl_append]
  rfl

theorem size_add (collector : Collector) (row : Row (Option UInt64)) :
    (collector.add row).records.size = collector.records.size + 1 := by
  unfold add
  split
  · rw [push, Array.size_push, notice, size_stampAt]
  · split <;> exact Array.size_push _

theorem size_addAll (rows : List (Row (Option UInt64))) :
    (start.addAll rows).records.size = rows.length := by
  induction rows using List.reverseRecOn with
  | nil => rfl
  | append_singleton rows row ih =>
      rw [addAll_append_singleton, size_add, ih, List.length_append, List.length_singleton]

/-- After some rows the pass waits if none of them has a counter, and has ended
waiting otherwise. The induction is on the rows from the last one on. -/
theorem state_addAll (rows : List (Row (Option UInt64))) :
    (carried rows = [] → (start.addAll rows).Waits) ∧
      (carried rows ≠ [] → (start.addAll rows).Knows) := by
  induction rows using List.reverseRecOn with
  | nil => exact ⟨fun _ => waits_start, fun hcarried => absurd rfl hcarried⟩
  | append_singleton rows row ih =>
      rw [addAll_append_singleton, carried_append]
      cases hhead : row.item.head with
      | some counter =>
          have hcarried : carried [row] = [counter] := by simp [carried, hhead]
          rw [hcarried]
          have hcons : carried rows ++ [counter] ≠ [] :=
            List.append_ne_nil_of_right_ne_nil _ (List.cons_ne_nil counter [])
          exact ⟨fun hnil => absurd hnil hcons, fun _ => knows_add hhead⟩
      | none =>
          have hcarried : carried [row] = [] := by simp [carried, hhead]
          rw [hcarried, List.append_nil]
          exact ⟨fun hnil => (ih.1 hnil).add hhead, fun hcons => (ih.2 hcons).add row⟩

/-- The records that wait after some rows are all records, or none once a row
has had a counter. -/
theorem pending_addAll (rows : List (Row (Option UInt64))) :
    (start.addAll rows).pending = if carried rows = [] then Array.range rows.length else #[] := by
  obtain ⟨hwaits, hknows⟩ := state_addAll rows
  split
  · rename_i hcarried
    rw [(hwaits hcarried).pending, size_addAll]
  · rename_i hcarried
    exact (hknows hcarried).pending

/-- The records of a collector as they will be, given the counter that those
that wait will be stamped with. -/
def finish (collector : Collector) (first : UInt64) : Array Record :=
  stampAt collector.pending first collector.records

theorem Waits.finish (hwaits : collector.Waits) (first : UInt64) :
    collector.finish first = collector.records.map (·.stamp first) := by
  rw [Collector.finish, hwaits.pending, stampAt_range]

theorem Knows.finish (hknows : collector.Knows) (first : UInt64) :
    collector.finish first = collector.records := by
  rw [Collector.finish, hknows.pending, stampAt_empty]

/-- What a collector knows for later rows, given the first counter. -/
def tracker (collector : Collector) (first : UInt64) : Tracker :=
  ⟨collector.counters, collector.latest.getD first, collector.guests⟩

theorem tracker_add (collector : Collector) (row : Row (Option UInt64)) (first : UInt64) :
    (collector.add row).tracker first = (collector.tracker first).advance row := by
  unfold add
  cases hhead : row.item.head with
  | some counter =>
      simp only [tracker, Tracker.advance, push, notice, hhead, Option.getD_some]
  | none =>
      cases collector.inherited row.cpu <;>
        simp only [tracker, Tracker.advance, push, defer, hhead, Option.getD_none]

/-- One row adds one record to those that will be, and it is the record that the
tracker makes of the row. A row with a counter that is the first one must have
the counter that was given as such. -/
theorem finish_add {first : UInt64} (hstate : collector.Waits ∨ collector.Knows)
    (hfirst : collector.latest = none → ∀ counter ∈ row.item.head, counter = first) :
    (collector.add row).finish first =
      (collector.finish first).push ((collector.tracker first).record row) := by
  cases hhead : row.item.head with
  | some counter =>
      have hadded : (collector.add row).Knows := knows_add hhead
      have hstamped : (collector.notice row.cpu counter).records = collector.finish first := by
        obtain hwaits | hknows := hstate
        · obtain rfl := hfirst hwaits.latest counter hhead
          rfl
        · rw [hknows.finish, notice, hknows.pending, stampAt_empty]
      rw [hadded.finish, add_of_some hhead, push, hstamped]
      simp only [Tracker.record, Tracker.counter, hhead, Option.getD_some]
      rfl
  | none =>
      obtain hwaits | hknows := hstate
      · rw [(hwaits.add hhead).finish, hwaits.finish, hwaits.add_of_none hhead]
        simp only [push, defer, Array.map_push, Tracker.record, Tracker.counter, tracker, hhead,
          hwaits.counters, hwaits.latest, Table.get?_nil, Option.getD_none]
        rfl
      · rw [(hknows.add row).finish, hknows.finish, hknows.add_of_none hhead first]
        simp only [push, Tracker.record, Tracker.counter, tracker, hhead, Option.getD_none]
        rfl

/-- After the first of some rows the pass has the records of a tracker that knows
the first counter of all of them, as soon as those that wait are stamped with
it, and it knows what the tracker knows. -/
theorem finish_addAll (rows later : List (Row (Option UInt64))) :
    let first := (carried (rows ++ later)).head?.getD 0
    ((start.addAll rows).finish first).toList = (Tracker.start (rows ++ later)).records rows ∧
      (start.addAll rows).tracker first = (Tracker.start (rows ++ later)).run rows := by
  induction rows using List.reverseRecOn generalizing later with
  | nil => exact ⟨rfl, (Tracker.start_eq later).symm⟩
  | append_singleton rows row ih =>
      rw [addAll_append_singleton, List.append_assoc, List.singleton_append,
        Tracker.records_append, Tracker.run_append_singleton]
      obtain ⟨hrecords, htracker⟩ := ih (row :: later)
      obtain ⟨hwaits, hknows⟩ := state_addAll rows
      intro first
      have hstate : (start.addAll rows).Waits ∨ (start.addAll rows).Knows := by
        by_cases hcarried : carried rows = []
        · exact .inl (hwaits hcarried)
        · exact .inr (hknows hcarried)
      have hfirst : (start.addAll rows).latest = none →
          ∀ counter ∈ row.item.head, counter = first := by
        intro hlatest counter hhead
        have hcarried : carried rows = [] := by
          by_contra hcarried
          have hsome := (hknows hcarried).latest
          rw [hlatest] at hsome
          cases hsome
        -- The row is the first one with a counter.
        have hhere : carried (row :: later) = counter :: carried later := by
          rw [carried, List.filterMap_cons, Option.mem_def.mp hhead]
          rfl
        change counter = (carried (rows ++ row :: later)).head?.getD 0
        rw [carried_append, hcarried, List.nil_append, hhere]
        rfl
      refine ⟨?_, ?_⟩
      · rw [finish_add hstate hfirst, Array.toList_push, hrecords, htracker]
        rfl
      · rw [tracker_add, htracker]

end Collector

/-- The pass makes the records that the tracker makes without going back. -/
theorem collect_eq_complete (rows : List (Row (Option UInt64))) : collect rows = complete rows := by
  obtain ⟨hwaits, hknows⟩ := Collector.state_addAll rows
  obtain ⟨hrecords, -⟩ := Collector.finish_addAll rows []
  rw [List.append_nil] at hrecords
  rw [complete, ← hrecords, collect]
  by_cases hcarried : carried rows = []
  · -- No counter comes, and the records keep the one that they have waited with.
    have hsame : ∀ record ∈ (Collector.start.addAll rows).records, record.stamp 0 = record := by
      intro record hrecord
      rw [Record.stamp, ← (hwaits hcarried).unstamped record hrecord]
    rw [hcarried, (hwaits hcarried).finish, List.head?_nil, Option.getD_none,
      Array.map_congr_left hsame, Array.map_id']
  · rw [(hknows hcarried).finish]

end Wire.Trec

end HypervisorTrace
