import HypervisorTrace.Proofs.Trec.Stamping

/-!
The records of rows that others follow. A tracker looks ahead at one thing
only, the first counter of all rows, and it gives that to rows without a
counter before any row that has one. So later rows make no difference to the
records of earlier ones, unless none of these has a counter: then all of them
take the first counter of the later rows.
-/

namespace HypervisorTrace.Wire.Trec

theorem carried_cons_eq_nil {row : Row (Option UInt64)} {rest : List (Row (Option UInt64))} :
    carried (row :: rest) = [] ↔ row.item.head = none ∧ carried rest = [] := by
  cases hhead : row.item.head <;> simp [carried, hhead]

/-- Rows without counters, before which no counter is known, are given the one
that the tracker starts with, and nothing else depends on it. -/
theorem Tracker.records_of_carried_nil {tracker : Tracker} {rows : List (Row (Option UInt64))}
    (hcounters : tracker.counters = []) (hrows : carried rows = []) (latest : UInt64) :
    Tracker.records { tracker with latest := latest } rows =
      (tracker.records rows).map fun record => { record with counter := latest } := by
  induction rows generalizing tracker with
  | nil => rfl
  | cons row rest ih =>
      obtain ⟨hhead, hrest⟩ := carried_cons_eq_nil.mp hrows
      have hadvance : Tracker.advance { tracker with latest := latest } row =
          { tracker.advance row with latest := latest } := by
        simp only [advance, hhead, Option.getD_none]
      have hknown : (tracker.advance row).counters = [] := by
        simp only [advance, hhead, hcounters]
      have hrecord : Tracker.record { tracker with latest := latest } row =
          { tracker.record row with counter := latest } := by
        simp only [record, counter, guest, hhead, hcounters, Table.get?_nil, Option.getD_none]
      rw [records, records, List.map_cons, hrecord, hadvance, ih hknown hrest]

theorem start_append_of_carried {first second : List (Row (Option UInt64))}
    (hfirst : carried first ≠ []) : Tracker.start (first ++ second) = Tracker.start first := by
  rw [Tracker.start_eq, Tracker.start_eq, carried_append, List.head?_append_of_ne_nil _ hfirst]

theorem start_append_of_carried_nil {first second : List (Row (Option UInt64))}
    (hfirst : carried first = []) :
    Tracker.start (first ++ second) =
      { Tracker.start first with latest := (carried second).head?.getD 0 } := by
  rw [Tracker.start_eq, carried_append, hfirst, List.nil_append]
  rfl

theorem counter_of_carried_nil {rows : List (Row (Option UInt64))} (hrows : carried rows = []) :
    ∀ record ∈ complete rows, record.counter = 0 := by
  have hstart : Tracker.start rows = { Tracker.start rows with latest := 0 } := by
    rw [Tracker.start_eq, hrows]
    rfl
  intro record hrecord
  rw [complete, hstart, Tracker.records_of_carried_nil rfl hrows, List.mem_map] at hrecord
  obtain ⟨unstamped, -, rfl⟩ := hrecord
  rfl

/-- The records of rows before others: those that the rows have by themselves,
if a row of them has a counter, and otherwise those with the first counter of
the others. -/
def stampedBy (rows others : List (Row (Option UInt64))) : List Record :=
  if carried rows = [] then
    (complete rows).map fun record => { record with counter := (carried others).head?.getD 0 }
  else
    complete rows

theorem complete_append (first second : List (Row (Option UInt64))) :
    ∃ later, complete (first ++ second) = stampedBy first second ++ later ∧
      List.Forall₂ Record.OfRow later second := by
  refine ⟨((Tracker.start (first ++ second)).run first).records second, ?_,
    Tracker.records_ofRow _ second⟩
  rw [complete, Tracker.records_append, stampedBy]
  congr 1
  by_cases hfirst : carried first = []
  · rw [if_pos hfirst, start_append_of_carried_nil hfirst,
      Tracker.records_of_carried_nil rfl hfirst]
    rfl
  · rw [if_neg hfirst, start_append_of_carried hfirst]
    rfl

theorem length_stampedBy (rows others : List (Row (Option UInt64))) :
    (stampedBy rows others).length = (complete rows).length := by
  unfold stampedBy
  split
  · rw [List.length_map]
  · rfl

end HypervisorTrace.Wire.Trec
