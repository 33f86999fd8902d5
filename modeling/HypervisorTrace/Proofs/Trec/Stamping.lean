import HypervisorTrace.Proofs.Trec.Reading

/-!
The counters of records in closed form. Where a stream is gone through once,
with a counter for each processor, one for all, and a list of records that wait
for the first one, this module says of each event by itself which of the
stream's counters it is given. Only counters of events count: those of records
that name a processor do not.
-/

namespace HypervisorTrace.Wire.Trec

/-- The counter of a row that stands between others: its own; failing that the
last one before it on its processor; failing that the last one before it on
any processor; failing that the first one after it; zero if the stream has
none. -/
def stamp (before : List (Row (Option UInt64))) (row : Row (Option UInt64))
    (after : List (Row (Option UInt64))) : UInt64 :=
  let ownCpu := (carried (onCpu row.cpu before)).getLast?
  let anyCpu := (carried before).getLast?
  let following := (carried after).head?
  (row.item.head.or (ownCpu.or (anyCpu.or following))).getD 0

theorem run_counter_eq_stamp (before : List (Row (Option UInt64)))
    (row : Row (Option UInt64)) (after : List (Row (Option UInt64))) :
    ((Tracker.start (before ++ row :: after)).run before).counter row =
      stamp before row after := by
  unfold Tracker.counter stamp
  cases hown : row.item.head with
  | some counter => rfl
  | none =>
      rw [Tracker.run_counters, Tracker.run_latest, Tracker.start_latest]
      have hstart : (Tracker.start (before ++ row :: after)).counters.get? row.cpu = none := rfl
      rw [hstart, Option.or_none]
      cases hcpu : (carried (onCpu row.cpu before)).getLast? with
      | some counter => rfl
      | none =>
          cases hany : (carried before).getLast? with
          | some counter => rfl
          | none =>
              -- Nothing before the row carries a counter, nor does the row:
              -- the first counter of the stream is the first one after it.
              have hbefore : carried before = [] := List.getLast?_eq_none_iff.mp hany
              have hrest : carried (row :: after) = carried after := by
                simp [carried, hown]
              rw [carried_append, hbefore, List.nil_append, hrest]
              rfl

/-- What decides about the counters of some rows: where and when each was
recorded, as far as its item tells. -/
def timing (row : Row (Option UInt64)) : UInt16 × Option UInt64 :=
  (row.cpu, row.item.head)

/-- Trackers that know the same counters give the same counters to rows with
the same timing. -/
theorem records_counter_congr (first second : Tracker)
    (hcounters : first.counters = second.counters) (hlatest : first.latest = second.latest)
    {rows others : List (Row (Option UInt64))} (htiming : rows.map timing = others.map timing) :
    (first.records rows).map (·.counter) = (second.records others).map (·.counter) := by
  induction rows generalizing first second others with
  | nil =>
      cases others with
      | nil => rfl
      | cons other more => cases htiming
  | cons row rest ih =>
      cases others with
      | nil => cases htiming
      | cons other more =>
          rw [List.map_cons, List.map_cons, List.cons.injEq] at htiming
          obtain ⟨hrow, hrest⟩ := htiming
          simp only [timing, Prod.mk.injEq] at hrow
          obtain ⟨hcpu, hhead⟩ := hrow
          rw [Tracker.records, Tracker.records, List.map_cons, List.map_cons]
          have hhere : (first.record row).counter = (second.record other).counter := by
            simp only [Tracker.record, Tracker.counter, hcpu, hhead, hcounters, hlatest]
          have hthere := ih (first.advance row) (second.advance other)
            (by simp only [Tracker.advance, hcpu, hhead, hcounters])
            (by simp only [Tracker.advance, hhead, hlatest]) hrest
          rw [hhere, hthere]

theorem start_latest_congr {rows others : List (Row (Option UInt64))}
    (htiming : rows.map timing = others.map timing) :
    (Tracker.start rows).latest = (Tracker.start others).latest := by
  have hcarried (list : List (Row (Option UInt64))) :
      carried list = (list.map timing).filterMap Prod.snd := by
    rw [carried, List.filterMap_map]
    rfl
  rw [Tracker.start_latest, Tracker.start_latest, hcarried rows, hcarried others, htiming]

/-- A stored item without the counter it carries if it names a processor. -/
def Stored.withoutChangeCounter (stored : Stored) : Stored :=
  if NamesCpu stored.item then { stored with counter := none } else stored

theorem timing_withoutChangeCounter (cpu : UInt16) (offset other : Nat) (items : List Stored) :
    (rowsFrom cpu (coding.framesFrom offset items)).map timing =
      (rowsFrom cpu (coding.framesFrom other
        (items.map Stored.withoutChangeCounter))).map timing := by
  induction items generalizing cpu offset other with
  | nil => rfl
  | cons stored rest ih =>
      rw [List.map_cons, Coding.framesFrom, Coding.framesFrom, rowsFrom, rowsFrom,
        isCpuChange_eq, isCpuChange_eq]
      by_cases hnames : NamesCpu stored.item
      · have hquiet : stored.withoutChangeCounter = { stored with counter := none } :=
          if_pos hnames
        have hstill : NamesCpu stored.withoutChangeCounter.item := by
          rw [hquiet]
          exact hnames
        have hcpu : stored.withoutChangeCounter.item.newCpu = stored.item.newCpu := by
          rw [hquiet]
          rfl
        simp only [coding, hnames, hstill, decide_true, if_true, hcpu]
        exact ih _ _ _
      · have hsame : stored.withoutChangeCounter = stored := if_neg hnames
        simp only [coding, hsame, hnames, decide_false, Bool.false_eq_true, if_false,
          List.map_cons]
        rw [List.cons.injEq]
        exact ⟨rfl, ih _ _ _⟩

theorem complete_withoutChangeCounter (items : List Stored) :
    (complete (coding.events (items.map Stored.withoutChangeCounter))).map (·.counter) =
      (complete (coding.events items)).map (·.counter) := by
  have htiming := timing_withoutChangeCounter 0 0 0 items
  change (rows (coding.framesFrom 0 items)).map timing =
    (rows (coding.framesFrom 0 (items.map Stored.withoutChangeCounter))).map timing at htiming
  rw [coding.rows_framesFrom, coding.rows_framesFrom] at htiming
  apply Eq.symm
  apply records_counter_congr
  · rfl
  · exact start_latest_congr htiming
  · exact htiming

/-- The counter of every record of a stream that is read, in closed form. The
stream is the encoding of a list of items, the records are its events one for
one, and the record of an event has the counter that the events before and
after it determine. They are collected in one pass, in which all records wait
for a counter as long as there has been none, and no record waits afterwards.
The counters of records that name a processor give none: reading the stream
without them gives the same counters. -/
theorem counter_of_every_record {bytes : List UInt8} {records : List Record}
    (hread : Format.trec.read bytes = .ok records) :
    ∃ items, coding.encodeAll items = bytes ∧
      List.Forall₂ Record.OfRow records (coding.events items) ∧
      records = collect (coding.events items) ∧
      (∀ before, before <+: coding.events items →
        (Collector.start.addAll before).pending =
          if carried before = [] then Array.range before.length else #[]) ∧
      (∀ before row after, coding.events items = before ++ row :: after →
        records[before.length]?.map (·.counter) = some (stamp before row after)) ∧
      ∃ others,
        Format.trec.read (coding.encodeAll (items.map Stored.withoutChangeCounter)) = .ok others ∧
        others.map (·.counter) = records.map (·.counter) := by
  obtain ⟨items, hbytes, rfl⟩ := exists_items_of_read hread
  refine ⟨items, hbytes, complete_ofRow _, (collect_eq_complete _).symm, ?_, ?_, ?_⟩
  · intro before _
    exact Collector.pending_addAll before
  · intro before row after hevents
    rw [hevents, complete, Tracker.getElem?_records, Option.map_some]
    exact congrArg some (run_counter_eq_stamp before row after)
  · exact ⟨_, read_encodeAll _, complete_withoutChangeCounter items⟩

/-- A stream of two processors. The counter 9 stands at a change of processor
and stamps nothing; the first event waits and takes the counter 40 from after
it, the last one takes the counter 40 of its own processor, not the later 50. -/
theorem counter_of_every_record_two_cpus :
    let items : List Stored :=
      [.mk 0x0001f003 (some 9) [1],
        .mk 0x00081001 none [],
        .mk 0x00081001 (some 40) [],
        .mk 0x0001f003 none [2],
        .mk 0x00081001 (some 50) [],
        .mk 0x0001f003 none [1],
        .mk 0x00081001 none []]
    ∃ records, Format.trec.read (coding.encodeAll items) = .ok records ∧
      records = collect (coding.events items) ∧
      (Collector.start.addAll ((coding.events items).take 1)).pending = #[0] ∧
      records[0]?.map (·.counter) = some 40 ∧ records[3]?.map (·.counter) = some 40 := by
  intro items
  have hread := read_encodeAll items
  obtain ⟨others, hothers, -, hcollect, hpending, hstamp, -⟩ := counter_of_every_record hread
  obtain rfl := encodeAll_injective hothers
  refine ⟨_, hread, hcollect, hpending _ (List.take_prefix 1 _), ?_, ?_⟩
  · exact hstamp [] _ _ rfl
  · exact hstamp [_, _, _] _ [] rfl

end HypervisorTrace.Wire.Trec
