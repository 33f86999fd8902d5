import HypervisorTrace.Proofs.Clock.Conversion
import HypervisorTrace.Proofs.Session.Opening
import HypervisorTrace.Proofs.Trec.Givers

/-!
The order of times in a session on a stream of the tracing tool. Times follow
counters, and the counter of a record is the one that its giver carries. So
times ascend where the stream's own counters do, over the whole stream or on
one processor.

On one processor there is an exception. Its first records may carry no counter
and borrow one from another processor, and the counters of two processors need
not be in order with each other. A record that borrows can then be ahead of
what follows it on its own processor.
-/

namespace HypervisorTrace.Session

open Wire Wire.Trec

/-- The time of the record at an index, as it is told when it is asked for and
as the list of all entries tells it. -/
def TimeAt (session : Session) (index : Nat) (time : Int) : Prop :=
  session.time? index = some time ∧ session.entries[index]?.map (·.time) = some time

instance (session : Session) (index : Nat) (time : Int) : Decidable (session.TimeAt index time) :=
  inferInstanceAs (Decidable (_ ∧ _))

variable {bytes : List UInt8} {options : Options} {session : Session}
  {rows before between after : List (Row (Option UInt64))} {row next : Row (Option UInt64)}

theorem timeAt_of_record {index : Nat} {record : Record}
    (hrecord : session.records[index]? = some record) :
    session.TimeAt index (session.conversion.nanoseconds record.counter) := by
  constructor
  · rw [time?, record?, hrecord]
    rfl
  · rw [entries, List.getElem?_map, List.getElem?_zipIdx, hrecord]
    rfl

/-- The time of a record is that of the counter its row is given. -/
theorem timeAt_of_rows (hrecords : session.records = complete (before ++ row :: after)) :
    session.TimeAt before.length
      (session.conversion.nanoseconds (stamp before row after)) := by
  have hrecord := Tracker.getElem?_records (Tracker.start (before ++ row :: after)) before row after
  rw [← complete, ← hrecords] at hrecord
  rw [← run_counter_eq_stamp]
  exact timeAt_of_record hrecord

/-- Two rows whose counters are in order have times that are in order. -/
theorem timeAt_le_timeAt
    (hrecords : session.records = complete (before ++ row :: (between ++ next :: after)))
    (hstamps : stamp before row (between ++ next :: after) ≤
      stamp (before ++ row :: between) next after) :
    ∃ earlier later, session.TimeAt before.length earlier ∧
      session.TimeAt (before ++ row :: between).length later ∧ earlier ≤ later := by
  refine ⟨_, _, timeAt_of_rows hrecords, ?_, session.conversion.nanoseconds_mono hstamps⟩
  apply timeAt_of_rows
  rw [hrecords, List.append_assoc, List.cons_append]

/-- Relative times are counted from the first counter of the stream. -/
theorem epoch_of_relative (hrecords : session.records = complete rows)
    (hrelative : session.options.clock.absolute = false) :
    session.conversion.epoch = (carried rows).head?.getD 0 := by
  rw [conversion, Clock.Conversion.ofClock, hrelative, firstCounter, hrecords]
  cases rows with
  | nil => rfl
  | cons first rest =>
      rw [← stamp_first, ← run_counter_eq_stamp [] first rest]
      rfl

theorem timeAt_first (hrecords : session.records = complete (row :: after))
    (hrelative : session.options.clock.absolute = false) : session.TimeAt 0 0 := by
  have htime := @timeAt_of_rows session [] after row hrecords
  rwa [stamp_first, ← epoch_of_relative hrecords hrelative,
    Clock.Conversion.nanoseconds_epoch] at htime

theorem timeAt_nonneg (hrecords : session.records = complete rows)
    (hrelative : session.options.clock.absolute = false)
    (hascending : (carried rows).Pairwise (· ≤ ·)) {index : Nat} (hindex : index < session.length) :
    ∃ time, session.TimeAt index time ∧ 0 ≤ time := by
  have hepoch := epoch_of_relative hrecords hrelative
  have hlength : index < rows.length := by
    rw [length, hrecords, complete, Tracker.length_records] at hindex
    exact hindex
  obtain ⟨before, row, after, rfl, rfl⟩ :
      ∃ before row after, rows = before ++ row :: after ∧ before.length = index := by
    refine ⟨rows.take index, rows[index], rows.drop (index + 1), ?_,
      List.length_take_of_le (Nat.le_of_lt hlength)⟩
    rw [← List.drop_eq_getElem_cons, List.take_append_drop]
  refine ⟨_, timeAt_of_rows hrecords, session.conversion.nanoseconds_nonneg ?_⟩
  rw [hepoch]
  exact first_le_stamp hascending

/-- If the counters that one processor's events carry ascend, so do the times
of its records: the time of every record that does not borrow its counter from
another processor is at most that of every later record of the same processor.
A record borrows if no event of its processor up to its own carries a counter,
and the last one before it on any processor that does, failing that the first
one after it, comes from another processor. -/
theorem times_of_cpu_ascend (hopen : ofBytes bytes options = .ok session)
    (hformat : options.format = .trec) :
    ∃ items, coding.encodeAll items = bytes ∧
      List.Forall₂ Record.OfRow session.records (coding.events items) ∧
      ∀ cpu, (carried (onCpu cpu (coding.events items))).Pairwise (· ≤ ·) →
        ∀ before row between next after,
          coding.events items = before ++ row :: (between ++ next :: after) →
          row.cpu = cpu → next.cpu = cpu → ¬ Borrows before row (between ++ next :: after) →
          ∃ earlier later, session.TimeAt before.length earlier ∧
            session.TimeAt (before ++ row :: between).length later ∧ earlier ≤ later := by
  obtain ⟨items, hbytes, hrecords, -⟩ := exists_items_of_ofBytes hopen hformat
  refine ⟨items, hbytes, hrecords ▸ complete_ofRow _, ?_⟩
  rintro cpu hascending before row between next after hevents rfl hcpu howns
  rw [hevents] at hrecords hascending
  exact timeAt_le_timeAt hrecords (stamp_le_of_cpu hcpu hascending howns)

/-- The second event of the first processor has a later counter than its first
one, and a later time, with an earlier counter of the second processor in
between. -/
theorem times_of_cpu_ascend_around_earlier_counter :
    let items : List Stored :=
      [.mk 0x0001f003 none [0],
        .mk 0x00081001 none [],
        .mk 0x00081001 (some 10000) [],
        .mk 0x0001f003 none [1],
        .mk 0x00081001 (some 7543) [],
        .mk 0x0001f003 none [0],
        .mk 0x00081001 (some 12457) []]
    ∃ session, ofBytes (coding.encodeAll items) Options.standard = .ok session ∧
      ∃ earlier later, session.TimeAt 0 earlier ∧ session.TimeAt 3 later ∧ earlier ≤ later := by
  intro items
  have hopen : ofBytes (coding.encodeAll items) Options.standard = .ok _ :=
    ofBytes_encodeAll rfl rfl (by decide)
  obtain ⟨others, hothers, -, htimes⟩ := times_of_cpu_ascend hopen rfl
  obtain rfl := encodeAll_injective hothers
  refine ⟨_, hopen, ?_⟩
  exact htimes 0 (by decide) [] _ [_, _] _ [] rfl rfl rfl (by decide)

/-- The counters of each processor ascend, and yet a record of the second one
is later than the next: it borrows the counter of the first processor, and the
counter that its own processor carries next is lower. -/
theorem borrowed_counter_runs_ahead :
    let items : List Stored :=
      [.mk 0x0001f003 none [0],
        .mk 0x00081001 (some 10000) [],
        .mk 0x0001f003 none [1],
        .mk 0x00081001 none [],
        .mk 0x00081001 (some 7543) []]
    (∀ cpu, (carried (onCpu cpu (coding.events items))).Pairwise (· ≤ ·)) ∧
      ∃ session, ofBytes (coding.encodeAll items) Options.standard = .ok session ∧
        session.records.map (·.cpu) = [0, 1, 1] ∧
        session.TimeAt 1 0 ∧ session.TimeAt 2 (-1024) := by
  intro items
  constructor
  · intro cpu
    by_cases hfirst : cpu = 0
    · subst hfirst
      decide
    · by_cases hsecond : cpu = 1
      · subst hsecond
        decide
      · have hnone : onCpu cpu (coding.events items) = [] := by
          rw [onCpu, List.filter_eq_nil_iff]
          intro row hrow
          have hcpu : row.cpu ∈ [0, 1, 1] := List.mem_map_of_mem (f := (·.cpu)) hrow
          rw [decide_eq_true_eq]
          rintro rfl
          simp [hfirst, hsecond] at hcpu
        rw [hnone]
        exact .nil
  · exact ⟨_, ofBytes_encodeAll rfl rfl (by decide), rfl, by decide, by decide⟩

/-- If the counters that a stream's events carry ascend, over all processors,
then the time of every record is at most that of every later record that
carries a counter of its own or comes from the same processor. Relative times
then start at zero and are never negative, whether the first record carries a
counter or not. -/
theorem times_ascend (hopen : ofBytes bytes options = .ok session)
    (hformat : options.format = .trec) :
    ∃ items, coding.encodeAll items = bytes ∧
      List.Forall₂ Record.OfRow session.records (coding.events items) ∧
      ((carried (coding.events items)).Pairwise (· ≤ ·) →
        (∀ before row between next after,
          coding.events items = before ++ row :: (between ++ next :: after) →
          next.item.head.isSome ∨ next.cpu = row.cpu →
          ∃ earlier later, session.TimeAt before.length earlier ∧
            session.TimeAt (before ++ row :: between).length later ∧ earlier ≤ later) ∧
        (options.clock.absolute = false →
          session.TimeAt 0 0 ∧
          ∀ index < session.length, ∃ time, session.TimeAt index time ∧ 0 ≤ time)) := by
  obtain ⟨items, hbytes, hrecords, hoptions⟩ := exists_items_of_ofBytes hopen hformat
  refine ⟨items, hbytes, hrecords ▸ complete_ofRow _, ?_⟩
  intro hascending
  constructor
  · intro before row between next after hevents hlater
    rw [hevents] at hrecords hascending
    exact timeAt_le_timeAt hrecords (stamp_le_of_ascending hascending hlater)
  · intro hrelative
    rw [← hoptions] at hrelative
    refine ⟨?_, fun index hindex => timeAt_nonneg hrecords hrelative hascending hindex⟩
    obtain ⟨-, -, hsome, -⟩ := ofBytes_eq_ok_iff.mp hopen
    cases hevents : coding.events items with
    | nil =>
        rw [hevents] at hrecords
        exact absurd hrecords hsome
    | cons first rest => exact timeAt_first (hevents ▸ hrecords) hrelative

/-- A record without a counter at the front of a stream, and one at the front
of a second processor: the first has time zero, the second one that of the
record before it, and the time of the last record is no earlier. -/
theorem times_ascend_from_leading_record :
    let items : List Stored :=
      [.mk 0x0001f003 none [0],
        .mk 0x00081001 none [],
        .mk 0x00081001 (some 10000) [],
        .mk 0x0001f003 none [1],
        .mk 0x00081001 none [],
        .mk 0x00081001 (some 12457) []]
    ∃ session, ofBytes (coding.encodeAll items) Options.standard = .ok session ∧
      session.TimeAt 0 0 ∧ (∃ time, session.TimeAt 2 time ∧ 0 ≤ time) ∧
      ∃ earlier later, session.TimeAt 2 earlier ∧ session.TimeAt 3 later ∧ earlier ≤ later := by
  intro items
  have hopen : ofBytes (coding.encodeAll items) Options.standard = .ok _ :=
    ofBytes_encodeAll rfl rfl (by decide)
  obtain ⟨others, hothers, -, htimes⟩ := times_ascend hopen rfl
  obtain rfl := encodeAll_injective hothers
  obtain ⟨hordered, hrelative⟩ := htimes (by decide)
  obtain ⟨hfirst, hnonneg⟩ := hrelative rfl
  refine ⟨_, hopen, hfirst, hnonneg 2 (by decide), ?_⟩
  exact hordered [_, _] _ [] _ [] rfl (Or.inl rfl)

end HypervisorTrace.Session
