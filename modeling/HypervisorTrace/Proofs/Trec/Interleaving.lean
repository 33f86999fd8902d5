import HypervisorTrace.Proofs.Trec.Reading

/-!
What the records of one processor depend on. Of all that the tracker knows,
the rows of a processor are completed from its own guest, its own counter, and,
before it has one, the latest counter of all. Rows of other processors leave
the first two alone. So streams that have the same items on a processor, with
whatever items of others between them, give it the same records, but for their
offsets and for the counters before its first own one.
-/

namespace HypervisorTrace.Wire.Trec

/-- The items that are recorded on a processor: those that are reached while it
is the current one, but for changes of processor. -/
def itemsOn (cpu : UInt16) (items : List Stored) : List (Item (Option UInt64)) :=
  (onCpu cpu (coding.events items)).map (·.item)

def recordsOn (cpu : UInt16) (records : List Record) : List Record :=
  records.filter (·.cpu = cpu)

/-- What a record shows besides its counter and its place. -/
def shown (record : Record) : Word × Event.Payload × Guest :=
  (record.eventId, record.extra, record.guest)

/-- The number of items before the first one with a counter. -/
def itemsBeforeCounter (items : List (Item (Option UInt64))) : Nat :=
  (items.takeWhile (·.head.isNone)).length

/-- What the records of some items on one processor show besides their counters,
when the processor runs a guest before the first of them. -/
def shownFrom (guest : Guest) : List (Item (Option UInt64)) → List (Word × Event.Payload × Guest)
  | [] => []
  | item :: rest =>
    (item.id, item.extra, guest) :: shownFrom ((incoming item.id item.extra).getD guest) rest

/-- The counters of some items on one processor after a known one. -/
def countersFrom (counter : UInt64) : List (Item (Option UInt64)) → List UInt64
  | [] => []
  | item :: rest => item.head.getD counter :: countersFrom (item.head.getD counter) rest

namespace Tracker

variable (tracker : Tracker) (row : Row (Option UInt64)) (rest : List (Row (Option UInt64)))

theorem recordsOn_cons_of_eq {cpu : UInt16} (hcpu : row.cpu = cpu) :
    recordsOn cpu (tracker.records (row :: rest)) =
      tracker.record row :: recordsOn cpu ((tracker.advance row).records rest) := by
  have hrecord : (tracker.record row).cpu = cpu := hcpu
  rw [records, recordsOn, List.filter_cons_of_pos (by simpa using hrecord), recordsOn]

theorem recordsOn_cons_of_ne {cpu : UInt16} (hcpu : row.cpu ≠ cpu) :
    recordsOn cpu (tracker.records (row :: rest)) =
      recordsOn cpu ((tracker.advance row).records rest) := by
  have hrecord : (tracker.record row).cpu ≠ cpu := hcpu
  rw [records, recordsOn, List.filter_cons_of_neg (by simpa using hrecord), recordsOn]

theorem guest_advance_of_eq {cpu : UInt16} (hcpu : row.cpu = cpu) :
    (tracker.advance row).guest cpu =
      (incoming row.item.id row.item.extra).getD (tracker.guest cpu) := by
  simp only [guest, advance, get?_switch_of_eq _ hcpu]
  cases incoming row.item.id row.item.extra <;> rfl

theorem guest_advance_of_ne {cpu : UInt16} (hcpu : row.cpu ≠ cpu) :
    (tracker.advance row).guest cpu = tracker.guest cpu := by
  simp only [guest, advance, get?_switch_of_ne _ hcpu]

theorem counters_advance_of_eq {cpu : UInt16} (hcpu : row.cpu = cpu) :
    (tracker.advance row).counters.get? cpu = row.item.head.or (tracker.counters.get? cpu) := by
  rw [advance]
  cases row.item.head <;> simp [hcpu]

theorem counters_advance_of_ne {cpu : UInt16} (hcpu : row.cpu ≠ cpu) :
    (tracker.advance row).counters.get? cpu = tracker.counters.get? cpu := by
  rw [advance]
  cases row.item.head <;> simp [Ne.symm hcpu]

end Tracker

theorem onCpu_cons_of_eq {cpu : UInt16} {row : Row (Option UInt64)}
    (rest : List (Row (Option UInt64))) (hcpu : row.cpu = cpu) :
    onCpu cpu (row :: rest) = row :: onCpu cpu rest :=
  List.filter_cons_of_pos (by simpa using hcpu)

theorem onCpu_cons_of_ne {cpu : UInt16} {row : Row (Option UInt64)}
    (rest : List (Row (Option UInt64))) (hcpu : row.cpu ≠ cpu) :
    onCpu cpu (row :: rest) = onCpu cpu rest :=
  List.filter_cons_of_neg (by simpa using hcpu)

namespace Tracker

/-- What the records of a processor show is told by its own items, and by the
guest that runs on it at first. -/
theorem map_shown_recordsOn (tracker : Tracker) (rows : List (Row (Option UInt64)))
    (cpu : UInt16) :
    (recordsOn cpu (tracker.records rows)).map shown =
      shownFrom (tracker.guest cpu) ((onCpu cpu rows).map (·.item)) := by
  induction rows generalizing tracker with
  | nil => rfl
  | cons row rest ih =>
      by_cases hcpu : row.cpu = cpu
      · have hrecord : shown (tracker.record row) =
            (row.item.id, row.item.extra, tracker.guest cpu) := by
          rw [← hcpu]
          rfl
        rw [recordsOn_cons_of_eq tracker row rest hcpu, onCpu_cons_of_eq rest hcpu,
          List.map_cons, List.map_cons, ih, guest_advance_of_eq tracker row hcpu, hrecord,
          shownFrom]
      · rw [recordsOn_cons_of_ne tracker row rest hcpu, onCpu_cons_of_ne rest hcpu, ih,
          guest_advance_of_ne tracker row hcpu]

/-- Once a counter of a processor is known, the counters of its records are told
by its own items. -/
theorem map_counter_recordsOn {tracker : Tracker} (rows : List (Row (Option UInt64)))
    {cpu : UInt16} {counter : UInt64} (hknown : tracker.counters.get? cpu = some counter) :
    (recordsOn cpu (tracker.records rows)).map (·.counter) =
      countersFrom counter ((onCpu cpu rows).map (·.item)) := by
  induction rows generalizing tracker counter with
  | nil => rfl
  | cons row rest ih =>
      by_cases hcpu : row.cpu = cpu
      · have hnext : (tracker.advance row).counters.get? cpu =
            some (row.item.head.getD counter) := by
          rw [counters_advance_of_eq tracker row hcpu, hknown]
          cases row.item.head <;> rfl
        have hcounter : (tracker.record row).counter = row.item.head.getD counter := by
          rw [record, Tracker.counter, hcpu, hknown]
          rfl
        rw [recordsOn_cons_of_eq tracker row rest hcpu, onCpu_cons_of_eq rest hcpu,
          List.map_cons, List.map_cons, ih hnext, hcounter, countersFrom]
      · rw [recordsOn_cons_of_ne tracker row rest hcpu, onCpu_cons_of_ne rest hcpu,
          ih ((counters_advance_of_ne tracker row hcpu).trans hknown)]

/-- From its first own counter on, the counters of a processor's records are
told by its own items. -/
theorem drop_counter_recordsOn (tracker : Tracker) (rows : List (Row (Option UInt64)))
    {cpu : UInt16} (hunknown : tracker.counters.get? cpu = none) :
    ((recordsOn cpu (tracker.records rows)).map (·.counter)).drop
        (itemsBeforeCounter ((onCpu cpu rows).map (·.item))) =
      countersFrom 0 (((onCpu cpu rows).map (·.item)).drop
        (itemsBeforeCounter ((onCpu cpu rows).map (·.item)))) := by
  induction rows generalizing tracker with
  | nil => rfl
  | cons row rest ih =>
      by_cases hcpu : row.cpu = cpu
      · have hnext := counters_advance_of_eq tracker row hcpu
        rw [recordsOn_cons_of_eq tracker row rest hcpu, onCpu_cons_of_eq rest hcpu,
          List.map_cons, List.map_cons, itemsBeforeCounter, List.takeWhile_cons]
        cases hhead : row.item.head with
        | none =>
            rw [hhead, Option.none_or, hunknown] at hnext
            simp only [Option.isNone_none, if_true, List.length_cons, List.drop_succ_cons]
            exact ih _ hnext
        | some counter =>
            -- The first own counter: nothing is dropped, and from here on one
            -- is known.
            rw [hhead, Option.some_or] at hnext
            have hcounter : (tracker.record row).counter = counter := by
              rw [record, Tracker.counter, hhead]
              rfl
            simp only [Option.isNone_some, Bool.false_eq_true, if_false, List.length_nil,
              List.drop_zero]
            rw [map_counter_recordsOn rest hnext, hcounter, countersFrom, hhead]
            rfl
      · rw [recordsOn_cons_of_ne tracker row rest hcpu, onCpu_cons_of_ne rest hcpu]
        exact ih _ ((counters_advance_of_ne tracker row hcpu).trans hunknown)

end Tracker

/-- The records of a processor are told by the items that are recorded on it.
Any two streams that are read are the encodings of two lists of items; where
these have the same items on a processor, its records are equally many, and
have the same ids, extra words and guests in the same order, and from the first
one with a counter of its own also the same counters. -/
theorem records_of_cpu_congr {first second : List UInt8} {records others : List Record}
    (hfirst : Format.trec.read first = .ok records)
    (hsecond : Format.trec.read second = .ok others) :
    ∃ items otherItems, coding.encodeAll items = first ∧ coding.encodeAll otherItems = second ∧
      List.Forall₂ Record.OfRow records (coding.events items) ∧
      List.Forall₂ Record.OfRow others (coding.events otherItems) ∧
      ∀ cpu, itemsOn cpu items = itemsOn cpu otherItems →
        (recordsOn cpu records).length = (recordsOn cpu others).length ∧
        (recordsOn cpu records).map shown = (recordsOn cpu others).map shown ∧
        ((recordsOn cpu records).drop (itemsBeforeCounter (itemsOn cpu items))).map (·.counter) =
          ((recordsOn cpu others).drop (itemsBeforeCounter (itemsOn cpu items))).map
            (·.counter) := by
  obtain ⟨items, hitems, rfl⟩ := exists_items_of_read hfirst
  obtain ⟨otherItems, hothers, rfl⟩ := exists_items_of_read hsecond
  refine ⟨items, otherItems, hitems, hothers, complete_ofRow _, complete_ofRow _, ?_⟩
  intro cpu hsame
  have hshown : (recordsOn cpu (complete (coding.events items))).map shown =
      (recordsOn cpu (complete (coding.events otherItems))).map shown := by
    rw [complete, complete, Tracker.map_shown_recordsOn, Tracker.map_shown_recordsOn]
    exact congrArg (shownFrom (Guest.idle cpu)) hsame
  refine ⟨?_, hshown, ?_⟩
  · have hlength := congrArg List.length hshown
    rw [List.length_map, List.length_map] at hlength
    exact hlength
  · have hcounters (stored : List Stored) :
        ((recordsOn cpu (complete (coding.events stored))).map (·.counter)).drop
            (itemsBeforeCounter (itemsOn cpu stored)) =
          countersFrom 0 ((itemsOn cpu stored).drop (itemsBeforeCounter (itemsOn cpu stored))) :=
      (Tracker.start (coding.events stored)).drop_counter_recordsOn _ rfl
    rw [List.map_drop, List.map_drop, hcounters items, hsame, hcounters otherItems]

/-- Processor one by itself, and between buffers of processor zero. The first
record on it has no counter of its own, and takes one of processor zero if it
can; the others are the same. -/
theorem records_of_cpu_congr_two_buffers :
    let items : List Stored :=
      [.mk 0x0001f003 none [1], .mk 0x00021101 none [0x00020003],
        .mk 0x00081001 (some 30) [], .mk 0x00081001 none [5]]
    let otherItems : List Stored :=
      [.mk 0x00021101 (some 10) [0x00040000], .mk 0x0001f003 none [1],
        .mk 0x00021101 none [0x00020003], .mk 0x0001f003 none [0], .mk 0x00081001 (some 20) [],
        .mk 0x0001f003 none [1], .mk 0x00081001 (some 30) [], .mk 0x00081001 none [5]]
    ∃ records others, Format.trec.read (coding.encodeAll items) = .ok records ∧
      Format.trec.read (coding.encodeAll otherItems) = .ok others ∧
      (recordsOn 1 others).map shown = (recordsOn 1 records).map shown ∧
      (recordsOn 1 records).map (·.counter) = [30, 30, 30] ∧
      (recordsOn 1 others).map (·.counter) = [10, 30, 30] ∧
      ((recordsOn 1 others).drop 1).map (·.counter) =
        ((recordsOn 1 records).drop 1).map (·.counter) := by
  intro items otherItems
  have hfirst := read_encodeAll items
  have hsecond := read_encodeAll otherItems
  obtain ⟨_, _, hitems, hothers, -, -, hcongr⟩ := records_of_cpu_congr hfirst hsecond
  obtain rfl := encodeAll_injective hitems
  obtain rfl := encodeAll_injective hothers
  obtain ⟨-, hshown, hcounters⟩ := hcongr 1 (by decide)
  exact ⟨_, _, hfirst, hsecond, hshown.symm, by decide, by decide, hcounters.symm⟩

end HypervisorTrace.Wire.Trec
