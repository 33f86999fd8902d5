import HypervisorTrace.Proofs.FixedHeader.Reading
import HypervisorTrace.Proofs.Trec.Concatenation

/-!
Reading two streams as one. If the first is read, then reading both fails
exactly where the second fails, and otherwise gives the records of both: those
of the second later by the length of the first, and those of the first as they
are. One thing can reach back over the boundary: records of the tracing tool's
framing take the first counter of the second stream if the first has none. One
thing reaches over it forwards in both framings, the processor, and in the
framing with a fixed header nothing else.
-/

namespace HypervisorTrace

namespace Record

def later (length : Nat) (record : Record) : Record :=
  { record with offset := length + record.offset }

/-- What a record has from its item alone, and where. -/
def stored (record : Record) : Word × Event.Payload × Nat :=
  (record.eventId, record.extra, record.offset)

/-- The records of a stream after another one of some length: later by that
length, and the first of them, up to a count, on the processor on which that
other one ends. -/
def continued (length : Nat) (cpu : UInt16) (count : Nat) (records : List Record) : List Record :=
  (records.take count).map (fun record => { record.later length with cpu := cpu }) ++
    (records.drop count).map (later length)

end Record

namespace Wire

theorem map_stored_ofRow {Head : Type} {records : List Record} {rows : List (Row Head)}
    (hrecords : List.Forall₂ Record.OfRow records rows) :
    records.map Record.stored = rows.map fun row => (row.item.id, row.item.extra, row.offset) := by
  induction hrecords with
  | nil => rfl
  | cons hrow _ ih =>
      rw [List.map_cons, List.map_cons, ih, Record.stored, hrow.eventId, hrow.extra, hrow.offset]

theorem map_stored_continued {Head : Type} {records others : List Record} {rows : List (Row Head)}
    {length count : Nat} {cpu : UInt16}
    (hrecords : List.Forall₂ Record.OfRow records (Wire.continued length cpu count rows))
    (hothers : List.Forall₂ Record.OfRow others rows) :
    records.map Record.stored = (others.map (Record.later length)).map Record.stored := by
  have hrows : (others.map (Record.later length)).map Record.stored =
      (others.map Record.stored).map fun (id, extra, offset) => (id, extra, length + offset) := by
    rw [List.map_map, List.map_map]
    rfl
  rw [map_stored_ofRow hrecords, hrows, map_stored_ofRow hothers, Wire.continued, List.map_append,
    List.map_map, List.map_map, List.map_map]
  conv => rhs; rw [← List.take_append_drop count rows, List.map_append]
  rfl

theorem Trec.map_stored_stampedBy (rows others : List (Row (Option UInt64))) :
    (Trec.stampedBy rows others).map Record.stored =
      (Trec.complete rows).map Record.stored := by
  unfold Trec.stampedBy
  split
  · rw [List.map_map]
    rfl
  · rfl

theorem Trec.carried_continued (length : Nat) (cpu : UInt16) (count : Nat)
    (rows : List (Row (Option UInt64))) :
    Trec.carried (Wire.continued length cpu count rows) = Trec.carried rows := by
  have hitems (list : List (Row (Option UInt64))) :
      Trec.carried list = (list.map (·.item)).filterMap (·.head) := by
    rw [Trec.carried, List.filterMap_map]
    rfl
  rw [hitems, map_item_continued, ← hitems]

theorem FixedHeader.map_record_continued (length : Nat) (cpu : UInt16) (count : Nat)
    (rows : List (Row FixedHeader.Head)) :
    (Wire.continued length cpu count rows).map FixedHeader.record =
      Record.continued length cpu count (rows.map FixedHeader.record) := by
  rw [Wire.continued, Record.continued, List.map_append, List.map_map, List.map_map,
    ← List.map_take, ← List.map_drop, List.map_map, List.map_map]
  rfl

theorem FixedHeader.records_ofRow (rows : List (Row FixedHeader.Head)) :
    List.Forall₂ Record.OfRow (rows.map FixedHeader.record) rows := by
  induction rows with
  | nil => exact .nil
  | cons row rest ih => exact .cons ⟨rfl, rfl, rfl, rfl⟩ ih

namespace Format

/-- How the records of a whole stream are made of those that its two parts have
by themselves. -/
structure Joined (format : Format) (front back : List UInt8)
    (first second whole : List Record) : Prop where
  stored : whole.map Record.stored =
    first.map Record.stored ++ (second.map (Record.later front.length)).map Record.stored
  /-- The records of the first part change only if none of its events has a
  counter, and then only from zero to the first counter of the second part's
  events. -/
  trec : format = .trec → ∃ items others,
    Trec.coding.encodeAll items = front ∧ Trec.coding.encodeAll others = back ∧
    (Trec.carried (Trec.coding.events items) ≠ [] → whole.take first.length = first) ∧
    (Trec.carried (Trec.coding.events items) = [] →
      (∀ record ∈ first, record.counter = 0) ∧
      whole.take first.length = first.map fun record =>
        { record with counter := (Trec.carried (Trec.coding.events others)).head?.getD 0 })
  fixedHeader : format = .fixedHeader → ∃ items others,
    FixedHeader.coding.encodeAll items = front ∧ FixedHeader.coding.encodeAll others = back ∧
    whole = first ++ Record.continued front.length
      (cpuAfter (items.map FixedHeader.coding.item))
      (itemsBeforeChange (others.map FixedHeader.coding.item)) second

theorem trec_joined (items others : List Trec.Stored) :
    Joined .trec (Trec.coding.encodeAll items) (Trec.coding.encodeAll others)
      (Trec.complete (Trec.coding.events items)) (Trec.complete (Trec.coding.events others))
      (Trec.complete (Trec.coding.events (items ++ others))) := by
  obtain ⟨later, hwhole, hlater⟩ :=
    Trec.complete_append (Trec.coding.events items) (Trec.coding.eventsAfter items others)
  have hlength :=
    Trec.length_stampedBy (Trec.coding.events items) (Trec.coding.eventsAfter items others)
  have hcarriedAfter : Trec.carried (Trec.coding.eventsAfter items others) =
      Trec.carried (Trec.coding.events others) :=
    Trec.carried_continued _ _ _ _
  rw [Trec.coding.events_append, hwhole]
  constructor
  case stored =>
    rw [List.map_append, map_stored_continued hlater (Trec.complete_ofRow _),
      Trec.map_stored_stampedBy]
  case trec =>
    intro _
    refine ⟨items, others, rfl, rfl, ?_, ?_⟩
    · intro hcarried
      rw [← hlength, List.take_left, Trec.stampedBy, if_neg hcarried]
    · intro hcarried
      refine ⟨Trec.counter_of_carried_nil hcarried, ?_⟩
      rw [← hlength, List.take_left, Trec.stampedBy, if_pos hcarried, hcarriedAfter]
  case fixedHeader =>
    intro hformat
    cases hformat

theorem fixedHeader_joined (items others : List FixedHeader.Stored) :
    Joined .fixedHeader (FixedHeader.coding.encodeAll items) (FixedHeader.coding.encodeAll others)
      ((FixedHeader.coding.events items).map FixedHeader.record)
      ((FixedHeader.coding.events others).map FixedHeader.record)
      ((FixedHeader.coding.events (items ++ others)).map FixedHeader.record) := by
  have hlater := FixedHeader.records_ofRow (FixedHeader.coding.eventsAfter items others)
  rw [FixedHeader.coding.events_append, List.map_append]
  constructor
  case stored =>
    rw [List.map_append, map_stored_continued hlater (FixedHeader.records_ofRow _)]
  case trec =>
    intro hformat
    cases hformat
  case fixedHeader =>
    intro _
    refine ⟨items, others, rfl, rfl, ?_⟩
    rw [Coding.eventsAfter, FixedHeader.map_record_continued]

/-- A stream after one that is read fails as it does by itself, only later. -/
theorem read_append_of_error (format : Format) {front back : List UInt8} {first : List Record}
    {report : Truncation} (hfirst : format.read front = .ok first)
    (hback : format.read back = .error report) :
    format.read (front ++ back) = .error (report.later front.length) := by
  cases format with
  | trec =>
      obtain ⟨items, rfl, -⟩ := Trec.exists_items_of_read hfirst
      have hsplit : Trec.framing.split back = .error report := eq_error_of_map hback
      rw [read, Trec.coding.split_encodeAll_append, hsplit]
      rfl
  | fixedHeader =>
      obtain ⟨items, rfl, -⟩ := FixedHeader.exists_stored_of_read hfirst
      have hsplit : FixedHeader.framing.split back = .error report := eq_error_of_map hback
      rw [read, FixedHeader.coding.split_encodeAll_append, hsplit]
      rfl

/-- Two streams that are both read are read as one. -/
theorem exists_joined (format : Format) {front back : List UInt8} {first second : List Record}
    (hfirst : format.read front = .ok first) (hsecond : format.read back = .ok second) :
    ∃ whole, format.read (front ++ back) = .ok whole ∧
      Joined format front back first second whole := by
  cases format with
  | trec =>
      obtain ⟨items, rfl, rfl⟩ := Trec.exists_items_of_read hfirst
      obtain ⟨others, rfl, rfl⟩ := Trec.exists_items_of_read hsecond
      refine ⟨_, ?_, trec_joined items others⟩
      rw [← Trec.coding.encodeAll_append, Trec.read_encodeAll]
  | fixedHeader =>
      obtain ⟨items, rfl, rfl⟩ := FixedHeader.exists_stored_of_read hfirst
      obtain ⟨others, rfl, rfl⟩ := FixedHeader.exists_stored_of_read hsecond
      refine ⟨_, ?_, fixedHeader_joined items others⟩
      rw [← FixedHeader.coding.encodeAll_append, FixedHeader.read_encodeAll]

/-- Reading is compositional where a stream that is read ends: what follows it
fails exactly if it fails by itself, with the same number of missing bytes and
a later offset, and otherwise its records follow those of the first stream. -/
theorem read_after_read (format : Format) {front : List UInt8} {first : List Record}
    (hfirst : format.read front = .ok first) (back : List UInt8) :
    ((∃ report, format.read (front ++ back) = .error report) ↔
      ∃ report, format.read back = .error report) ∧
    (∀ report, format.read back = .error report →
      format.read (front ++ back) = .error (report.later front.length)) ∧
    (∀ second, format.read back = .ok second →
      ∃ whole, format.read (front ++ back) = .ok whole ∧
        Joined format front back first second whole) := by
  refine ⟨⟨?_, ?_⟩, fun report => format.read_append_of_error hfirst,
    fun second => format.exists_joined hfirst⟩
  · rintro ⟨report, hwhole⟩
    cases hback : format.read back with
    | error other => exact ⟨other, rfl⟩
    | ok second =>
        obtain ⟨whole, hok, -⟩ := format.exists_joined hfirst hback
        rw [hok] at hwhole
        cases hwhole
  · rintro ⟨report, hback⟩
    exact ⟨_, format.read_append_of_error hfirst hback⟩

/-- A stream without counters ends on processor one. The stream after it stamps
its record, and a part of an item after it is missed where it would be. -/
theorem read_after_read_first_counter :
    let items : List Trec.Stored := [.mk 0x00081001 none [], .mk 0x0001f003 none [1]]
    let others : List Trec.Stored := [.mk 0x00081001 (some 40) [5]]
    let front := Trec.coding.encodeAll items
    let back := Trec.coding.encodeAll others
    ∃ first whole, Format.trec.read front = .ok first ∧
      Format.trec.read (front ++ back) = .ok whole ∧
      first.map (·.counter) = [0] ∧ (whole.take 1).map (·.counter) = [40] ∧
      whole.map Record.stored = [(0x00081001, [], 0), (0x00081001, [5], 12)] ∧
      Format.trec.read (front ++ back.take 7) = .error ⟨12, 9⟩ := by
  intro items others front back
  have hfirst : Format.trec.read front = .ok _ := Trec.read_encodeAll items
  have hsecond : Format.trec.read back = .ok _ := Trec.read_encodeAll others
  have hcut : Format.trec.read (back.take 7) = .error ⟨0, 9⟩ := by
    have hnext : Trec.framing.next (back.take 7) = .error 9 := by decide
    rw [read, Framing.split, Framing.splitFrom_of_error (by decide) hnext]
    rfl
  obtain ⟨-, -, hjoin⟩ := read_after_read .trec hfirst back
  obtain ⟨-, hfail, -⟩ := read_after_read .trec hfirst (back.take 7)
  obtain ⟨whole, hwhole, hjoined⟩ := hjoin _ hsecond
  obtain ⟨_, _, hitems, hothers, -, hstamped⟩ := hjoined.trec rfl
  obtain rfl := Trec.encodeAll_injective hitems
  obtain rfl := Trec.encodeAll_injective hothers
  obtain ⟨-, htake⟩ := hstamped rfl
  refine ⟨_, whole, hfirst, hwhole, by decide, ?_, hjoined.stored.trans (by decide), hfail _ hcut⟩
  have hcounters := congrArg (List.map Record.counter) htake
  exact hcounters.trans (by decide)

end Format

end Wire

end HypervisorTrace
