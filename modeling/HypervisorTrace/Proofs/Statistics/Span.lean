import HypervisorTrace.Proofs.Clock.Registers
import HypervisorTrace.Proofs.Session.Times
import HypervisorTrace.Proofs.Statistics.Conservation

/-!
The span of a trace. Statistics keep the least and the greatest time that they
have met, starting from the ends of 64 bits. Times follow counters, so what they
keep in the end are the times of the least and of the greatest counter, wherever
in the trace these are, and no two records are further apart. Absolute times are
never negative, so their span fits in 64 bits. Relative times lie on both sides
of zero, and their span may need one bit more.
-/

namespace HypervisorTrace

section Extremes

variable {values : List Int} {start extreme : Int}

theorem foldl_min_eq (hmem : extreme ∈ values) (hleast : ∀ value ∈ values, extreme ≤ value)
    (hstart : extreme ≤ start) : values.foldl min start = extreme := by
  have hmin := List.min?_eq_some_iff.mpr ⟨hmem, hleast⟩
  rw [List.foldl_min, hmin, Option.getD_some, min_eq_right hstart]

theorem foldl_max_eq (hmem : extreme ∈ values) (hgreatest : ∀ value ∈ values, value ≤ extreme)
    (hstart : start ≤ extreme) : values.foldl max start = extreme := by
  have hmax := List.max?_eq_some_iff.mpr ⟨hmem, hgreatest⟩
  rw [List.foldl_max, hmax, Option.getD_some, max_eq_right hstart]

end Extremes

namespace Counts

theorem earliest_add (counts : Counts) (entry : Entry) :
    (counts.add entry).earliest = min counts.earliest entry.time := by
  unfold add
  cases Event.name? entry.eventId <;> rfl

theorem latest_add (counts : Counts) (entry : Entry) :
    (counts.add entry).latest = max counts.latest entry.time := by
  unfold add
  cases Event.name? entry.eventId <;> rfl

theorem earliest_foldl (counts : Counts) (entries : List Entry) :
    (entries.foldl add counts).earliest = (entries.map (·.time)).foldl min counts.earliest := by
  rw [List.foldl_map]
  exact (List.foldl_hom earliest fun counts entry => (earliest_add counts entry).symm).symm

theorem latest_foldl (counts : Counts) (entries : List Entry) :
    (entries.foldl add counts).latest = (entries.map (·.time)).foldl max counts.latest := by
  rw [List.foldl_map]
  exact (List.foldl_hom latest fun counts entry => (latest_add counts entry).symm).symm

end Counts

namespace Session

open Clock Wire

/-- The times of all records. -/
def times (session : Session) : List Int :=
  session.records.map session.time

/-- The span in registers: the conversion, every time and the difference between
the extreme ones have to fit in theirs. -/
def span? (session : Session) : Option Int := do
  let conversion ← Conversion.ofClock? session.options.clock session.firstCounter
  let times ← session.records.mapM fun record => conversion.nanoseconds? record.counter
  if times.isEmpty then
    return 0
  else
    Register.holdSigned?
      (times.foldl max Int64.minValue.toInt - times.foldl min Int64.maxValue.toInt)

variable {bytes : List UInt8} {options : Options} {session : Session} {least greatest : Record}

theorem earliest_counts (session : Session) :
    session.counts.earliest = session.times.foldl min Int64.maxValue.toInt := by
  have hentries : session.entries.map (·.time) = session.times := map_entries fun _ _ => rfl
  rw [counts, Counts.earliest_foldl, hentries]
  rfl

theorem latest_counts (session : Session) :
    session.counts.latest = session.times.foldl max Int64.minValue.toInt := by
  have hentries : session.entries.map (·.time) = session.times := map_entries fun _ _ => rfl
  rw [counts, Counts.latest_foldl, hentries]
  rfl

theorem time_bounds (session : Session) (record : Record) :
    -(2 ^ 63 - 1) ≤ session.time record ∧ session.time record ≤ 2 ^ 63 - 1 := by
  have hbound : (session.time record).natAbs ≤ maxNanoseconds :=
    session.conversion.natAbs_nanoseconds_le record.counter
  rw [maxNanoseconds] at hbound
  omega

theorem time_mono {earlier later : Record} (hcounters : earlier.counter ≤ later.counter) :
    session.time earlier ≤ session.time later :=
  session.conversion.nanoseconds_mono hcounters

/-- Registers give the span if they can hold it. -/
theorem span?_eq (top : Nat) :
    session.span? = Register.holdSigned? (session.statistics top).span := by
  have hquantum := Conversion.quantum_pos session.options.clock session.firstCounter
  have htime (record : Record) : session.conversion.nanoseconds? record.counter =
      pure (session.time record) := Conversion.since?_eq hquantum _ _
  have hconversion : Conversion.ofClock? session.options.clock session.firstCounter =
      some session.conversion := Conversion.ofClock?_eq _ _
  have hspan : (session.statistics top).span =
      if 0 < session.length then session.counts.latest - session.counts.earliest else 0 := rfl
  rw [hspan, earliest_counts, latest_counts, length, times, span?, hconversion]
  simp only [Option.bind_eq_bind, Option.bind_some, htime, List.mapM_pure]
  cases session.records <;> rfl

/-- Absolute times are counted from zero, so none is negative. -/
theorem time_nonneg_of_absolute (habsolute : session.options.clock.absolute = true)
    (record : Record) : 0 ≤ session.time record := by
  have hepoch : session.conversion.epoch = 0 := by
    rw [conversion, Conversion.ofClock, habsolute]
    rfl
  apply session.conversion.nanoseconds_nonneg
  rw [hepoch]
  exact UInt64.zero_le

theorem sub_lt_of_absolute (habsolute : session.options.clock.absolute = true)
    (later earlier : Record) : session.time later - session.time earlier < 2 ^ 63 := by
  have hnonneg := time_nonneg_of_absolute habsolute earlier
  have hbound := (session.time_bounds later).2
  omega

theorem exists_timeAt {record : Record} (hrecord : record ∈ session.records) :
    ∃ index, session.TimeAt index (session.time record) := by
  obtain ⟨index, hindex⟩ := List.mem_iff_getElem?.mp hrecord
  exact ⟨index, timeAt_of_record hindex⟩

/-- Every time that is told is that of a record. -/
theorem TimeAt.exists_record {index : Nat} {time : Int} (htime : session.TimeAt index time) :
    ∃ record ∈ session.records, session.time record = time := by
  obtain ⟨record, hrecord, heq⟩ := Option.map_eq_some_iff.mp htime.1
  exact ⟨record, List.mem_of_getElem? hrecord, heq⟩

/-- Whether the times of two rows are so far apart. -/
def Differ (session : Session) (difference : Int) : Prop :=
  ∃ first second earlier later, session.TimeAt first earlier ∧ session.TimeAt second later ∧
    difference = later - earlier

/-- Two records with the extreme counters of a session. -/
structure AreExtremes (session : Session) (least greatest : Record) : Prop where
  least_mem : least ∈ session.records
  greatest_mem : greatest ∈ session.records
  between : ∀ record ∈ session.records,
    least.counter ≤ record.counter ∧ record.counter ≤ greatest.counter

theorem exists_areExtremes (hsome : session.records ≠ []) :
    ∃ least greatest, session.AreExtremes least greatest := by
  have hnonempty : session.records.toFinset.Nonempty := (List.toFinset_nonempty_iff _).mpr hsome
  obtain ⟨least, hleast_mem, hleast⟩ :=
    session.records.toFinset.exists_min_image (·.counter.toNat) hnonempty
  obtain ⟨greatest, hgreatest_mem, hgreatest⟩ :=
    session.records.toFinset.exists_max_image (·.counter.toNat) hnonempty
  simp only [List.mem_toFinset] at hleast_mem hleast hgreatest_mem hgreatest
  refine ⟨least, greatest, hleast_mem, hgreatest_mem, ?_⟩
  intro record hrecord
  exact ⟨hleast record hrecord, hgreatest record hrecord⟩

namespace AreExtremes

/-- The time of the least counter is the earliest one. -/
theorem earliest_eq (hextremes : session.AreExtremes least greatest) :
    session.counts.earliest = session.time least := by
  rw [earliest_counts]
  apply foldl_min_eq (List.mem_map_of_mem hextremes.least_mem)
  · intro time htime
    obtain ⟨record, hrecord, rfl⟩ := List.mem_map.mp htime
    exact time_mono (hextremes.between record hrecord).1
  · exact (session.time_bounds least).2

/-- The time of the greatest counter is the latest one. -/
theorem latest_eq (hextremes : session.AreExtremes least greatest) :
    session.counts.latest = session.time greatest := by
  rw [latest_counts]
  apply foldl_max_eq (List.mem_map_of_mem hextremes.greatest_mem)
  · intro time htime
    obtain ⟨record, hrecord, rfl⟩ := List.mem_map.mp htime
    exact time_mono (hextremes.between record hrecord).2
  · exact Int.le_trans (by decide) (session.time_bounds greatest).1

theorem span_eq_sub (hextremes : session.AreExtremes least greatest) (top : Nat) :
    (session.statistics top).span = session.time greatest - session.time least := by
  have hpos : 0 < session.length := List.length_pos_of_mem hextremes.least_mem
  rw [← hextremes.latest_eq, ← hextremes.earliest_eq]
  exact if_pos hpos

theorem differ (hextremes : session.AreExtremes least greatest) :
    session.Differ (session.time greatest - session.time least) := by
  obtain ⟨first, hfirst⟩ := exists_timeAt hextremes.least_mem
  obtain ⟨second, hsecond⟩ := exists_timeAt hextremes.greatest_mem
  exact ⟨first, second, _, _, hfirst, hsecond, rfl⟩

/-- No two rows are further apart than the extreme records. -/
theorem le_of_differ (hextremes : session.AreExtremes least greatest) {difference : Int}
    (hdiffer : session.Differ difference) :
    difference ≤ session.time greatest - session.time least := by
  obtain ⟨first, second, _, _, hfirst, hsecond, rfl⟩ := hdiffer
  obtain ⟨record, hrecord, rfl⟩ := hfirst.exists_record
  obtain ⟨other, hother, rfl⟩ := hsecond.exists_record
  have hlow : session.time least ≤ session.time record :=
    time_mono (hextremes.between record hrecord).1
  have hhigh : session.time other ≤ session.time greatest :=
    time_mono (hextremes.between other hother).2
  omega

end AreExtremes

/-- What the span owes to the counters. -/
structure SpansCounters (session : Session) (top : Nat) : Prop where
  exists_extremes : ∃ least greatest, session.AreExtremes least greatest
  /-- The span is the time from the least counter to the greatest one. -/
  span_eq : ∀ least greatest, session.AreExtremes least greatest →
    (session.statistics top).span = session.conversion.nanoseconds greatest.counter -
      session.conversion.nanoseconds least.counter
  nonneg : 0 ≤ (session.statistics top).span
  largest : IsGreatest {difference | session.Differ difference} (session.statistics top).span
  /-- Nothing overflows, unless relative times are further apart than 64 bits hold. -/
  computed : session.options.clock.absolute = true ∨ (session.statistics top).span < 2 ^ 63 →
    session.span? = some (session.statistics top).span
  overflows : 2 ^ 63 ≤ (session.statistics top).span → session.span? = none

/-- The span of every trace is the time from its least counter to its greatest one.
It is the largest difference of two times, and registers of 64 bits give it
whenever it fits, as it always does with absolute times. -/
theorem span_of_counters (hopen : ofBytes bytes options = .ok session) (top : Nat) :
    session.SpansCounters top := by
  obtain ⟨-, -, hsome, -⟩ := ofBytes_eq_ok_iff.mp hopen
  obtain ⟨least, greatest, hextremes⟩ := exists_areExtremes hsome
  have hspan := hextremes.span_eq_sub top
  have hordered : session.time least ≤ session.time greatest :=
    time_mono (hextremes.between greatest hextremes.greatest_mem).1
  constructor
  case exists_extremes => exact ⟨least, greatest, hextremes⟩
  case span_eq => exact fun _ _ hothers => hothers.span_eq_sub top
  case nonneg => omega
  case largest =>
    rw [hspan]
    exact ⟨hextremes.differ, fun _ hdiffer => hextremes.le_of_differ hdiffer⟩
  case computed =>
    intro hfits
    have hbound : (session.statistics top).span < 2 ^ 63 := by
      rcases hfits with habsolute | hbound
      · rw [hspan]
        exact sub_lt_of_absolute habsolute greatest least
      · exact hbound
    rw [span?_eq top]
    apply if_pos
    omega
  case overflows =>
    intro hlarge
    rw [span?_eq top]
    apply if_neg
    omega

/-- The first of three records lies between the others, and the last one has the
least counter. The relative span consists of two times, both of them rounded, and
falls short of the absolute one. -/
theorem span_of_counters_around_first :
    let records : List FixedHeader.Stored :=
      [⟨0x0001f003, 0, 0, [0, 0], by decide⟩,
        ⟨0x00081001, 0x00000000, 1000, [], by decide⟩,
        ⟨0x00081001, 0x00000000, 2000, [], by decide⟩,
        ⟨0x00081001, 0x00000000, 2, [], by decide⟩]
    let bytes := FixedHeader.coding.encodeAll records
    ∃ relative absolute,
      ofBytes bytes ⟨⟨2400000000, false⟩, .fixedHeader, 0⟩ = .ok relative ∧
      ofBytes bytes ⟨⟨2400000000, true⟩, .fixedHeader, 0⟩ = .ok absolute ∧
      relative.SpansCounters 5 ∧ absolute.SpansCounters 5 ∧
      (relative.statistics 5).span = 831 ∧
      relative.span? = some (relative.statistics 5).span ∧
      (absolute.statistics 5).span = 833 ∧
      absolute.span? = some (absolute.statistics 5).span := by
  intro records bytes
  have hopen (clock : Clock) : ofBytes bytes ⟨clock, .fixedHeader, 0⟩ = .ok _ :=
    ofBytes_encodeAll_fixedHeader rfl rfl (by decide)
  have hrelative := span_of_counters (hopen ⟨2400000000, false⟩) 5
  have habsolute := span_of_counters (hopen ⟨2400000000, true⟩) 5
  refine ⟨_, _, hopen _, hopen _, hrelative, habsolute, by decide +kernel, ?_,
    by decide +kernel, ?_⟩
  · exact hrelative.computed (Or.inr (by decide +kernel))
  · exact habsolute.computed (Or.inl rfl)

end Session

end HypervisorTrace
