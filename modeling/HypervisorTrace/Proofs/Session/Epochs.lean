import HypervisorTrace.Proofs.Session.Times

/-!
One trace with two epochs. A relative time is one distance scaled, a difference
of absolute times is one of two distances that are scaled each. Scaling rounds
down, so the parts of a distance can lose one nanosecond more than the whole
does. After the first record that makes a relative time the smaller one, before
it the larger one, as long as no absolute time is held at the largest. Nothing
but times depends on the epoch.
-/

namespace HypervisorTrace

namespace Clock.Conversion

variable (conversion : Conversion)

theorem scale_of_lt {cycles : Nat} (hbelow : conversion.scale cycles < maxNanoseconds) :
    conversion.scale cycles = cycles * 1024 / conversion.quantum := by
  rw [scale] at hbelow ⊢
  omega

/-- A distance in two parts is scaled as its parts are, or to one nanosecond
more. -/
theorem scale_add (hquantum : 0 < conversion.quantum) {first second : Nat}
    (hbelow : conversion.scale (first + second) < maxNanoseconds) :
    conversion.scale (first + second) = conversion.scale first + conversion.scale second ∨
      conversion.scale (first + second) =
        conversion.scale first + conversion.scale second + 1 := by
  have hfirst := Nat.lt_of_le_of_lt
    (conversion.scale_mono (Nat.le_add_right first second)) hbelow
  have hsecond := Nat.lt_of_le_of_lt
    (conversion.scale_mono (Nat.le_add_left second first)) hbelow
  rw [conversion.scale_of_lt hbelow, conversion.scale_of_lt hfirst,
    conversion.scale_of_lt hsecond, Nat.add_mul, Nat.add_div hquantum]
  split
  · exact Or.inr rfl
  · exact Or.inl rfl

theorem absoluteNanoseconds_eq (counter : UInt64) :
    conversion.absoluteNanoseconds counter = conversion.scale counter.toNat :=
  conversion.since_of_le UInt64.zero_le

section Difference

variable {start counter : UInt64}

/-- After an epoch, the time since it is the difference of two absolute times,
or one nanosecond less. -/
theorem since_eq_sub_of_le (hquantum : 0 < conversion.quantum) (hafter : start ≤ counter)
    (hcounter : conversion.absoluteNanoseconds counter < maxNanoseconds) :
    conversion.since start counter =
        conversion.absoluteNanoseconds counter - conversion.absoluteNanoseconds start ∨
      conversion.since start counter =
        conversion.absoluteNanoseconds counter - conversion.absoluteNanoseconds start - 1 := by
  have hparts : start.toNat + (counter.toNat - start.toNat) = counter.toNat :=
    Nat.add_sub_cancel' hafter
  have hsum := @scale_add conversion hquantum start.toNat (counter.toNat - start.toNat)
  rw [hparts] at hsum
  rw [absoluteNanoseconds_eq] at hcounter ⊢
  rw [absoluteNanoseconds_eq, conversion.since_of_le hafter]
  have := hsum (by exact_mod_cast hcounter)
  omega

/-- Before an epoch it is the difference, or one nanosecond more. -/
theorem since_eq_sub_of_ge (hquantum : 0 < conversion.quantum) (hbefore : counter ≤ start)
    (hstart : conversion.absoluteNanoseconds start < maxNanoseconds) :
    conversion.since start counter =
        conversion.absoluteNanoseconds counter - conversion.absoluteNanoseconds start ∨
      conversion.since start counter =
        conversion.absoluteNanoseconds counter - conversion.absoluteNanoseconds start + 1 := by
  -- Exchanging the epoch and the counter turns the time around.
  have hturned := conversion.since_eq_sub_of_le hquantum hbefore hstart
  rw [conversion.since_of_le hbefore] at hturned
  rw [conversion.since_of_ge hbefore]
  omega

end Difference

end Clock.Conversion

namespace Session

open Wire Clock

/-- Whether two sessions say the same of every record, times apart. -/
structure SameButTimes (session other : Session) : Prop where
  length : session.length = other.length
  eventId : ∀ index, session.eventId? index = other.eventId? index
  pid : ∀ index, session.pid? index = other.pid? index
  task : ∀ index, session.task? index = other.task? index
  eventName : ∀ index, session.eventName? index = other.eventName? index
  info : ∀ index, session.info? index = other.info? index

/-- All that is said of a record but its time comes from the records alone. -/
theorem sameButTimes_of_records {session other : Session}
    (hrecords : session.records = other.records) : session.SameButTimes other := by
  obtain ⟨records, options⟩ := session
  obtain ⟨others, chosen⟩ := other
  cases hrecords
  exact ⟨rfl, fun _ => rfl, fun _ => rfl, fun _ => rfl, fun _ => rfl, fun _ => rfl⟩

variable {bytes : List UInt8} {options : Options} {session : Session}

theorem TimeAt.unique {index : Nat} {time other : Int} (htime : session.TimeAt index time)
    (hother : session.TimeAt index other) : time = other :=
  Option.some.inj (htime.1.symm.trans hother.1)

theorem conversion_of_records {first : Record} {rest : List Record}
    (hrecords : session.records = first :: rest) :
    session.conversion = .ofClock session.options.clock first.counter := by
  rw [conversion, firstCounter, hrecords]
  rfl

/-- Whether a stream opens does not depend on the clock, nor do its records. -/
theorem ofBytes_clock (hopen : ofBytes bytes options = .ok session) (clock : Clock) :
    ofBytes bytes { options with clock := clock } =
      .ok ⟨session.records, { options with clock := clock }⟩ := by
  obtain ⟨hsignature, hread, hsome, -⟩ := ofBytes_eq_ok_iff.mp hopen
  exact ofBytes_eq_ok_iff.mpr ⟨hsignature, hread, hsome, rfl⟩

/-- A stream that opens does so with relative and with absolute times, at any
frequency. As long as the absolute times of a record and of the first one are
below the largest, the relative time of the record is their difference, or one
nanosecond less if its counter is not before the first one, or one more if it
is. Everything else is the same. -/
theorem relative_times_eq_differences (hopen : ofBytes bytes options = .ok session)
    (hertz : UInt64) :
    ∃ relative absolute first,
      ofBytes bytes { options with clock := ⟨hertz, false⟩ } = .ok relative ∧
      ofBytes bytes { options with clock := ⟨hertz, true⟩ } = .ok absolute ∧
      relative.SameButTimes absolute ∧
      absolute.record? 0 = some first ∧
      ∀ index record, absolute.record? index = some record →
        ∃ start time told, absolute.TimeAt 0 start ∧ absolute.TimeAt index time ∧
          relative.TimeAt index told ∧
          (start < maxNanoseconds → time < maxNanoseconds →
            (first.counter ≤ record.counter → told = time - start ∨ told = time - start - 1) ∧
            (record.counter < first.counter →
              told = time - start ∨ told = time - start + 1)) := by
  obtain ⟨-, -, hsome, -⟩ := ofBytes_eq_ok_iff.mp hopen
  obtain ⟨first, rest, hrecords⟩ := List.exists_cons_of_ne_nil hsome
  let relative : Session := ⟨session.records, { options with clock := ⟨hertz, false⟩ }⟩
  let absolute : Session := ⟨session.records, { options with clock := ⟨hertz, true⟩ }⟩
  have hrelative : relative.conversion = .ofClock ⟨hertz, false⟩ first.counter :=
    conversion_of_records hrecords
  have habsolute : absolute.conversion = .ofClock ⟨hertz, true⟩ first.counter :=
    conversion_of_records hrecords
  have hfirst : absolute.record? 0 = some first := by
    rw [record?, hrecords]
    rfl
  refine ⟨relative, absolute, first, ofBytes_clock hopen _, ofBytes_clock hopen _,
    sameButTimes_of_records rfl, hfirst, ?_⟩
  intro index record hrecord
  refine ⟨_, _, _, timeAt_of_record hfirst, timeAt_of_record hrecord, timeAt_of_record hrecord, ?_⟩
  rw [hrelative, habsolute]
  intro hstart htime
  have hquantum := Conversion.quantum_pos ⟨hertz, false⟩ first.counter
  constructor
  · intro hafter
    exact Conversion.since_eq_sub_of_le _ hquantum hafter htime
  · intro hbefore
    exact Conversion.since_eq_sub_of_ge _ hquantum (UInt64.le_of_lt hbefore) hstart

/-- Three records, the second after the first one and the third before it: both
relative times are a nanosecond off the difference, the one below it, the other
above. -/
theorem relative_times_eq_differences_around_first :
    let records : List FixedHeader.Stored :=
      [⟨0x0001f003, 0, 0, [0, 0], by decide⟩,
        ⟨0x00081001, 0x00000000, 1000, [], by decide⟩,
        ⟨0x00081001, 0x00000000, 2000, [], by decide⟩,
        ⟨0x00081001, 0x00000000, 2, [], by decide⟩]
    let bytes := FixedHeader.coding.encodeAll records
    ∃ relative absolute,
      ofBytes bytes ⟨⟨2400000000, false⟩, .fixedHeader, 0⟩ = .ok relative ∧
      ofBytes bytes ⟨⟨2400000000, true⟩, .fixedHeader, 0⟩ = .ok absolute ∧
      relative.SameButTimes absolute ∧
      absolute.TimeAt 0 416 ∧ absolute.TimeAt 1 833 ∧ absolute.TimeAt 2 0 ∧
      (∃ told, relative.TimeAt 1 told ∧ (told = 833 - 416 ∨ told = 833 - 416 - 1)) ∧
      (∃ told, relative.TimeAt 2 told ∧ (told = 0 - 416 ∨ told = 0 - 416 + 1)) ∧
      relative.TimeAt 1 416 ∧ relative.TimeAt 2 (-415) := by
  intro records bytes
  have hopen (clock : Clock) : ofBytes bytes ⟨clock, .fixedHeader, 0⟩ = .ok _ :=
    ofBytes_encodeAll_fixedHeader rfl rfl (by decide)
  obtain ⟨relative, absolute, first, hrelative, habsolute, hsame, hfirst, htimes⟩ :=
    relative_times_eq_differences (hopen Clock.standard) 2400000000
  obtain rfl := Except.ok.inj (hrelative.symm.trans (hopen _))
  obtain rfl := Except.ok.inj (habsolute.symm.trans (hopen _))
  obtain rfl := Option.some.inj (hfirst.symm.trans rfl)
  refine ⟨_, _, hrelative, habsolute, hsame, by decide, by decide, by decide, ?_, ?_, by decide,
    by decide⟩
  · obtain ⟨start, time, told, hstart, htime, htold, hrule⟩ := htimes 1 _ rfl
    obtain rfl := hstart.unique (show TimeAt _ 0 416 by decide)
    obtain rfl := htime.unique (show TimeAt _ 1 833 by decide)
    exact ⟨told, htold, (hrule (by decide) (by decide)).1 (by decide)⟩
  · obtain ⟨start, time, told, hstart, htime, htold, hrule⟩ := htimes 2 _ rfl
    obtain rfl := hstart.unique (show TimeAt _ 0 416 by decide)
    obtain rfl := htime.unique (show TimeAt _ 2 0 by decide)
    exact ⟨told, htold, (hrule (by decide) (by decide)).2 (by decide)⟩

end Session

end HypervisorTrace
