import HypervisorTrace.Proofs.Trec.Reading
import HypervisorTrace.Proofs.Word.Fields

/-!
The guests of records in closed form. Three kinds of event tell that a guest
is given their processor. The guest of a record is the one that the last such
event before it on its processor told of, or the idle guest of the processor.
-/

namespace HypervisorTrace.Wire.Trec

/-- The ids of the events that give their processor to a guest: the guest that
was running goes on, a change of run state whose new state, in bits 4 to 7, is
running, and a switch to the next guest. -/
def SetsGuest (id : Word) : Prop :=
  id = 0x00021002 ∨ (id &&& 0x0ffff00f = 0x00021001 ∧ id.toNat / 0x10 % 0x10 = 0) ∨
    id = 0x0002800f

instance (id : Word) : Decidable (SetsGuest id) :=
  inferInstanceAs (Decidable (_ ∨ _ ∨ _))

/-- The guest that such an event names. A switch has the domain and the virtual
processor in two words, the other events have them in the halves of one.
Missing words count as zero. -/
def guestNamed (id : Word) (extra : List Word) : Guest :=
  let first := extra.getD 0 0
  let second := extra.getD 1 0
  if id = 0x0002800f then ⟨first.toUInt16, second.toUInt16⟩
  else ⟨(first >>> 16).toUInt16, (first &&& 0xffff).toUInt16⟩

/-- The guest that runs on a processor after some rows. -/
def guestAfter (cpu : UInt16) (rows : List (Row (Option UInt64))) : Guest :=
  match ((onCpu cpu rows).filter (SetsGuest ·.item.id)).getLast? with
  | some setter => guestNamed setter.item.id setter.item.extra
  | none => ⟨0x7fff, cpu⟩

theorem newRunState_eq_zero_iff (id : Word) :
    Event.Id.newRunState id = 0 ↔ id.toNat / 0x10 % 0x10 = 0 := by
  have hzero : (0 : UInt32).toNat = 0 := rfl
  rw [← UInt32.toNat_inj, Event.Id.newRunState, Word.toNat_and_eq_mod _ _ 4 rfl,
    Word.toNat_shiftRight_eq_div _ _ 4 rfl, hzero]
  exact Iff.rfl

theorem ofPacked_eq (word : Word) :
    Guest.ofPacked word = ⟨(word >>> 16).toUInt16, (word &&& 0xffff).toUInt16⟩ := by
  rw [Guest.ofPacked, Word.upper_eq_shiftRight, Word.lower_eq_and]

/-- The tracker takes up a guest from exactly the events that set one, and takes
the guest that they name. -/
theorem incoming_eq (id : Word) (extra : List Word) :
    incoming id extra = if SetsGuest id then some (guestNamed id extra) else none := by
  have hrun : (Event.Id.isRunStateChange id && Event.Id.newRunState id == 0 ||
      id == Event.Id.continueRunning) = true ↔
      id = 0x00021002 ∨ (id &&& 0x0ffff00f = 0x00021001 ∧ id.toNat / 0x10 % 0x10 = 0) := by
    rw [Bool.or_eq_true, Bool.and_eq_true, beq_iff_eq, beq_iff_eq, newRunState_eq_zero_iff,
      Event.Id.isRunStateChange, beq_iff_eq, Event.Id.continueRunning]
    exact or_comm
  unfold incoming
  by_cases hpacked :
      id = 0x00021002 ∨ (id &&& 0x0ffff00f = 0x00021001 ∧ id.toNat / 0x10 % 0x10 = 0)
  · have hsets : SetsGuest id := by
      rcases hpacked with hcontinue | hchange
      · exact Or.inl hcontinue
      · exact Or.inr (Or.inl hchange)
    have hnext : id ≠ 0x0002800f := by
      rintro rfl
      revert hpacked
      decide
    rw [if_pos (hrun.mpr hpacked), if_pos hsets, guestNamed, if_neg hnext, ofPacked_eq]
    rfl
  · rw [if_neg (fun hboth => hpacked (hrun.mp hboth))]
    by_cases hnext : id = 0x0002800f
    · have hsets : SetsGuest id := Or.inr (Or.inr hnext)
      have hswitch : (id == Event.Id.switchNext) = true := beq_iff_eq.mpr hnext
      rw [if_pos hswitch, if_pos hsets, guestNamed, if_pos hnext,
        Word.lower_eq_toUInt16, Word.lower_eq_toUInt16]
      rfl
    · have hsets : ¬ SetsGuest id := by
        rintro (hcontinue | hchange | hswitch)
        · exact hpacked (Or.inl hcontinue)
        · exact hpacked (Or.inr hchange)
        · exact hnext hswitch
      have hswitch : ¬ (id == Event.Id.switchNext) = true :=
        fun hequal => hnext (beq_iff_eq.mp hequal)
      rw [if_neg hswitch, if_neg hsets]

theorem switchedTo_eq (rows : List (Row (Option UInt64))) :
    switchedTo rows =
      (rows.filter (SetsGuest ·.item.id)).map fun row => guestNamed row.item.id row.item.extra := by
  induction rows with
  | nil => rfl
  | cons row rest ih =>
      rw [switchedTo] at ih ⊢
      rw [List.filterMap_cons, List.filter_cons, ih, incoming_eq]
      by_cases hsets : SetsGuest row.item.id
      · simp only [hsets, if_true, decide_true, List.map_cons]
      · simp only [hsets, if_false, decide_false, Bool.false_eq_true]

theorem run_guest_eq_guestAfter (rows before : List (Row (Option UInt64))) (cpu : UInt16) :
    ((Tracker.start rows).run before).guest cpu = guestAfter cpu before := by
  have hstart : (Tracker.start rows).guests.get? cpu = none := rfl
  rw [Tracker.guest, Tracker.run_guests, hstart, Option.or_none, switchedTo_eq,
    List.getLast?_map, guestAfter]
  cases ((onCpu cpu before).filter (SetsGuest ·.item.id)).getLast? <;> rfl

/-- The guest that an event sets stays until the next event of its
processor. -/
theorem guestAfter_of_setsGuest {cpu : UInt16} {setter : Row (Option UInt64)}
    (before between : List (Row (Option UInt64))) (hcpu : setter.cpu = cpu)
    (hsets : SetsGuest setter.item.id) (hbetween : ∀ row ∈ between, row.cpu ≠ cpu) :
    guestAfter cpu (before ++ setter :: between) =
      guestNamed setter.item.id setter.item.extra := by
  have hothers : onCpu cpu between = [] := by
    rw [onCpu, List.filter_eq_nil_iff]
    intro row hrow
    simpa using hbetween row hrow
  have hrows : onCpu cpu (before ++ setter :: between) = onCpu cpu before ++ [setter] := by
    rw [List.append_cons, onCpu_append, onCpu_append, hothers, onCpu_singleton_of_eq hcpu,
      List.append_nil]
  rw [guestAfter, hrows, List.filter_append]
  simp [hsets]

/-- The guest that runs on a processor is told by the items of its own rows. -/
theorem guestAfter_congr {cpu : UInt16} {rows others : List (Row (Option UInt64))}
    (hitems : (onCpu cpu rows).map (·.item) = (onCpu cpu others).map (·.item)) :
    guestAfter cpu rows = guestAfter cpu others := by
  have hswitched (list : List (Row (Option UInt64))) : switchedTo list =
      (list.map (·.item)).filterMap fun item => incoming item.id item.extra := by
    rw [switchedTo, List.filterMap_map]
    rfl
  rw [← run_guest_eq_guestAfter [] rows, ← run_guest_eq_guestAfter [] others,
    Tracker.guest, Tracker.guest, Tracker.run_guests, Tracker.run_guests,
    hswitched, hswitched, hitems]

/-- The guest of every record of a stream that is read, in closed form. The
stream is the encoding of a list of items, the records are its events one for
one, and the record of an event has the guest that the last event before it on
its processor that sets one has named. So in any two streams two events of one
processor have the same guest if the items before them on it are the same,
whatever the events themselves, the items of other processors and the changes
of processor are. -/
theorem guest_of_every_record {bytes : List UInt8} {records : List Record}
    (hread : Format.trec.read bytes = .ok records) :
    ∃ items, coding.encodeAll items = bytes ∧
      List.Forall₂ Record.OfRow records (coding.events items) ∧
      ∀ before row after, coding.events items = before ++ row :: after →
        records[before.length]?.map (·.guest) = some (guestAfter row.cpu before) ∧
        ∀ (others : List Stored) before' row' after',
          coding.events others = before' ++ row' :: after' → row'.cpu = row.cpu →
          (onCpu row.cpu before').map (·.item) = (onCpu row.cpu before).map (·.item) →
          ∃ records', Format.trec.read (coding.encodeAll others) = .ok records' ∧
            records'[before'.length]?.map (·.guest) = records[before.length]?.map (·.guest) := by
  obtain ⟨items, hbytes, rfl⟩ := exists_items_of_read hread
  have hguest (stored : List Stored) (before : List (Row (Option UInt64)))
      (row : Row (Option UInt64)) (after : List (Row (Option UInt64)))
      (hevents : coding.events stored = before ++ row :: after) :
      (complete (coding.events stored))[before.length]?.map (·.guest) =
        some (guestAfter row.cpu before) := by
    rw [hevents, complete, Tracker.getElem?_records, Option.map_some]
    exact congrArg some (run_guest_eq_guestAfter _ before row.cpu)
  refine ⟨items, hbytes, complete_ofRow _, ?_⟩
  intro before row after hevents
  refine ⟨hguest items before row after hevents, ?_⟩
  intro others before' row' after' hothers hcpu hsame
  refine ⟨_, read_encodeAll others, ?_⟩
  rw [hguest others before' row' after' hothers, hguest items before row after hevents, hcpu,
    guestAfter_congr hsame]

/-- Two processors switch guests, and each keeps its own: the last record, on
the first processor, is in the guest that was switched to there. -/
theorem guest_of_every_record_two_cpus :
    let items : List Stored :=
      [.mk 0x00021101 (some 10) [0x00020003],
        .mk 0x0001f003 none [1],
        .mk 0x0002800f (some 20) [7, 1, 100, 200],
        .mk 0x00081001 (some 30) [],
        .mk 0x0001f003 none [0],
        .mk 0x00081001 (some 40) []]
    ∃ records, Format.trec.read (coding.encodeAll items) = .ok records ∧
      records[1]?.map (·.guest) = some ⟨0x7fff, 1⟩ ∧
      records[2]?.map (·.guest) = some ⟨7, 1⟩ ∧ records[3]?.map (·.guest) = some ⟨2, 3⟩ := by
  intro items
  have hread := read_encodeAll items
  obtain ⟨others, hothers, -, hguest⟩ := guest_of_every_record hread
  obtain rfl := encodeAll_injective hothers
  refine ⟨_, hread, ?_, ?_, ?_⟩
  · exact (hguest [_] _ _ rfl).1.trans (by decide)
  · exact (hguest [_, _] _ _ rfl).1.trans (by decide)
  · exact (hguest [_, _, _] _ [] rfl).1.trans (by decide)

end HypervisorTrace.Wire.Trec
