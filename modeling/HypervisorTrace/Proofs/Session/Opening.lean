import HypervisorTrace.Proofs.FixedHeader.Reading
import HypervisorTrace.Proofs.Trec.Reading
import HypervisorTrace.Session

/-!
Opening a session. A stream opens if it starts with a change of processor, can
be read in the framing that the options name, and holds a record. The session
then has the records that were read and the options, and nothing else: all
that it tells of a record it computes from these.
-/

namespace HypervisorTrace.Session

open Wire Wire.Trec

variable {bytes : List UInt8} {options : Options} {session : Session}

theorem ofBytes_eq_ok_iff :
    ofBytes bytes options = .ok session ↔
      checkSignature bytes = .ok () ∧ options.format.read bytes = .ok session.records ∧
        session.records ≠ [] ∧ session.options = options := by
  unfold ofBytes
  cases hsignature : checkSignature bytes with
  | error fault => simp
  | ok =>
      cases hread : options.format.read bytes with
      | error truncation => simp
      | ok records =>
          cases records with
          | nil =>
              simp only [List.isEmpty_nil, if_true, reduceCtorEq, false_iff, not_and]
              rintro - hrecords
              rw [Except.ok.injEq] at hrecords
              exact fun hsome => absurd hrecords.symm hsome
          | cons first rest =>
              obtain ⟨records, chosen⟩ := session
              simp only [List.isEmpty_cons, Bool.false_eq_true, if_false, Except.ok.injEq,
                Session.mk.injEq, true_and]
              constructor
              · rintro ⟨rfl, rfl⟩
                exact ⟨rfl, List.cons_ne_nil _ _, rfl⟩
              · rintro ⟨rfl, -, rfl⟩
                exact ⟨rfl, rfl⟩

/-- The records of a session on a stream of the tracing tool are the completed
events of the items that the stream encodes. -/
theorem exists_items_of_ofBytes (hopen : ofBytes bytes options = .ok session)
    (hformat : options.format = .trec) :
    ∃ items, coding.encodeAll items = bytes ∧ session.records = complete (coding.events items) ∧
      session.options = options := by
  obtain ⟨-, hread, -, hoptions⟩ := ofBytes_eq_ok_iff.mp hopen
  rw [hformat] at hread
  obtain ⟨items, hbytes, hrecords⟩ := exists_items_of_read hread
  exact ⟨items, hbytes, hrecords, hoptions⟩

/-- Of a stream with a first word only that word is checked. -/
theorem checkSignature_toBytes_append (word : Word) (rest : List UInt8) :
    checkSignature (Word.toBytes word ++ rest) =
      if Event.Id.number word = Event.Id.cpuChange then .ok ()
      else .error (.badSignature word) := by
  rw [checkSignature, takeWord_toBytes]
  rfl

theorem checkSignature_toBytes {word : Word} (hid : Event.Id.number word = Event.Id.cpuChange)
    (rest : List UInt8) : checkSignature (Word.toBytes word ++ rest) = .ok () := by
  rw [checkSignature_toBytes_append, if_pos hid]

theorem checkSignature_encodeAll {change : Stored} (hchange : NamesCpu change.item)
    (items : List Stored) : checkSignature (coding.encodeAll (change :: items)) = .ok () := by
  have hbytes : coding.encodeAll (change :: items) =
      Word.toBytes change.header ++ (encodeWords change.body ++ coding.encodeAll items) := by
    rw [Coding.encodeAll_cons, ← List.append_assoc, ← encodeWords_cons]
    rfl
  rw [hbytes]
  apply checkSignature_toBytes
  rw [change.number_header]
  exact hchange

/-- Items of which the first names a processor are opened if one of them is an
event. -/
theorem ofBytes_encodeAll {change : Stored} {items : List Stored} (hformat : options.format = .trec)
    (hchange : NamesCpu change.item) (hevents : coding.events (change :: items) ≠ []) :
    ofBytes (coding.encodeAll (change :: items)) options =
      .ok ⟨complete (coding.events (change :: items)), options⟩ := by
  rw [ofBytes_eq_ok_iff, hformat]
  refine ⟨checkSignature_encodeAll hchange items, read_encodeAll _, ?_, rfl⟩
  intro hnone
  have hlength := congrArg List.length hnone
  rw [complete, Tracker.length_records, List.length_nil, List.length_eq_zero_iff] at hlength
  exact hevents hlength

/-- Records with a fixed header of which the first names a processor are opened
if one of them is an event. -/
theorem ofBytes_encodeAll_fixedHeader {change : FixedHeader.Stored}
    {records : List FixedHeader.Stored} (hformat : options.format = .fixedHeader)
    (hchange : NamesCpu change.item)
    (hevents : FixedHeader.coding.events (change :: records) ≠ []) :
    ofBytes (FixedHeader.coding.encodeAll (change :: records)) options =
      .ok ⟨(FixedHeader.coding.events (change :: records)).map FixedHeader.record, options⟩ := by
  have hbytes : FixedHeader.coding.encode change = Word.toBytes change.word ++
      encodeWords (change.header.tail ++ change.extra) := encodeWords_cons _ _
  rw [ofBytes_eq_ok_iff, hformat]
  refine ⟨?_, FixedHeader.read_encodeAll _, ?_, rfl⟩
  · rw [Coding.encodeAll_cons, hbytes, List.append_assoc]
    exact checkSignature_toBytes hchange _
  · rwa [Ne, List.map_eq_nil_iff]

end HypervisorTrace.Session
