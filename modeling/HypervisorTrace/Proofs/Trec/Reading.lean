import HypervisorTrace.Proofs.Trec.Collecting
import HypervisorTrace.Proofs.Trec.Encoding
import HypervisorTrace.Wire.Format

/-!
Reading a stream of the tracing tool. The streams that are read are exactly
the concatenations of encoded items, each of one list of items only, and their
records are the events of that list, collected in one pass and so as complete as
the tracker makes them.
-/

namespace HypervisorTrace.Wire.Trec

/-- Concatenations of encoded items are read. -/
theorem read_encodeAll (items : List Stored) :
    Format.trec.read (coding.encodeAll items) = .ok (complete (coding.events items)) := by
  rw [← collect_eq_complete]
  exact coding.map_rows_split_encodeAll collect items

/-- A stream that is read is a concatenation of encoded items. -/
theorem exists_items_of_read {bytes : List UInt8} {records : List Record}
    (hread : Format.trec.read bytes = .ok records) :
    ∃ items, coding.encodeAll items = bytes ∧ records = complete (coding.events items) := by
  obtain ⟨items, hbytes, hrecords⟩ := coding.exists_codes_of_map_rows_split hread
  exact ⟨items, hbytes, hrecords.trans (collect_eq_complete _)⟩

theorem encodeAll_injective : Function.Injective coding.encodeAll :=
  coding.encodeAll_injective Stored.encode_injective

theorem complete_ofRow (rows : List (Row (Option UInt64))) :
    List.Forall₂ Record.OfRow (complete rows) rows :=
  Tracker.records_ofRow (Tracker.start rows) rows

/-- Every list of items that the framing can store is read back from its
encodings, as one record for each item that does not name a processor, in
order. The record has the id and the extra words of its item, the length of
the encodings before it as its offset, and the processor that the last item
before it named. Conversely a stream that is read is the encoding of one list
of items, and of no other. -/
theorem reads_exactly_encodings (items : List Stored) (bytes : List UInt8) :
    (∃ records, Format.trec.read (coding.encodeAll items) = .ok records ∧
      List.Forall₂ Record.OfRow records (coding.events items)) ∧
    ((∃ records, Format.trec.read bytes = .ok records) ↔
      ∃! stored : List Stored, coding.encodeAll stored = bytes) := by
  refine ⟨⟨_, read_encodeAll items, complete_ofRow _⟩, ?_⟩
  constructor
  · rintro ⟨records, hread⟩
    obtain ⟨stored, hstored, -⟩ := exists_items_of_read hread
    refine ⟨stored, hstored, ?_⟩
    intro other hother
    exact encodeAll_injective (hother.trans hstored.symm)
  · rintro ⟨stored, rfl, -⟩
    exact ⟨_, read_encodeAll stored⟩

end HypervisorTrace.Wire.Trec
