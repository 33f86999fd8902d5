import HypervisorTrace.Proofs.Json.Size
import HypervisorTrace.Proofs.Output.Buffering

/-!
Writing to a device that takes nothing. Nothing changes in the store, and a
dump of any line reports that the file could not be written. What an export
reports depends on its size: one that the writer can hold is reported as a file
that could not be written, but a larger one as a text that could not be
produced.
-/

namespace HypervisorTrace

theorem Session.limited_le_length (session : Session) (limit : Option Nat) :
    session.limited limit ≤ session.length := by
  cases limit with
  | none => exact Nat.le_refl _
  | some limit => exact Nat.min_le_right limit session.length

/-- A dump of at least one line is not empty. -/
theorem Session.dump_ne_nil {session : Session} {limit : Option Nat}
    (hlines : 0 < session.limited limit) : Text.utf8 (session.dump limit) ≠ [] := by
  have hlimit := session.limited_le_length limit
  cases htake : session.records.take (session.limited limit) with
  | nil =>
      rw [List.take_eq_nil_iff, ← List.length_eq_zero_iff, ← Session.length] at htake
      omega
  | cons first rest =>
      rw [dump, htake, List.map_cons, String.join_cons, Text.utf8_append, Text.utf8_append]
      have hnewline : Text.utf8 "\n" ≠ [] := by decide
      exact List.append_ne_nil_of_left_ne_nil (List.append_ne_nil_of_right_ne_nil _ hnewline) _

theorem Export.render_ne_nil (trace : Export) : Text.utf8 trace.render ≠ [] := by
  apply List.ne_nil_of_length_pos
  have hlength := trace.lt_length_render
  omega

namespace Output

variable {store : Store} {path : String} {location : Location}

/-- When a full device is met by an export: while its text is being produced if
the writer cannot hold it. -/
def exportStage (trace : Export) : Stage :=
  if bufferSize < (Text.utf8 trace.render).length then .producing else .finishing

theorem exportStage_eq_finishing_iff (trace : Export) :
    exportStage trace = .finishing ↔ (Text.utf8 trace.render).length ≤ bufferSize := by
  unfold exportStage
  split
  · rename_i hlong
    exact iff_of_false nofun (Nat.not_le.mpr hlong)
  · rename_i hshort
    exact iff_of_true rfl (Nat.not_lt.mp hshort)

/-- A text of 86 records is never held. -/
theorem exportStage_of_records {trace : Export} (hrecords : 86 ≤ trace.records.length) :
    exportStage trace = .producing := by
  have hlength := trace.lt_length_render
  rw [exportStage, if_pos]
  rw [bufferSize]
  omega

/-- However the text of an export is cut into pieces, none of which is all of
it, the writer meets a full device at the same stage. -/
theorem writePieces_export (hfull : store.at? location = some .full) {trace : Export}
    {pieces : List (List UInt8)} (hpieces : pieces.flatten = Text.utf8 trace.render)
    (hcut : ∀ piece ∈ pieces, piece.length < (Text.utf8 trace.render).length) :
    writePieces store location pieces = .error (exportStage trace, .noSpace) := by
  have hsome := trace.render_ne_nil
  rw [← hpieces] at hcut hsome
  rw [writePieces_full hfull hsome, exportStage, ← hpieces]
  simp only [overflows_iff_of_lt hcut]

theorem writeExport_full (htarget : store.target path = .ok location)
    (hfull : store.at? location = some .full) (trace : Export) :
    writeExport store trace path = (store, .error (exportReport (exportStage trace) .noSpace)) := by
  have hcut : ∀ piece ∈ trace.pieces, piece.length < (Text.utf8 trace.render).length :=
    fun _ => Export.length_lt_of_mem_pieces
  rw [writeExport_eq_writePieces htarget trace.flatten_pieces hcut,
    writePieces_export hfull trace.flatten_pieces hcut]

/-- At a path that leads to a full device, a dump of at least one line reports
that the file cannot be written. An export reports that if its text is no
longer than what the writer holds, and otherwise, as from 86 records on, that
the text cannot be produced: the writer meets the device while it is being
produced, however it is cut into pieces. -/
theorem full_device_reports (htarget : store.target path = .ok location)
    (hfull : store.at? location = some .full) :
    (∀ session limit, 0 < session.limited limit →
      writeDump store session limit path = (store, .error (.writeFailed .noSpace))) ∧
    ∀ trace : Export, ∃ stage,
      (∀ pieces : List (List UInt8), pieces.flatten = Text.utf8 trace.render →
        (∀ piece ∈ pieces, piece.length < (Text.utf8 trace.render).length) →
        writePieces store location pieces = .error (stage, .noSpace)) ∧
      (stage = .finishing ↔ (Text.utf8 trace.render).length ≤ bufferSize) ∧
      (86 ≤ trace.records.length → stage = .producing) ∧
      writeExport store trace path = (store, .error
        (match stage with
        | .producing => .serializationFailed Fault.noSpace.message
        | .finishing => .writeFailed .noSpace)) := by
  constructor
  · intro session limit hlines
    have hsome := Session.dump_ne_nil hlines
    rw [← List.flatten_singleton (l := Text.utf8 (session.dump limit))] at hsome
    rw [writeDump_eq_writePieces htarget List.flatten_singleton, writePieces_full hfull hsome]
  · intro trace
    refine ⟨exportStage trace, fun pieces => writePieces_export hfull,
      exportStage_eq_finishing_iff trace, exportStage_of_records, ?_⟩
    rw [writeExport_full htarget hfull]
    cases exportStage trace <;> rfl

/-- The trace of one event, written to the device: neither its line nor its
export can be written. -/
theorem full_device_reports_one_record :
    let session : Session := ⟨[⟨0x00081001, 0, 10, Guest.idle 0, [], 8⟩], Options.standard⟩
    Store.empty.target "/dev/full" = .ok Store.fullDevice ∧
      Store.empty.at? Store.fullDevice = some .full ∧
      writeDump Store.empty session none "/dev/full" =
        (Store.empty, .error (.writeFailed .noSpace)) ∧
      writeExport Store.empty (session.toExport "") "/dev/full" =
        (Store.empty, .error (.writeFailed .noSpace)) := by
  intro session
  obtain ⟨hdump, hexport⟩ := @full_device_reports Store.empty "/dev/full" Store.fullDevice rfl rfl
  obtain ⟨stage, -, hshort, -, hreport⟩ := hexport (session.toExport "")
  have hlength : (Text.utf8 (session.toExport "").render).length ≤ bufferSize := by
    rw [Export.render, Json.length_utf8_render]
    decide +kernel
  obtain rfl := hshort.mpr hlength
  exact ⟨rfl, rfl, hdump session none (by decide), hreport⟩

/-- An export of 86 records to the device is not reported as a file that cannot
be written. -/
theorem large_export_blames_text :
    let record : ExportedRecord :=
      ⟨0, 0, 0, "idle/v0", 0, "0x00081001", "VMENTRY", none⟩
    let trace : Export :=
      ⟨Export.schemaVersion, Export.formatName, "", 2400000000, false, 1, 86,
        List.replicate 86 record⟩
    writeExport Store.empty trace "/dev/full" =
      (Store.empty, .error (.serializationFailed "No space left on device (os error 28)")) := by
  intro record trace
  have hproducing : exportStage trace = .producing :=
    exportStage_of_records (Nat.le_of_eq List.length_replicate.symm)
  rw [@writeExport_full Store.empty "/dev/full" Store.fullDevice rfl rfl, hproducing]
  rfl

end Output

end HypervisorTrace
