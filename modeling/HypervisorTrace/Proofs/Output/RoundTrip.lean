import HypervisorTrace.Proofs.Export.Reading
import HypervisorTrace.Proofs.Output.FullDevice

/-!
Dumps and exports as files. A file that has been written at a path is found at
that path again: what is written at a location is no directory, so no path that
led somewhere leads elsewhere. A dump is therefore read back from the file that
it was written to, and an export is, whatever was in the store before, and what
it says of every record is what was written.
-/

namespace HypervisorTrace

namespace Store

variable {store : Store} {location : Location} {path : String}

theorem at?_set_of_ne {other : Location} (hother : other ≠ location) (entry : Entry) :
    (store.set location entry).at? other = store.at? other := by
  rw [at?, at?, set, Table.get?_set, if_neg hother]

/-- Names that lead somewhere lead there after something has been written where
no directory is. The induction is on the names; each is looked up in a
directory, which stays as it is. -/
theorem follow_set (hfile : store.at? location ≠ some .directory) (entry : Entry)
    {names : List String} {first last : Location} (hfollow : store.follow first names = .ok last) :
    (store.set location entry).follow first names = .ok last := by
  induction names generalizing first with
  | nil => exact hfollow
  | cons name rest ih =>
      have hdirectory := at?_of_follow_cons hfollow
      have hother : first ≠ location := by
        rintro rfl
        exact hfile hdirectory
      rw [follow, hdirectory] at hfollow
      rw [follow, at?_set_of_ne hother, hdirectory]
      dsimp only at hfollow ⊢
      split at hfollow
      · cases hfollow
      · rename_i hlength
        rw [if_neg hlength]
        exact ih hfollow

/-- What has been written at a path is read there. -/
theorem read_set_of_target (htarget : store.target path = .ok location) (content : List UInt8) :
    (store.set location (.file content)).read path = .ok content := by
  obtain ⟨hslash, hlocate, hfile⟩ := target_eq_ok_iff.mp htarget
  obtain ⟨hsound, hfollow⟩ := locate_eq_ok_iff.mp hlocate
  have hsame : (store.set location (.file content)).locate path = .ok location :=
    locate_eq_ok_iff.mpr ⟨hsound, follow_set hfile _ hfollow⟩
  rw [read, find, hsame]
  dsimp only
  rw [at?_set hfile, hslash]
  rfl

theorem find_full_of_target (htarget : store.target path = .ok location)
    (hfull : store.at? location = some .full) : store.find path = .ok .full := by
  obtain ⟨hslash, hlocate, -⟩ := target_eq_ok_iff.mp htarget
  rw [find, hlocate]
  dsimp only
  rw [hfull, hslash]
  rfl

end Store

namespace Output

variable {store written : Store} {path text : String}

/-- A text that has been written is read back, unless it is empty and there is a
full device at the path, which stays as it is. -/
theorem read_or_find_full_of_write {report : Fault → OutputError}
    (hwritten : write store path text report = (written, .ok ())) :
    written.read path = .ok (Text.utf8 text) ∨
      Text.utf8 text = [] ∧ written.find path = .ok .full := by
  unfold write at hwritten
  split at hwritten
  · cases hwritten
  · rename_i prepared _
    split at hwritten
    · cases hwritten
    · rename_i location htarget
      by_cases hfull : prepared.at? location = some .full
      · by_cases hempty : Text.utf8 text = []
        · rw [hempty, Store.put_nil_full hfull] at hwritten
          cases hwritten
          exact .inr ⟨hempty, Store.find_full_of_target htarget hfull⟩
        · rw [Store.put_full hfull hempty] at hwritten
          cases hwritten
      · rw [Store.put_file hfull] at hwritten
        cases hwritten
        exact .inl (Store.read_set_of_target htarget _)

theorem read_of_write {report : Fault → OutputError}
    (hwritten : write store path text report = (written, .ok ())) (hsome : Text.utf8 text ≠ []) :
    written.read path = .ok (Text.utf8 text) :=
  (read_or_find_full_of_write hwritten).resolve_right fun hempty => hsome hempty.1

/-- A dump that has been written tells how many lines it has and is read back,
unless it has none and there is a full device at the path. -/
theorem read_or_find_full_of_writeDump {session : Session} {limit : Option Nat} {count : Nat}
    (hwritten : writeDump store session limit path = (written, .ok count)) :
    count = session.limited limit ∧
      (written.read path = .ok (Text.utf8 (session.dump limit)) ∨
        count = 0 ∧ written.find path = .ok .full) := by
  unfold writeDump at hwritten
  split at hwritten
  · rename_i after hwrite
    cases hwritten
    refine ⟨rfl, ?_⟩
    obtain hread | ⟨hempty, hfull⟩ := read_or_find_full_of_write hwrite
    · exact .inl hread
    · have hlines : ¬ 0 < session.limited limit := fun hlines => Session.dump_ne_nil hlines hempty
      exact .inr ⟨Nat.eq_zero_of_not_pos hlines, hfull⟩
  · cases hwritten

theorem readExport_of_read {trace : Export}
    (hread : store.read path = .ok (Text.utf8 trace.render)) :
    readExport store path = .ok trace := by
  rw [readExport, hread]
  dsimp only
  rw [trace.ofBytes?_render]

/-- An export that has been written to a file is read back from it, and so it is
from any file with the same bytes. No other export is written as the same text. -/
theorem export_round_trip (trace : Export) :
    (∀ store path written, writeExport store trace path = (written, .ok ()) →
      readExport written path = .ok trace) ∧
    (∀ store path, store.read path = .ok (Text.utf8 trace.render) →
      readExport store path = .ok trace) ∧
    ∀ other : Export, other.render = trace.render → other = trace := by
  refine ⟨?_, fun store path hread => readExport_of_read hread, ?_⟩
  · intro store path written hwritten
    exact readExport_of_read (read_of_write hwritten trace.render_ne_nil)
  · intro other hsame
    have hother := other.ofBytes?_render
    rw [hsame, trace.ofBytes?_render] at hother
    exact (Option.some.inj hother).symm

/-- Two records with the extreme numbers of their fields and with texts that
need escapes. The first has no description, and that of the second is empty. -/
theorem export_round_trip_two_records :
    let first : ExportedRecord :=
      ⟨0, 0, Int64.minValue, "\"d\\0\"\n\x01", Int32.minValue, "0x00031001", "é", none⟩
    let second : ExportedRecord :=
      ⟨1, 65535, Int64.maxValue, "", Int32.maxValue, "0x0001f003", "\x7f", some ""⟩
    let trace : Export := ⟨"1.0.0", "", "", 18446744073709551615, true, 1, 2, [first, second]⟩
    let copy : Store := ⟨[(["copy"], .file (Text.utf8 trace.render))]⟩
    (∃ written, writeExport Store.empty trace "e.json" = (written, .ok ()) ∧
      readExport written "e.json" = .ok trace) ∧
    readExport copy "copy" = .ok trace ∧
    ∀ other : Export, other.render = trace.render →
      other.records.map (·.info) = [none, some ""] := by
  intro first second trace copy
  obtain ⟨hwritten, hread, hsame⟩ := export_round_trip trace
  have hresult : (writeExport Store.empty trace "e.json").2 = .ok () := rfl
  have hcopy : copy.read "copy" = .ok (Text.utf8 trace.render) := rfl
  refine ⟨⟨_, Prod.ext rfl hresult, hwritten _ _ _ (Prod.ext rfl hresult)⟩, hread copy _ hcopy, ?_⟩
  intro other hother
  rw [hsame other hother]
  rfl

end Output

end HypervisorTrace
