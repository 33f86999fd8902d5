import HypervisorTrace.Proofs.Output.Preparation

/-!
Files that are written piece by piece. The bytes of a file are not passed on
one by one: a writer holds them back, up to a fixed number, and passes them on
when a piece does not fit and once more at the end. A fault is therefore met
either while the pieces are still being produced or when the last bytes are
passed on.

For a file this makes no difference: its content is all the pieces in order.
A full device is met while producing if there are more bytes than can be held,
or a single piece is as long as all that can be held, and at the end otherwise.
So it only depends on the length of the text when it is met, unless the text is
produced as one piece.
-/

namespace HypervisorTrace

namespace Store

variable {store : Store} {location : Location}

theorem set_set (store : Store) (location : Location) (first second : Entry) :
    (store.set location first).set location second = store.set location second := by
  rw [set, set, set, Table.set_set]

/-- What is set at a location that may hold a file is there. -/
theorem at?_set (hfile : store.at? location ≠ some .directory) (entry : Entry) :
    (store.set location entry).at? location = some entry := by
  unfold at? at hfile
  split at hfile
  · exact absurd rfl hfile
  · rename_i hplace
    rw [at?, if_neg hplace, set, Table.get?_set, if_pos rfl]

theorem put_file (hdevice : store.at? location ≠ some .full) (content : List UInt8) :
    store.put location content = (store.set location (.file content), .ok ()) := by
  unfold put
  split
  · rename_i hfull
    exact absurd hfull hdevice
  · rfl

theorem put_full (hfull : store.at? location = some .full) {content : List UInt8}
    (hsome : content ≠ []) : store.put location content = (store, .error .noSpace) := by
  rw [put, hfull]
  dsimp only
  rw [if_neg (by rwa [List.isEmpty_iff])]

theorem put_nil_full (hfull : store.at? location = some .full) :
    store.put location [] = (store, .ok ()) := by
  rw [put, hfull]
  rfl

/-- Opens what is at a location for writing. It becomes an empty file, unless
it is a device. -/
def create (store : Store) (location : Location) : Store :=
  match store.at? location with
  | some .full => store
  | _ => store.set location (.file [])

/-- Passes bytes on to what was opened at a location: they are added to a file,
and a full device takes none. -/
def append (store : Store) (location : Location) (bytes : List UInt8) : Except Fault Store :=
  match store.at? location with
  | some (.file content) => .ok (store.set location (.file (content ++ bytes)))
  | some .full => if bytes.isEmpty then .ok store else .error .noSpace
  | some .directory => .error .isDirectory
  | none => .error .notFound

theorem append_set (hfile : store.at? location ≠ some .directory) (content bytes : List UInt8) :
    (store.set location (.file content)).append location bytes =
      .ok (store.set location (.file (content ++ bytes))) := by
  rw [append, at?_set hfile]
  dsimp only
  rw [set_set]

theorem append_nil_full (hfull : store.at? location = some .full) :
    store.append location [] = .ok store := by
  rw [append, hfull]
  rfl

theorem append_full (hfull : store.at? location = some .full) {bytes : List UInt8}
    (hsome : bytes ≠ []) : store.append location bytes = .error .noSpace := by
  rw [append, hfull]
  dsimp only
  rw [if_neg (by rwa [List.isEmpty_iff])]

end Store

namespace Output

/-- When a fault is met. -/
inductive Stage where
  | producing
  | finishing
  deriving DecidableEq

/-- A writer on its way: what it has passed on is in the store, and it holds the
bytes after that. -/
structure Writer where
  store : Store
  held : List UInt8

namespace Writer

/-- Passes on what is held. -/
def flush (location : Location) (writer : Writer) : Except Fault Writer :=
  match writer.store.append location writer.held with
  | .ok store => .ok ⟨store, []⟩
  | .error fault => .error fault

/-- Makes room for a piece, if what is held leaves none for it. -/
def makeRoom (location : Location) (writer : Writer) (piece : List UInt8) : Except Fault Writer :=
  if bufferSize < writer.held.length + piece.length then writer.flush location else .ok writer

/-- Takes a piece. It is held if there is room for it; one that is as long as
all that can be held is passed on at once. -/
def add (location : Location) (writer : Writer) (piece : List UInt8) : Except Fault Writer :=
  match writer.makeRoom location piece with
  | .error fault => .error fault
  | .ok ⟨store, held⟩ =>
    if piece.length < bufferSize then
      .ok ⟨store, held ++ piece⟩
    else
      match store.append location piece with
      | .ok store => .ok ⟨store, held⟩
      | .error fault => .error fault

def addAll (location : Location) : Writer → List (List UInt8) → Except Fault Writer
  | writer, [] => .ok writer
  | writer, piece :: rest =>
    match writer.add location piece with
    | .error fault => .error fault
    | .ok next => next.addAll location rest

end Writer

/-- Writes pieces, one after the other, to what is at a location. -/
def writePieces (store : Store) (location : Location) (pieces : List (List UInt8)) :
    Except (Stage × Fault) Store :=
  match Writer.addAll location ⟨store.create location, []⟩ pieces with
  | .error fault => .error (.producing, fault)
  | .ok writer =>
    match writer.flush location with
    | .error fault => .error (.finishing, fault)
    | .ok last => .ok last.store

variable {store : Store} {location : Location}

namespace Writer

/-- Whether a file has got all of some bytes but those that are still held. -/
def HasTaken (store : Store) (location : Location) (writer : Writer) (bytes : List UInt8) : Prop :=
  ∃ passed, writer.store = store.set location (.file passed) ∧ passed ++ writer.held = bytes

theorem HasTaken.flush (hfile : store.at? location ≠ some .directory) {writer : Writer}
    {bytes : List UInt8} (htaken : HasTaken store location writer bytes) :
    writer.flush location = .ok ⟨store.set location (.file bytes), []⟩ := by
  obtain ⟨passed, hstore, rfl⟩ := htaken
  rw [Writer.flush, hstore, Store.append_set hfile]

theorem HasTaken.makeRoom (hfile : store.at? location ≠ some .directory) {writer : Writer}
    {bytes : List UInt8} (htaken : HasTaken store location writer bytes) (piece : List UInt8) :
    ∃ next, writer.makeRoom location piece = .ok next ∧ HasTaken store location next bytes ∧
      (bufferSize ≤ piece.length → next.held = []) := by
  unfold Writer.makeRoom
  split
  · exact ⟨_, htaken.flush hfile, ⟨bytes, rfl, List.append_nil bytes⟩, fun _ => rfl⟩
  · refine ⟨writer, rfl, htaken, ?_⟩
    intro hlong
    rw [← List.length_eq_zero_iff]
    omega

theorem HasTaken.add (hfile : store.at? location ≠ some .directory) {writer : Writer}
    {bytes : List UInt8} (htaken : HasTaken store location writer bytes) (piece : List UInt8) :
    ∃ next, writer.add location piece = .ok next ∧
      HasTaken store location next (bytes ++ piece) := by
  obtain ⟨⟨passing, held⟩, hroom, ⟨passed, hstore, hbytes⟩, hnone⟩ := htaken.makeRoom hfile piece
  dsimp only at hstore hbytes hnone
  unfold Writer.add
  rw [hroom]
  dsimp only
  split
  · exact ⟨_, rfl, passed, hstore, by rw [← hbytes, List.append_assoc]⟩
  · rename_i hlong
    have hheld := hnone (Nat.not_lt.mp hlong)
    rw [hstore, Store.append_set hfile]
    refine ⟨_, rfl, passed ++ piece, rfl, ?_⟩
    rw [← hbytes, hheld, List.append_nil, List.append_nil]

theorem HasTaken.addAll (hfile : store.at? location ≠ some .directory) {writer : Writer}
    {bytes : List UInt8} (htaken : HasTaken store location writer bytes)
    (pieces : List (List UInt8)) :
    ∃ last, writer.addAll location pieces = .ok last ∧
      HasTaken store location last (bytes ++ pieces.flatten) := by
  induction pieces generalizing writer bytes with
  | nil => exact ⟨writer, rfl, by rwa [List.flatten_nil, List.append_nil]⟩
  | cons piece rest ih =>
      obtain ⟨next, hnext, hstep⟩ := htaken.add hfile piece
      obtain ⟨last, hlast, hrest⟩ := ih hstep
      rw [Writer.addAll, hnext, List.flatten_cons, ← List.append_assoc]
      exact ⟨last, hlast, hrest⟩

/-- Whether some pieces are met by a full device while they are produced, by a
writer that already holds a number of bytes. -/
def Overflows (held : Nat) (pieces : List (List UInt8)) : Prop :=
  bufferSize < held + pieces.flatten.length ∨ ∃ piece ∈ pieces, bufferSize ≤ piece.length

instance (held : Nat) (pieces : List (List UInt8)) : Decidable (Overflows held pieces) :=
  inferInstanceAs (Decidable (_ ∨ _))

/-- A full device is met at a piece that does not fit, at the latest when the
piece itself is passed on. -/
theorem add_full (hfull : store.at? location = some .full) {held piece : List UInt8}
    (hmet : bufferSize < held.length + piece.length ∨ bufferSize ≤ piece.length) :
    add location ⟨store, held⟩ piece = .error .noSpace := by
  have hpiece : bufferSize ≤ piece.length → store.append location piece = .error .noSpace := by
    intro hlong
    apply Store.append_full hfull
    rintro rfl
    exact absurd hlong (by decide)
  cases held with
  | nil =>
      have hlong : bufferSize ≤ piece.length := by
        rw [List.length_nil, Nat.zero_add] at hmet
        omega
      have hroom : makeRoom location ⟨store, []⟩ piece = .ok ⟨store, []⟩ := by
        unfold makeRoom flush
        rw [Store.append_nil_full hfull, ite_self]
      rw [add, hroom]
      dsimp only
      rw [if_neg (Nat.not_lt.mpr hlong), hpiece hlong]
  | cons byte rest =>
      have hroom : makeRoom location ⟨store, byte :: rest⟩ piece = .error .noSpace := by
        rw [makeRoom, if_pos, flush, Store.append_full hfull (List.cons_ne_nil byte rest)]
        rw [List.length_cons] at hmet ⊢
        omega
      rw [add, hroom]

/-- What fits is held, whatever it is written to. -/
theorem add_of_fits {held piece : List UInt8} (hroom : held.length + piece.length ≤ bufferSize)
    (hpiece : piece.length < bufferSize) :
    add location ⟨store, held⟩ piece = .ok ⟨store, held ++ piece⟩ := by
  rw [add, makeRoom, if_neg (Nat.not_lt.mpr hroom)]
  dsimp only
  rw [if_pos hpiece]

theorem not_overflows_nil {held : Nat} (hheld : held ≤ bufferSize) : ¬ Overflows held [] := by
  rintro (hlong | ⟨piece, hmem, -⟩)
  · exact Nat.not_lt.mpr hheld hlong
  · cases hmem

/-- The device is met at the first piece or later on. -/
theorem overflows_cons (held : Nat) (piece : List UInt8) (rest : List (List UInt8)) :
    Overflows held (piece :: rest) ↔
      (bufferSize < held + piece.length ∨ bufferSize ≤ piece.length) ∨
        Overflows (held + piece.length) rest := by
  have hlonger : bufferSize < held + piece.length →
      bufferSize < held + piece.length + rest.flatten.length :=
    fun hlong => Nat.lt_add_right _ hlong
  unfold Overflows
  rw [List.flatten_cons, List.length_append, List.exists_mem_cons_iff, ← Nat.add_assoc]
  tauto

theorem addAll_full (hfull : store.at? location = some .full) {held : List UInt8}
    (hheld : held.length ≤ bufferSize) (pieces : List (List UInt8)) :
    addAll location ⟨store, held⟩ pieces =
      if Overflows held.length pieces then .error .noSpace
      else .ok ⟨store, held ++ pieces.flatten⟩ := by
  induction pieces generalizing held with
  | nil =>
      rw [if_neg (not_overflows_nil hheld), List.flatten_nil, List.append_nil]
      rfl
  | cons piece rest ih =>
      by_cases hmet : bufferSize < held.length + piece.length ∨ bufferSize ≤ piece.length
      · rw [addAll, add_full hfull hmet, if_pos ((overflows_cons _ _ _).mpr (Or.inl hmet))]
      · have hfits := not_or.mp hmet
        have hroom : (held ++ piece).length ≤ bufferSize := by
          rw [List.length_append]
          exact Nat.not_lt.mp hfits.1
        have hrest : Overflows held.length (piece :: rest) ↔
            Overflows (held ++ piece).length rest := by
          rw [overflows_cons, or_iff_right hmet, List.length_append]
        rw [addAll, add_of_fits (Nat.not_lt.mp hfits.1) (Nat.not_le.mp hfits.2)]
        dsimp only
        rw [ih hroom, List.append_assoc, ← List.flatten_cons]
        simp only [hrest]

end Writer

/-- A file that is written in pieces has them all, in order. -/
theorem writePieces_file (hfile : store.at? location ≠ some .directory)
    (hdevice : store.at? location ≠ some .full) (pieces : List (List UInt8)) :
    writePieces store location pieces = .ok (store.set location (.file pieces.flatten)) := by
  have hcreate : store.create location = store.set location (.file []) := by
    unfold Store.create
    split
    · rename_i hfull
      exact absurd hfull hdevice
    · rfl
  have hstart : Writer.HasTaken store location ⟨store.create location, []⟩ [] :=
    ⟨[], hcreate, rfl⟩
  obtain ⟨last, hlast, htaken⟩ := hstart.addAll hfile pieces
  rw [writePieces, hlast]
  dsimp only
  rw [htaken.flush hfile]
  rfl

/-- A writer to a full device passes nothing on: it holds all the pieces or
meets the device. -/
theorem addAll_create_full (hfull : store.at? location = some .full)
    (pieces : List (List UInt8)) :
    Writer.addAll location ⟨store.create location, []⟩ pieces =
      if Writer.Overflows 0 pieces then .error .noSpace else .ok ⟨store, pieces.flatten⟩ := by
  have hcreate : store.create location = store := by
    rw [Store.create, hfull]
  rw [hcreate]
  exact @Writer.addAll_full _ _ hfull [] (Nat.zero_le bufferSize) pieces

/-- A full device takes nothing, and whether the writer overflows decides when
it is met. -/
theorem writePieces_full (hfull : store.at? location = some .full) {pieces : List (List UInt8)}
    (hsome : pieces.flatten ≠ []) :
    writePieces store location pieces =
      .error (if Writer.Overflows 0 pieces then .producing else .finishing, .noSpace) := by
  rw [writePieces, addAll_create_full hfull]
  by_cases hoverflow : Writer.Overflows 0 pieces
  · rw [if_pos hoverflow, if_pos hoverflow]
  · rw [if_neg hoverflow, if_neg hoverflow]
    dsimp only
    rw [Writer.flush, Store.append_full hfull hsome]

/-- A full device is not met if there is nothing to write. -/
theorem writePieces_full_nil (hfull : store.at? location = some .full)
    {pieces : List (List UInt8)} (hnone : pieces.flatten = []) :
    writePieces store location pieces = .ok store := by
  have hfits : ¬ Writer.Overflows 0 pieces := by
    rintro (hlong | ⟨piece, hmem, hlong⟩)
    · rw [hnone] at hlong
      exact absurd hlong (by decide)
    · rw [List.flatten_eq_nil_iff.mp hnone piece hmem] at hlong
      exact absurd hlong (by decide)
  rw [writePieces, addAll_create_full hfull, if_neg hfits, hnone]
  dsimp only
  rw [Writer.flush, Store.append_nil_full hfull]

/-- Of a text that is not produced as one piece, the length alone decides. -/
theorem overflows_iff_of_lt {pieces : List (List UInt8)}
    (hcut : ∀ piece ∈ pieces, piece.length < pieces.flatten.length) :
    Writer.Overflows 0 pieces ↔ bufferSize < pieces.flatten.length := by
  rw [Writer.Overflows, Nat.zero_add]
  constructor
  · rintro (hlong | ⟨piece, hmem, hlong⟩)
    · exact hlong
    · exact Nat.lt_of_le_of_lt hlong (hcut piece hmem)
  · exact Or.inl

variable {path text : String} {pieces : List (List UInt8)}

/-- At a path that can be written at nothing is met but what writing the bytes
meets. -/
theorem write_of_target (htarget : store.target path = .ok location)
    (report : Fault → OutputError) :
    write store path text report =
      match store.put location (Text.utf8 text) with
      | (written, .ok ()) => (written, .ok ())
      | (written, .error fault) => (written, .error (report fault)) := by
  rw [write, prepare_of_target htarget]
  cases hput : store.put location (Text.utf8 text) with
  | mk written result => cases result <;> simp only [htarget, hput]

/-- Writing a text does what writing it in pieces does, if a full device is
reported as the stage at which it is met says. -/
theorem write_eq_writePieces (htarget : store.target path = .ok location)
    (hpieces : pieces.flatten = Text.utf8 text) {report : Fault → OutputError}
    {staged : Stage → Fault → OutputError}
    (hreport : report .noSpace =
      staged (if Writer.Overflows 0 pieces then .producing else .finishing) .noSpace) :
    write store path text report =
      match writePieces store location pieces with
      | .ok written => (written, .ok ())
      | .error (stage, fault) => (store, .error (staged stage fault)) := by
  obtain ⟨-, -, hfile⟩ := Store.target_eq_ok_iff.mp htarget
  rw [write_of_target htarget, ← hpieces]
  by_cases hfull : store.at? location = some .full
  · by_cases hnone : pieces.flatten = []
    · rw [writePieces_full_nil hfull hnone, hnone, Store.put_nil_full hfull]
    · rw [writePieces_full hfull hnone, Store.put_full hfull hnone]
      dsimp only
      rw [hreport]
  · rw [writePieces_file hfile hfull, Store.put_file hfull]

/-- A dump is written in pieces; a fault is reported alike at either stage. -/
theorem writeDump_eq_writePieces (htarget : store.target path = .ok location) {session : Session}
    {limit : Option Nat} (hpieces : pieces.flatten = Text.utf8 (session.dump limit)) :
    writeDump store session limit path =
      match writePieces store location pieces with
      | .ok written => (written, .ok (session.limited limit))
      | .error (_, fault) => (store, .error (.writeFailed fault)) := by
  have hwrite := @write_eq_writePieces _ _ _ _ _ htarget hpieces .writeFailed
    (fun _ fault => .writeFailed fault) rfl
  rw [writeDump, hwrite]
  cases writePieces store location pieces <;> rfl

/-- What a fault in writing an export is reported as. While the text is being
produced it becomes a fault of what produces it. -/
def exportReport : Stage → Fault → OutputError
  | .producing, fault => .serializationFailed fault.message
  | .finishing, fault => .writeFailed fault

/-- An export is written in pieces, none of which is all of it. -/
theorem writeExport_eq_writePieces (htarget : store.target path = .ok location) {trace : Export}
    (hpieces : pieces.flatten = Text.utf8 trace.render)
    (hcut : ∀ piece ∈ pieces, piece.length < (Text.utf8 trace.render).length) :
    writeExport store trace path =
      match writePieces store location pieces with
      | .ok written => (written, .ok ())
      | .error (stage, fault) => (store, .error (exportReport stage fault)) := by
  apply write_eq_writePieces htarget hpieces
  rw [← hpieces] at hcut
  rw [exportFault, ← hpieces]
  simp only [overflows_iff_of_lt hcut]
  by_cases hlong : bufferSize < pieces.flatten.length
  · rw [if_pos hlong, if_neg (Nat.not_le.mpr hlong)]
    rfl
  · rw [if_neg hlong, if_pos (Nat.not_lt.mp hlong)]
    rfl

end Output

end HypervisorTrace
