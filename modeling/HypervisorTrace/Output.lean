import HypervisorTrace.Export.Reading
import HypervisorTrace.Store

/-!
Dumps and exports as files. The directories that an output file lies in are made as needed; a path
that cannot be written is refused before anything is written.
-/

namespace HypervisorTrace

inductive OutputError where
  | writeFailed (fault : Fault)
  /-- The text of the file could not be produced or is not the text of an export. -/
  | serializationFailed (reason : String)
  | invalidPath (reason : String)
  deriving DecidableEq

namespace OutputError

def message : OutputError → String
  | writeFailed fault => "Failed to write file: " ++ fault.message
  | serializationFailed reason => "Failed to serialize JSON: " ++ reason
  | invalidPath reason => "Invalid output path: " ++ reason

def messages (error : OutputError) : List String :=
  error.message ::
    match error with
    | writeFailed fault => [fault.message]
    | serializationFailed reason => [reason]
    | invalidPath _ => []

end OutputError

namespace Output

/-- The number of bytes that are held back before they are passed on to a file. -/
def bufferSize : Nat := 8192

def prepare (store : Store) (path : String) : Store × Except OutputError Unit :=
  if path = "" then
    (store, .error (.invalidPath "Path is empty"))
  else if store.isDirectory path then
    (store, .error (.invalidPath ("Path is a directory: " ++ path)))
  else
    match Path.parent? path with
    | none => (store, .ok ())
    | some parent =>
      if parent = "" ∨ store.holds parent then
        (store, .ok ())
      else
        match store.makeDirectories parent with
        | (made, .ok ()) => (made, .ok ())
        | (made, .error fault) =>
          (made, .error (.invalidPath
            ("Cannot create directory " ++ parent ++ ": " ++ fault.message)))

/-- Writes a text to the file at a path. A fault on the way of the bytes to the file is reported
as the given function of it says. -/
def write (store : Store) (path text : String) (report : Fault → OutputError) :
    Store × Except OutputError Unit :=
  match prepare store path with
  | (prepared, .error error) => (prepared, .error error)
  | (prepared, .ok ()) =>
    match prepared.target path with
    | .error fault => (prepared, .error (.writeFailed fault))
    | .ok location =>
      match prepared.put location (Text.utf8 text) with
      | (written, .ok ()) => (written, .ok ())
      | (written, .error fault) => (written, .error (report fault))

def writeDump (store : Store) (session : Session) (limit : Option Nat) (path : String) :
    Store × Except OutputError Nat :=
  match write store path (session.dump limit) .writeFailed with
  | (written, .ok ()) => (written, .ok (session.limited limit))
  | (written, .error error) => (written, .error error)

/-- What a fault in writing an export is reported as. A text that is longer than what is held back
meets the fault while it is still being produced. -/
def exportFault (text : String) (fault : Fault) : OutputError :=
  if (Text.utf8 text).length ≤ bufferSize then .writeFailed fault
  else .serializationFailed fault.message

def writeExport (store : Store) (trace : Export) (path : String) :
    Store × Except OutputError Unit :=
  write store path trace.render (exportFault trace.render)

def readExport (store : Store) (path : String) : Except OutputError Export :=
  match store.read path with
  | .error .isDirectory => .error (.serializationFailed Fault.isDirectory.message)
  | .error fault => .error (.writeFailed fault)
  | .ok bytes =>
    match Export.ofBytes? bytes with
    | some trace => .ok trace
    | none => .error (.serializationFailed "no JSON text of an export")

end Output

end HypervisorTrace
