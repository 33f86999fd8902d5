import HypervisorTrace.Clock
import HypervisorTrace.Event.Catalogue
import HypervisorTrace.Text
import HypervisorTrace.Wire.Format

/-!
Sessions. A session is one open trace: its records, and the options it was opened with. Everything
that is shown of a trace is asked of its session, record by record.
-/

namespace HypervisorTrace

structure Options where
  clock : Clock
  format : Wire.Format
  /-- A number that is handed back with every entry. -/
  streamId : Int
  deriving DecidableEq

def Options.standard : Options :=
  ⟨Clock.standard, .trec, 0⟩

structure Session where
  records : List Record
  options : Options
  deriving DecidableEq

structure Entry where
  streamId : Int
  index : Nat
  eventId : Word
  cpu : UInt16
  time : Int
  pid : Int
  /-- A mask of eight bits; every entry is visible in all of them. -/
  visible : Nat
  deriving DecidableEq

namespace Session

def ofBytes (bytes : List UInt8) (options : Options) : Except Wire.StreamError Session :=
  match Wire.checkSignature bytes with
  | .error error => .error error
  | .ok () =>
    match options.format.read bytes with
    | .error truncation => .error (.truncated truncation)
    | .ok records => if records.isEmpty then .error .noEvents else .ok ⟨records, options⟩

def length (session : Session) : Nat :=
  session.records.length

def record? (session : Session) (index : Nat) : Option Record :=
  session.records[index]?

def cpuCount (session : Session) : Nat :=
  (session.records.map (·.cpu)).eraseDups.length

def tasks (session : Session) : List Int :=
  let guests := (session.records.map (·.guest)).filter fun guest => !guest.isIdle
  (guests.map Guest.pid).eraseDups.mergeSort (· ≤ ·)

def firstCounter (session : Session) : UInt64 :=
  (session.records.head?.map (·.counter)).getD 0

def conversion (session : Session) : Clock.Conversion :=
  .ofClock session.options.clock session.firstCounter

def time (session : Session) (record : Record) : Int :=
  session.conversion.nanoseconds record.counter

def task? (session : Session) (index : Nat) : Option String :=
  (session.record? index).map (·.guest.label)

def eventName? (session : Session) (index : Nat) : Option String :=
  (session.record? index).map fun record => Event.name record.eventId

/-- What there is to say about the payload of a record; of a record that is not there, what is
said of an unknown event. -/
def eventInfo (session : Session) (index : Nat) : Event.Info :=
  match session.record? index with
  | some record => Event.info record.eventId record.extra
  | none => .unrecognized

def info? (session : Session) (index : Nat) : Option String :=
  (session.eventInfo index).text?

def pid? (session : Session) (index : Nat) : Option Int :=
  (session.record? index).map (·.guest.pid)

def eventId? (session : Session) (index : Nat) : Option Word :=
  (session.record? index).map (·.eventId)

def time? (session : Session) (index : Nat) : Option Int :=
  (session.record? index).map session.time

def entry (session : Session) (record : Record) (index : Nat) : Entry where
  streamId := session.options.streamId
  index := index
  eventId := record.eventId
  cpu := record.cpu
  time := session.time record
  pid := record.guest.pid
  visible := 0xff

def entries (session : Session) : List Entry :=
  session.records.zipIdx.map fun (record, index) => session.entry record index

def joinLine (time task name info : String) : String :=
  time ++ " - " ++ task ++ " - " ++ name ++ " [ " ++ info ++ " ]"

/-- The line about a record. A payload without a description leaves its part empty. -/
def lineOf (session : Session) (record : Record) : String :=
  joinLine (Text.seconds (session.time record)) record.guest.label (Event.name record.eventId)
    ((Event.info record.eventId record.extra).text?.getD "")

/-- The line about the record with an index; all its parts are empty if there is no such record. -/
def line (session : Session) (index : Nat) : String :=
  match session.record? index with
  | some record => session.lineOf record
  | none => joinLine "" "" "" ""

def limited (session : Session) (limit : Option Nat) : Nat :=
  match limit with
  | some limit => min limit session.length
  | none => session.length

/-- The lines about the first records, as many as a limit leaves, each ended by a newline. -/
def dump (session : Session) (limit : Option Nat) : String :=
  String.join ((session.records.take (session.limited limit)).map fun record =>
    session.lineOf record ++ "\n")

end Session

end HypervisorTrace
