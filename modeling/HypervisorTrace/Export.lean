import HypervisorTrace.Json.Value
import HypervisorTrace.Session

/-!
Exports. An export is a whole trace as data for another program: its records with everything that is
shown of them, under a head that says how it was made. Its numbers have the widths of its schema.
-/

namespace HypervisorTrace

structure ExportedRecord where
  index : UInt64
  cpu : UInt16
  time : Int64
  task : String
  pid : Int32
  eventId : String
  name : String
  /-- The description of the payload, absent if the event is not recognized. -/
  info : Option String
  deriving DecidableEq

structure Export where
  version : String
  format : String
  generatedAt : String
  cpuHz : UInt64
  absolute : Bool
  cpuCount : UInt64
  recordCount : UInt64
  records : List ExportedRecord
  deriving DecidableEq

namespace Export

def schemaVersion : String := "1.0.0"

def formatName : String := "xentrace_binary"

end Export

def Session.exportRecord (session : Session) (record : Record) (index : Nat) : ExportedRecord where
  index := UInt64.ofNat index
  cpu := record.cpu
  time := Int64.ofInt (session.time record)
  task := record.guest.label
  pid := Int32.ofInt record.guest.pid
  eventId := "0x" ++ Text.hex 8 record.eventId.toNat
  name := Event.name record.eventId
  info := (Event.info record.eventId record.extra).text?

def Session.toExport (session : Session) (generatedAt : String) : Export where
  version := Export.schemaVersion
  format := Export.formatName
  generatedAt := generatedAt
  cpuHz := session.options.clock.cpuHz
  absolute := session.options.clock.absolute
  cpuCount := UInt64.ofNat session.cpuCount
  recordCount := UInt64.ofNat session.length
  records := session.records.zipIdx.map fun (record, index) => session.exportRecord record index

/-- A record of an export as a JSON object. A description that is absent has no member. -/
def ExportedRecord.toJson (record : ExportedRecord) : Json.Value :=
  .object <|
    [("index", .number record.index.toNat), ("cpu", .number record.cpu.toNat),
      ("ts_ns", .number record.time.toInt), ("task", .string record.task),
      ("pid", .number record.pid.toInt), ("event_id", .string record.eventId),
      ("name", .string record.name)] ++
    match record.info with
    | some info => [("info", .string info)]
    | none => []

namespace Export

def toJson (trace : Export) : Json.Value :=
  .object
    [("version", .string trace.version), ("format", .string trace.format),
      ("generated_at", .string trace.generatedAt), ("cpu_hz", .number trace.cpuHz.toNat),
      ("absolute", .bool trace.absolute), ("cpu_count", .number trace.cpuCount.toNat),
      ("record_count", .number trace.recordCount.toNat),
      ("records", .array (trace.records.map ExportedRecord.toJson))]

def render (trace : Export) : String :=
  trace.toJson.render .pretty

end Export

end HypervisorTrace
