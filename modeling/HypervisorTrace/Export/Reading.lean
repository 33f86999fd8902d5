import HypervisorTrace.Export
import HypervisorTrace.Json.Scalar

/-!
Reading exports back. An export and each of its records is an object with all the members of the
schema; the description of a record may be absent or null. Members of other names are passed over,
a member of the schema may not occur twice. In place of an object an array with the values of the
members stands for them by position.
-/

namespace HypervisorTrace

def Export.fields : List String :=
  ["version", "format", "generated_at", "cpu_hz", "absolute", "cpu_count", "record_count",
    "records"]

def ExportedRecord.fields : List String :=
  ["index", "cpu", "ts_ns", "task", "pid", "event_id", "name", "info"]

namespace Json.Node

/-- The values of some members, each absent or there once, from an object or by position. -/
def fieldValues? (fields : List String) : Node → Option (List (Option Node))
  | object members => do
    let named ← members.mapM fun (key, value) => (text? key).map (·, value)
    fields.mapM fun field =>
      match named.filter (·.1 == field) with
      | [] => some none
      | [(_, value)] => some (some value)
      | _ => none
  | array elements =>
    if elements.length = fields.length then some (elements.map some) else none
  | _ => none

def natural? (bound : Nat) (node : Node) : Option Nat :=
  (node.whole? 0 (bound - 1)).map Int.toNat

end Json.Node

open Json

/-- The description of a record: a string, or none if it is null or absent. -/
def ExportedRecord.info? : Option Node → Option (Option String)
  | none => some none
  | some .null => some none
  | some node => node.string?.map some

def ExportedRecord.ofNode? (node : Node) : Option ExportedRecord := do
  match ← node.fieldValues? ExportedRecord.fields with
  | [some index, some cpu, some time, some task, some pid, some eventId, some name, info] =>
    return {
      index := UInt64.ofNat (← index.natural? UInt64.size)
      cpu := UInt16.ofNat (← cpu.natural? UInt16.size)
      time := Int64.ofInt (← time.whole? Int64.minValue.toInt Int64.maxValue.toInt)
      task := ← task.string?
      pid := Int32.ofInt (← pid.whole? Int32.minValue.toInt Int32.maxValue.toInt)
      eventId := ← eventId.string?
      name := ← name.string?
      info := ← ExportedRecord.info? info }
  | _ => none

namespace Export

def ofNode? (node : Node) : Option Export := do
  match ← node.fieldValues? fields with
  | [some version, some format, some generatedAt, some cpuHz, some absolute, some cpuCount,
      some recordCount, some records] =>
    return {
      version := ← version.string?
      format := ← format.string?
      generatedAt := ← generatedAt.string?
      cpuHz := UInt64.ofNat (← cpuHz.natural? UInt64.size)
      absolute := ← absolute.bool?
      cpuCount := UInt64.ofNat (← cpuCount.natural? UInt64.size)
      recordCount := UInt64.ofNat (← recordCount.natural? UInt64.size)
      records := ← (← records.array?).mapM ExportedRecord.ofNode? }
  | _ => none

def ofBytes? (bytes : List UInt8) : Option Export :=
  (Node.ofBytes? bytes).bind ofNode?

end Export

end HypervisorTrace
