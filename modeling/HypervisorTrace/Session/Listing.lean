import HypervisorTrace.Json.Value
import HypervisorTrace.Statistics

/-!
What is shown of a trace: its records, entries and statistics as JSON values, and the report on its
statistics as text.
-/

namespace HypervisorTrace

def Record.toJson (record : Record) : Json.Value :=
  .object
    [("event_id", .number record.eventId.toNat), ("cpu", .number record.cpu.toNat),
      ("tsc", .number record.counter.toNat), ("dom", .number record.guest.domain.toNat),
      ("vcpu", .number record.guest.vcpu.toNat),
      ("extra", .array (record.extra.map fun word => .number word.toNat)),
      ("offset", .number record.offset)]

def Entry.toJson (entry : Entry) : Json.Value :=
  .object
    [("stream_id", .number entry.streamId), ("offset", .number entry.index),
      ("event_id", .number entry.eventId.toNat), ("cpu", .number entry.cpu.toNat),
      ("ts", .number entry.time), ("pid", .number entry.pid), ("visible", .number entry.visible)]

def Statistics.toJson (statistics : Statistics) : Json.Value :=
  .object
    [("record_count", .number statistics.recordCount),
      ("cpu_count", .number statistics.cpuCount),
      ("by_class", .object (statistics.byClass.map fun (eventClass, count) =>
        (eventClass.label, .number count))),
      ("by_cpu", .object (statistics.byCpu.map fun (cpu, count) =>
        (toString cpu.toNat, .number count))),
      ("unknown_events", .number statistics.unknownEvents),
      ("span_ns", .number statistics.span),
      ("top_events", .array (statistics.topEvents.map fun (name, count) =>
        .object [("name", .string name), ("count", .number count)]))]

namespace Statistics

def rule : String :=
  Text.run 60 '=' ++ "\n"

def classLine (total : Nat) (entry : Event.Class × Nat) : String :=
  "  " ++ Text.padRight 8 entry.1.label ++ " " ++ Text.padLeft 10 (toString entry.2) ++ " (" ++
    Text.percentage entry.2 total ++ "%)\n"

def cpuLine (entry : UInt16 × Nat) : String :=
  "  cpu" ++ Text.padRight 5 (toString entry.1.toNat) ++ " " ++
    Text.padLeft 10 (toString entry.2) ++ "\n"

def eventLine (entry : (String × Nat) × Nat) : String :=
  let ((name, count), index) := entry
  "  " ++ Text.padLeft 2 (toString (index + 1)) ++ ". " ++ Text.padRight 40 name ++ " " ++
    Text.padLeft 10 (toString count) ++ "\n"

/-- The report. The number of unrecognized records is shown if there are any, and the frequent
events if any were asked for. -/
def report (coloured : Bool) (statistics : Statistics) : String :=
  rule ++ Text.paint coloured .bold "TRACE STATISTICS" ++ "\n" ++ rule ++
    "Records:   " ++ toString statistics.recordCount ++ "\n" ++
    "CPUs:      " ++ toString statistics.cpuCount ++ "\n" ++
    "Span:      " ++ Text.seconds statistics.span ++ " s\n" ++
    (if statistics.unknownEvents = 0 then ""
      else "Unknown:   " ++
        Text.paint coloured .yellow (toString statistics.unknownEvents) ++ "\n") ++
    "\nBy class:\n" ++
    String.join (statistics.byClass.map (classLine statistics.recordCount)) ++
    "\nBy CPU:\n" ++
    String.join (statistics.byCpu.map cpuLine) ++
    (if statistics.topEvents.isEmpty then ""
      else "\nTop events:\n" ++ String.join (statistics.topEvents.zipIdx.map eventLine)) ++
    rule

end Statistics

end HypervisorTrace
