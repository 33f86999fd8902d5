import HypervisorTrace.Output
import HypervisorTrace.Session.Listing
import HypervisorTrace.Settings
import HypervisorTrace.TraceFile

/-!
Commands. A command reads files, may write one, and may print. Nothing is printed and nothing is
written before the settings and the trace have been read, so a command that fails on them leaves
no trace.
-/

namespace HypervisorTrace

structure Source where
  input : String
  config : Option String
  /-- A frequency that overrides that of the settings, if it is one. -/
  cpuHz : Option String
  absolute : Option Bool
  format : Option Wire.Format
  deriving DecidableEq

inductive Failure where
  | loadSettings (path : String) (error : SettingsError)
  | resolveOptions (error : SettingsError)
  | decodeTrace (path : String) (error : TraceError)
  | checkFile (path : String) (error : TraceError)
  | writeDump (path : String) (error : OutputError)
  | writeExport (path : String) (error : OutputError)
  | unknownClass (label : String)
  deriving DecidableEq

/-- The failure as it is reported: what was attempted, and then what it comes from, cause by
cause. -/
def Failure.messages : Failure → List String
  | loadSettings path error => ("Failed to load settings from " ++ path) :: error.messages
  | resolveOptions error => "Invalid settings file" :: error.messages
  | decodeTrace path error => ("Failed to decode " ++ path) :: error.messages
  | checkFile path error => ("Failed to read " ++ path) :: error.messages
  | writeDump path error => ("Failed to write dump to " ++ path) :: error.messages
  | writeExport path error => ("Failed to write export to " ++ path) :: error.messages
  | unknownClass label => ["Unknown event class: " ++ label]

namespace Failure

/-- A cause after its lead, its further lines indented as deep as the lead is long. -/
def causeText (lead text : String) : String :=
  lead ++ ("\n" ++ Text.run lead.length ' ').intercalate (text.splitOn "\n")

def causesText : List String → String
  | [] => ""
  | [only] => "\n\nCaused by:\n" ++ causeText "    " only
  | several =>
    "\n\nCaused by:\n" ++
      "\n".intercalate (several.zipIdx.map fun (text, index) =>
        causeText (Text.padLeft 5 (toString index) ++ ": ") text)

/-- How a failure is reported: what was attempted, and below it what it comes from. Several causes
are numbered. -/
def report (failure : Failure) : String :=
  match failure.messages with
  | [] => ""
  | attempted :: causes => "Error: " ++ attempted ++ causesText causes ++ "\n"

end Failure

structure Outcome (α : Type) where
  store : Store
  printed : String
  result : Except Failure α

namespace Command

/-- The options of a source: the standard ones, overridden by those of its settings file,
overridden by its own. -/
def resolve (store : Store) (source : Source) : Except Failure Options := do
  let settings ← match source.config with
    | some path => (Settings.load store path).mapError (.loadSettings path)
    | none => .ok Settings.unset
  let options ← settings.toOptions.mapError .resolveOptions
  return {
    clock := {
      cpuHz := (source.cpuHz.bind Clock.Frequency.parse?).getD options.clock.cpuHz
      absolute := source.absolute.getD options.clock.absolute }
    format := source.format.getD options.format
    streamId := options.streamId }

def openSession (store : Store) (source : Source) : Except Failure Session := do
  let options ← resolve store source
  (Session.load store source.input options).mapError (.decodeTrace source.input)

/-- Prints the lines about the records of a trace, or writes them to a file. The answer is the
number of lines. -/
def dump (store : Store) (source : Source) (output : Option String) (limit : Option Nat) :
    Outcome Nat :=
  match openSession store source with
  | .error failure => ⟨store, "", .error failure⟩
  | .ok session =>
    match output with
    | none => ⟨store, session.dump limit, .ok (session.limited limit)⟩
    | some path =>
      let (written, result) := Output.writeDump store session limit path
      ⟨written, "", result.mapError (.writeDump path)⟩

def exportTrace (store : Store) (source : Source) (output generatedAt : String) : Outcome Unit :=
  match openSession store source with
  | .error failure => ⟨store, "", .error failure⟩
  | .ok session =>
    let (written, result) := Output.writeExport store (session.toExport generatedAt) output
    ⟨written, "", result.mapError (.writeExport output)⟩

def stats (store : Store) (coloured : Bool) (source : Source) (top : Nat) (json : Bool) :
    Outcome Unit :=
  match openSession store source with
  | .error failure => ⟨store, "", .error failure⟩
  | .ok session =>
    let statistics := session.statistics top
    let text :=
      if json then statistics.toJson.render .pretty ++ "\n" else statistics.report coloured
    ⟨store, text, .ok ()⟩

def check (store : Store) (coloured : Bool) (path : String) : Outcome Bool :=
  match checkFormat store path with
  | .error error => ⟨store, "", .error (.checkFile path error)⟩
  | .ok true =>
    let line := Text.paint coloured .green "✓" ++ " " ++ path ++ " (" ++ Export.formatName ++ ")\n"
    ⟨store, line, .ok true⟩
  | .ok false =>
    let line := Text.paint coloured .red "✗" ++ " " ++ path ++ " is not a xentrace binary trace\n"
    ⟨store, line, .ok false⟩

def rule : String :=
  Text.run 68 '=' ++ "\n"

def eventLine (coloured : Bool) (definition : Event.Definition) : String :=
  let name := Text.padRight 40 definition.name
  "0x" ++ Text.hex 8 definition.id.toNat ++ "   " ++
    Text.padRight 8 definition.eventClass.label ++ " " ++
    (if definition.layout.isSome then name else Text.paint coloured .dimmed name) ++ " " ++
    Text.padLeft 5 (toString definition.words) ++ "\n"

def eventList (coloured : Bool) (definitions : List Event.Definition) : String :=
  Text.padRight 12 "ID" ++ " " ++ Text.padRight 8 "CLASS" ++ " " ++
    Text.padRight 40 "NAME" ++ " " ++ Text.padLeft 5 "WORDS" ++ "\n" ++ rule ++
    String.join (definitions.map (eventLine coloured)) ++ rule ++
    toString definitions.length ++ " events\n"

def events (store : Store) (coloured : Bool) (label : Option String) : Outcome Unit :=
  match label with
  | none => ⟨store, eventList coloured Event.Catalogue.all, .ok ()⟩
  | some label =>
    match Event.Class.ofLabel? label with
    | some eventClass =>
      ⟨store, eventList coloured (Event.Catalogue.ofClass eventClass), .ok ()⟩
    | none => ⟨store, "", .error (.unknownClass label)⟩

def versionText : String :=
  "xentrace-decode v0.1.0\n" ++
    "Export Schema: v" ++ Export.schemaVersion ++ "\n" ++
    "Data Format: " ++ Export.formatName ++ "\n" ++
    "\n" ++
    "A decoder for Xen hypervisor binary trace records.\n"

def version (store : Store) : Outcome Unit :=
  ⟨store, versionText, .ok ()⟩

end Command

end HypervisorTrace
