import HypervisorTrace.Session
import HypervisorTrace.Store
import HypervisorTrace.Text
import HypervisorTrace.Toml.Parser

/-!
Settings files. A settings file is a TOML document with the format of a trace, its stream number,
and a table for the clock. Everything in it may be absent, and then the standard option holds;
keys of other names are passed over, values of other types are refused.
-/

namespace HypervisorTrace

inductive GivenFrequency where
  | hertz (value : UInt64)
  | text (content : String)
  deriving DecidableEq

structure Settings where
  cpuHz : Option GivenFrequency
  absolute : Option Bool
  format : Option Wire.Format
  streamId : Option Int
  deriving DecidableEq

inductive SettingsError where
  | unreadable (fault : Fault)
  /-- It is no document, or a value in it is of the wrong type. -/
  | malformed
  | invalidFrequency (text : String)
  deriving DecidableEq

namespace SettingsError

def malformation : String :=
  "no TOML document with settings of the right types"

def message : SettingsError → String
  | unreadable fault => "Failed to read config file: " ++ fault.message
  | malformed => "Failed to parse config TOML: " ++ malformation
  | invalidFrequency text => "Invalid clock frequency: " ++ text

def messages (error : SettingsError) : List String :=
  error.message ::
    match error with
    | unreadable fault => [fault.message]
    | malformed => [malformation]
    | invalidFrequency _ => []

end SettingsError

def GivenFrequency.resolve : GivenFrequency → Except SettingsError UInt64
  | hertz value => if value = 0 then .error (.invalidFrequency "0") else .ok value
  | text content =>
    match Clock.Frequency.parse? content with
    | some value => .ok value
    | none => .error (.invalidFrequency content)

namespace Settings

open Toml

def optional {α : Type} (read : Value → Option α) : Option Value → Option (Option α)
  | none => some none
  | some value => (read value).map some

/-- A frequency: a whole number that is not negative, or a text. -/
def frequency? : Value → Option GivenFrequency
  | .integer value => if 0 ≤ value then some (.hertz (UInt64.ofNat value.toNat)) else none
  | .string text => some (.text text)
  | _ => none

def boolean? : Value → Option Bool
  | .boolean value => some value
  | _ => none

/-- A format: its name, or a table with its name as the only key and nothing as the value. -/
def format? : Value → Option Wire.Format
  | .string name => Wire.Format.ofName? name
  | .table [(name, .table [])] => Wire.Format.ofName? name
  | .table [(name, .array [])] => Wire.Format.ofName? name
  | _ => none

def streamId? : Value → Option Int
  | .integer value =>
    if Int16.minValue.toInt ≤ value ∧ value ≤ Int16.maxValue.toInt then some value else none
  | _ => none

/-- The settings of the clock: a table, or an array that starts with the frequency and the choice
of the epoch. A point in time counts as a table that says nothing of either. -/
def clock? : Option Value → Option (Option GivenFrequency × Option Bool)
  | none => some (none, none)
  | some (.dateTime _) => some (none, none)
  | some (.table entries) => do
    let cpuHz ← optional frequency? (Table.get? entries "cpu_hz")
    let absolute ← optional boolean? (Table.get? entries "absolute")
    return (cpuHz, absolute)
  | some (.array (first :: second :: _)) => do
    return (some (← frequency? first), some (← boolean? second))
  | some _ => none

def ofTable? (entries : List (String × Value)) : Option Settings := do
  let (cpuHz, absolute) ← clock? (Table.get? entries "clock")
  let format ← optional format? (Table.get? entries "format")
  let streamId ← optional streamId? (Table.get? entries "stream_id")
  return ⟨cpuHz, absolute, format, streamId⟩

def unset : Settings :=
  ⟨none, none, none, none⟩

def parse (text : String) : Except SettingsError Settings :=
  match (Toml.parse? text).bind ofTable? with
  | some settings => .ok settings
  | none => .error .malformed

def load (store : Store) (path : String) : Except SettingsError Settings :=
  match store.read path with
  | .error fault => .error (.unreadable fault)
  | .ok bytes =>
    match Text.ofUtf8? bytes with
    | some text => parse text
    | none => .error (.unreadable .notText)

def toOptions (settings : Settings) : Except SettingsError Options := do
  let cpuHz ← match settings.cpuHz with
    | some given => given.resolve
    | none => .ok Clock.defaultHz
  return {
    clock := ⟨cpuHz, settings.absolute.getD Clock.standard.absolute⟩
    format := settings.format.getD Options.standard.format
    streamId := settings.streamId.getD Options.standard.streamId }

end Settings

end HypervisorTrace
