import HypervisorTrace.Wire.FixedHeader
import HypervisorTrace.Wire.Trec.Collector

/-!
The formats of a trace stream: the two framings behind one reader. Every stream starts with a
change of processor, whichever its framing; that is how one is recognized.
-/

namespace HypervisorTrace.Wire

/-- What can be wrong with a trace stream. -/
inductive StreamError where
  | badSignature (first : Word)
  | empty
  | truncated (truncation : Truncation)
  | noEvents
  deriving DecidableEq

def StreamError.message : StreamError → String
  | badSignature first =>
    "Not a xentrace binary stream (first word 0x" ++ Text.hex 8 first.toNat ++ ")"
  | empty => "Trace is empty"
  | truncated ⟨offset, needed⟩ =>
    "Truncated record at byte offset " ++ toString offset ++ " (needed " ++ toString needed ++
      " more bytes)"
  | noEvents => "Trace contains no events"

inductive Format where
  | trec
  | fixedHeader
  deriving DecidableEq

namespace Format

def name : Format → String
  | trec => "trec"
  | fixedHeader => "fixed-header"

def ofName? (text : String) : Option Format :=
  [trec, fixedHeader].find? fun format => format.name == text

def read (format : Format) (bytes : List UInt8) : Except Truncation (List Record) :=
  match format with
  | trec => (Trec.framing.split bytes).map fun frames => Trec.collect (rows frames)
  | fixedHeader =>
    (FixedHeader.framing.split bytes).map fun frames => (rows frames).map FixedHeader.record

end Format

/-- Checks that a stream starts with a change of processor. -/
def checkSignature (bytes : List UInt8) : Except StreamError Unit :=
  if bytes.isEmpty then
    .error .empty
  else
    match takeWord bytes with
    | .error missing => .error (.truncated ⟨0, missing⟩)
    | .ok (first, _) =>
      if Event.Id.number first = Event.Id.cpuChange then .ok () else .error (.badSignature first)

def isTrace (bytes : List UInt8) : Bool :=
  match checkSignature bytes with
  | .ok () => true
  | .error _ => false

end HypervisorTrace.Wire
