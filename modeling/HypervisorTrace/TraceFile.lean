import HypervisorTrace.Session
import HypervisorTrace.Store

/-!
Traces in files.
-/

namespace HypervisorTrace

inductive TraceError where
  | unreadable (fault : Fault)
  | stream (error : Wire.StreamError)
  deriving DecidableEq

namespace TraceError

def message : TraceError → String
  | unreadable fault => "I/O error while reading trace: " ++ fault.message
  | stream error => error.message

def messages (error : TraceError) : List String :=
  error.message ::
    match error with
    | unreadable fault => [fault.message]
    | stream _ => []

end TraceError

def Session.load (store : Store) (path : String) (options : Options) : Except TraceError Session :=
  match store.read path with
  | .error fault => .error (.unreadable fault)
  | .ok bytes =>
    match Session.ofBytes bytes options with
    | .error error => .error (.stream error)
    | .ok session => .ok session

/-- Whether the file at a path is taken for a trace. Only its first word is looked at. -/
def checkFormat (store : Store) (path : String) : Except TraceError Bool :=
  match store.read path with
  | .error fault => .error (.unreadable fault)
  | .ok bytes => .ok (Wire.isTrace (bytes.take 4))

end HypervisorTrace
