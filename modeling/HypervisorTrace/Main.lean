import HypervisorTrace.CommandLine
import HypervisorTrace.Text
import Std.Time.DateTime.Timestamp

/-!
The program. What is in the file system at the paths that the arguments name is put into a store,
the request is run on that store, and what has changed in it is put into the file system.
-/

namespace HypervisorTrace.Program

def probe (path : String) : IO (Option Store.Entry) := do
  try
    let content ← IO.FS.readBinFile path
    return some (.file content.toList)
  catch
    | .inappropriateType _ 21 _ => return some .directory
    | _ => return none

def addPath (store : Store) (path : String) : IO Store := do
  match store.locate path with
  | .error _ => return store
  | .ok location =>
    if (store.at? location).isSome then
      return store
    else
      match ← probe path with
      | some entry => return store.set location entry
      | none => return store

/-- The store with what is in the file system at some paths and at those they lie in. -/
def snapshot (paths : List String) : IO Store := do
  let mut store := Store.empty
  for path in paths do
    for part in (Path.lineage path).reverse do
      store ← addPath store part
  return store

def pathOf : Location → String
  | "/" :: names => "/" ++ "/".intercalate names
  | names => "/".intercalate names

/-- Puts what has changed from one store to another into the file system. -/
def apply (former latter : Store) : IO Unit := do
  for (location, entry) in latter.entries do
    if former.at? location ≠ some entry then
      match entry with
      | .directory => IO.FS.createDirAll (pathOf location)
      | .file content => IO.FS.writeBinFile (pathOf location) ⟨content.toArray⟩
      | .full => return ()

def environment : IO (String → Option String) := do
  let names := [Clock.frequencyKey, Clock.absoluteKey, CommandLine.colourKey]
  let values ← names.mapM fun name => do return (name, ← IO.getEnv name)
  return fun name => (values.lookup name).join

end HypervisorTrace.Program

open HypervisorTrace

def main (arguments : List String) : IO UInt32 := do
  let environment ← Program.environment
  let paths := match CommandLine.parse arguments environment with
    | .ok request => request.paths
    | .error _ => []
  let store ← Program.snapshot paths
  let moment ← Std.Time.Timestamp.now
  let now := Text.timestamp moment.val.second.val.toNat moment.val.nano.val.toNat
  let finish := CommandLine.run arguments environment now store
  Program.apply store finish.store
  IO.print finish.printed
  IO.eprint finish.reported
  return finish.code.toUInt32
