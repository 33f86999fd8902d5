import HypervisorTrace.Store.Path
import HypervisorTrace.Table

/-!
Stores: what commands read from and write to. A store holds files and directories by location, and
devices that take no byte at all. Paths are followed name by name, and every name but the last
must be that of a directory.
-/

namespace HypervisorTrace

/-- Where something is in a store: the names that lead to it from the working directory. Locations
that are reached from the root start with a slash, those above the working directory with pairs of
points. -/
abbrev Location := List String

namespace Location

def start : Location := []

def root : Location := ["/"]

def isAbove (location : Location) : Bool :=
  location.all (· = "..")

def step (location : Location) (name : String) : Location :=
  if name = "." then location
  else if name = ".." then
    if location.isAbove then location ++ [".."]
    else if location = root then root
    else location.dropLast
  else location ++ [name]

end Location

namespace Store

inductive Entry where
  | directory
  | file (content : List UInt8)
  /-- A device that takes nothing, and of which zeros can be read without end. -/
  | full
  deriving DecidableEq

end Store

structure Store where
  entries : Table Location Store.Entry

namespace Store

def fullDevice : Location := ["/", "dev", "full"]

def empty : Store :=
  ⟨[(["/", "dev"], .directory), (fullDevice, .full)]⟩

/-- What there is at a location. The working directory, those above it and the root are always
there. -/
def at? (store : Store) (location : Location) : Option Entry :=
  if location.isAbove ∨ location = Location.root then some .directory
  else store.entries.get? location

def set (store : Store) (location : Location) (entry : Entry) : Store :=
  ⟨store.entries.set location entry⟩

/-- The location that names lead to from another. What is at that location is not looked at, but
each name on the way must be one that a directory can hold. -/
def follow (store : Store) : Location → List String → Except Fault Location
  | location, [] => .ok location
  | location, name :: rest =>
    match store.at? location with
    | none => .error .notFound
    | some .directory =>
      if Path.maxNameLength < name.utf8ByteSize then .error .nameTooLong
      else store.follow (location.step name) rest
    | some _ => .error .notDirectory

def followFrom (store : Store) (path : String) (names : List String) : Except Fault Location :=
  match Path.fault? path with
  | some fault => .error fault
  | none => store.follow (if Path.isAbsolute path then .root else .start) names

def locate (store : Store) (path : String) : Except Fault Location :=
  store.followFrom path (Path.names path)

/-- The location of the directory that the last name of a path is looked up in. The point that
stands for that name leads nowhere else, but only a directory has it. -/
def locateHolder (store : Store) (path : String) : Except Fault Location :=
  store.followFrom path ((Path.names path).dropLast ++ ["."])

/-- What there is at a path. If the path ends in a slash, that must be a directory. -/
def find (store : Store) (path : String) : Except Fault Entry :=
  match store.locate path with
  | .error fault => .error fault
  | .ok location =>
    match store.at? location with
    | none => .error .notFound
    | some .directory => .ok .directory
    | some entry => if Path.endsInSlash path then .error .notDirectory else .ok entry

def holds (store : Store) (path : String) : Bool :=
  (store.find path).isOk

def isDirectory (store : Store) (path : String) : Bool :=
  match store.find path with
  | .ok .directory => true
  | _ => false

/-- The bytes of the file at a path. Reading a full device to its end takes for ever, which is left
out here: a word of zeros stands for what it gives. That is enough for those who stop by themselves,
as they do who look for a signature or for the text of an export. -/
def read (store : Store) (path : String) : Except Fault (List UInt8) :=
  match store.find path with
  | .error fault => .error fault
  | .ok .directory => .error .isDirectory
  | .ok .full => .ok [0, 0, 0, 0]
  | .ok (.file content) => .ok content

def makeDirectory (store : Store) (path : String) : Except Fault Store :=
  match store.locate path with
  | .error fault => .error fault
  | .ok location =>
    match store.at? location with
    | none => .ok (store.set location .directory)
    | some _ => .error .alreadyExists

/-- Makes a directory at the first of some paths, each of which lies in the next, after those it
lies in where they are not there. What has been made stays, even if not all can be made. -/
def makeLineage (store : Store) : List String → Store × Except Fault Unit
  | [] => (store, .error .notFound)
  | path :: others =>
    if path = "" then
      (store, .ok ())
    else
      match store.makeDirectory path with
      | .ok made => (made, .ok ())
      | .error .notFound =>
        match store.makeLineage others with
        | (below, .error fault) => (below, .error fault)
        | (below, .ok ()) =>
          match below.makeDirectory path with
          | .ok made => (made, .ok ())
          | .error fault => (below, if below.isDirectory path then .ok () else .error fault)
      | .error fault => (store, if store.isDirectory path then .ok () else .error fault)

def makeDirectories (store : Store) (path : String) : Store × Except Fault Unit :=
  store.makeLineage (Path.lineage path)

/-- The location at which writing to a path writes. It is that of a file, of a device, or of
nothing yet in a directory. A slash at the end asks for a directory, so that the last name is not
even looked up. -/
def target (store : Store) (path : String) : Except Fault Location :=
  if Path.endsInSlash path then
    match store.locateHolder path with
    | .error fault => .error fault
    | .ok _ => .error .isDirectory
  else
    match store.locate path with
    | .error fault => .error fault
    | .ok location =>
      match store.at? location with
      | some .directory => .error .isDirectory
      | _ => .ok location

/-- Writes a file at a location. A full device takes nothing, which does no harm if there is
nothing to take. -/
def put (store : Store) (location : Location) (content : List UInt8) : Store × Except Fault Unit :=
  match store.at? location with
  | some .full => (store, if content.isEmpty then .ok () else .error .noSpace)
  | _ => (store.set location (.file content), .ok ())

end Store

end HypervisorTrace
