
/-!
Paths as they are written, and what an operation on the file at one fails with. Names are set apart
by slashes; empty names and points for the same directory say nothing, except for a point at the
front. A path may end in a slash, and then means a directory. Paths and names have a greatest length
in bytes.
-/

namespace HypervisorTrace

/-- Why an operation on a file fails, in the words of the operating system. -/
inductive Fault where
  | notFound
  | notDirectory
  | isDirectory
  | alreadyExists
  | noSpace
  | nameTooLong
  /-- The path holds a null character, which would end it. -/
  | nullInPath
  | notText
  deriving DecidableEq

def Fault.message : Fault → String
  | notFound => "No such file or directory (os error 2)"
  | notDirectory => "Not a directory (os error 20)"
  | isDirectory => "Is a directory (os error 21)"
  | alreadyExists => "File exists (os error 17)"
  | noSpace => "No space left on device (os error 28)"
  | nameTooLong => "File name too long (os error 36)"
  | nullInPath => "file name contained an unexpected NUL byte"
  | notText => "stream did not contain valid UTF-8"

namespace Path

def maxLength : Nat := 4095

def maxNameLength : Nat := 255

/-- What is wrong with a path wherever it may lead: it holds a null character, is empty, or is too
long. -/
def fault? (path : String) : Option Fault :=
  if path.toList.contains '\x00' then some .nullInPath
  else if path = "" then some .notFound
  else if maxLength < path.utf8ByteSize then some .nameTooLong
  else none

def pieces (path : String) : List String :=
  (path.toList.splitOn '/').map String.ofList

def isAbsolute (path : String) : Bool :=
  (pieces path).length ≠ 1 && (pieces path).head? = some ""

def endsInSlash (path : String) : Bool :=
  (pieces path).length ≠ 1 && (pieces path).getLast? = some ""

def names (path : String) : List String :=
  (pieces path).filter (· ≠ "")

/-- The pieces of a path, each with whether it is a part of it: a name, or a point at the front. -/
def parts (path : String) : List (String × Bool) :=
  (pieces path).zipIdx.map fun (piece, index) =>
    (piece, piece ≠ "" && (piece ≠ "." || index = 0))

/-- A path without its last part, as it is written. A path of one part lies in the empty path, or
in the root if it starts there; a path without parts lies nowhere. -/
def parent? (path : String) : Option String :=
  match (parts path).reverse.dropWhile (!·.2) with
  | [] => none
  | _ :: rest =>
    match (rest.dropWhile (!·.2)).reverse with
    | [] => some (if isAbsolute path then "/" else "")
    | kept => some ("/".intercalate (kept.map (·.1)))

/-- A path and those it lies in, at most a number of them. -/
def ancestors : Nat → String → List String
  | 0, path => [path]
  | depth + 1, path =>
    match parent? path with
    | some parent => path :: ancestors depth parent
    | none => [path]

def lineage (path : String) : List String :=
  ancestors (pieces path).length path

end Path

end HypervisorTrace
