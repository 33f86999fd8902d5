import HypervisorTrace.Toml.Document
import HypervisorTrace.Toml.Quoted
import HypervisorTrace.Toml.Scalar

/-!
Reading TOML documents: keys, values and statements. Each reader takes what it reads off the front
of the characters. Arrays and inline tables nest no deeper than a limit, and a dotted key has no
more parts.
-/

namespace HypervisorTrace.Toml

/-- How deep values nest, and how many parts a dotted key has, at most. -/
def depthLimit : Nat := 79

def isKeyChar (char : Char) : Bool :=
  char.isAlphanum || char = '-' || char = '_'

def dropBlank (chars : List Char) : List Char :=
  chars.dropWhile isBlank

def takeKeyPart (chars : List Char) : Option (String × List Char) :=
  match chars with
  | '"' :: _ => (takeLineString chars).map fun found => (String.ofList found.1, found.2)
  | '\'' :: _ => (takeLineString chars).map fun found => (String.ofList found.1, found.2)
  | _ =>
    let part := chars.takeWhile isKeyChar
    if part = [] then none else some (String.ofList part, chars.dropWhile isKeyChar)

def takeKeyParts : Nat → List Char → Option (List String × List Char)
  | 0, _ => none
  | limit + 1, chars => do
    let (part, rest) ← takeKeyPart (dropBlank chars)
    match dropBlank rest with
    | '.' :: rest =>
      let (parts, rest) ← takeKeyParts limit rest
      return (part :: parts, rest)
    | rest => return ([part], rest)

def takeKey (chars : List Char) : Option (List String × List Char) :=
  takeKeyParts depthLimit chars

def dropComment : List Char → List Char
  | '#' :: rest => rest.dropWhile isPlain
  | chars => chars

def takeLineEnd (chars : List Char) : Option (List Char) :=
  match dropComment (dropBlank chars) with
  | [] => some []
  | rest => newline? rest

/-- Characters without the blanks, newlines and comments at their front. Each round drops
something, so the length of the characters bounds the rounds. -/
def dropFiller : Nat → List Char → List Char
  | 0, chars => chars
  | rounds + 1, chars =>
    match dropSpace chars with
    | '#' :: rest => dropFiller rounds (rest.dropWhile isPlain)
    | rest => rest

abbrev Reader := List Char → Option (Value × List Char)

/-- The elements of an array up to its closing bracket, and what follows it. A comma may stand
after the last element. -/
def takeElements (value : Reader) : Nat → List Char → Option (List Value × List Char)
  | 0, _ => none
  | rounds + 1, chars =>
    match dropFiller chars.length chars with
    | ']' :: rest => some ([], rest)
    | start => do
      let (element, rest) ← value start
      match dropFiller rest.length rest with
      | ',' :: rest =>
        let (others, rest) ← takeElements value rounds rest
        return (element :: others, rest)
      | ']' :: rest => return ([element], rest)
      | _ => none

/-- The assignments of an inline table up to its closing brace, one at least, and what follows it.
-/
def takeAssignments (value : Reader) : Nat → List Char → Option (List Statement × List Char)
  | 0, _ => none
  | rounds + 1, chars => do
    let (path, rest) ← takeKey chars
    match rest with
    | '=' :: rest =>
      let (content, rest) ← value (dropBlank rest)
      match dropBlank rest with
      | ',' :: rest =>
        let (others, rest) ← takeAssignments value rounds rest
        return (.assign path content :: others, rest)
      | '\x7d' :: rest => return ([.assign path content], rest)
      | _ => none
    | _ => none

def takeInlineTable (value : Reader) (chars : List Char) : Option (Value × List Char) :=
  match dropBlank chars with
  | '\x7d' :: rest => some (.table [], rest)
  | start => do
    let (assignments, rest) ← takeAssignments value (start.length + 1) start
    let entries ← tableOf? assignments
    return (.table entries, rest)

/-- A value, and what follows it, where the values inside are read by another reader. -/
def takeValueWith (inner : Option Reader) (chars : List Char) : Option (Value × List Char) :=
  match chars with
  | '"' :: _ => (takeString chars).map fun found => (.string (String.ofList found.1), found.2)
  | '\'' :: _ => (takeString chars).map fun found => (.string (String.ofList found.1), found.2)
  | '[' :: rest => do
    let value ← inner
    let (elements, rest) ← takeElements value (rest.length + 1) rest
    return (.array elements, rest)
  | '\x7b' :: rest => do
    let value ← inner
    takeInlineTable value rest
  | _ => takeScalar chars

def takeValue : Nat → Reader
  | 0 => takeValueWith none
  | limit + 1 => takeValueWith (some (takeValue limit))

def takeStatement (chars : List Char) : Option (Statement × List Char) :=
  match chars with
  | '[' :: '[' :: rest => do
    let (path, rest) ← takeKey rest
    match rest with
    | ']' :: ']' :: rest => return (.arrayHeader path, rest)
    | _ => none
  | '[' :: rest => do
    let (path, rest) ← takeKey rest
    match rest with
    | ']' :: rest => return (.header path, rest)
    | _ => none
  | _ => do
    let (path, rest) ← takeKey chars
    match rest with
    | '=' :: rest =>
      let (value, rest) ← takeValue depthLimit (dropBlank rest)
      return (.assign path value, rest)
    | _ => none

/-- The statements of a document, one a line. Each round reads a line, so the length of the
characters bounds the rounds. -/
def takeStatements : Nat → List Char → Option (List Statement)
  | 0, _ => none
  | rounds + 1, chars =>
    match dropBlank chars with
    | [] => some []
    | start =>
      match takeLineEnd start with
      | some rest => takeStatements rounds rest
      | none => do
        let (statement, rest) ← takeStatement start
        let rest ← takeLineEnd rest
        let others ← takeStatements rounds rest
        return statement :: others

/-- The table that a text describes, if it is a document. A byte order mark at its front is
dropped. -/
def parse? (text : String) : Option (List (String × Value)) :=
  let chars := match text.toList with
    | '\ufeff' :: rest => rest
    | chars => chars
  (takeStatements (chars.length + 1) chars).bind tableOf?

end HypervisorTrace.Toml
