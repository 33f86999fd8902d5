import HypervisorTrace.Table
import HypervisorTrace.Toml.Scalar

/-!
How the statements of a TOML document make up a table. A header opens a table, a double header
adds one to an array of tables, and an assignment sets a key of the table that is open. Tables on
the way to a key come into being as needed. No key is set twice, no table is opened twice, and a
table that a header opened is not extended by a dotted key from outside.
-/

namespace HypervisorTrace.Toml

/-- A statement of a document. Paths are not empty. -/
inductive Statement where
  /-- A header: the table at a path is open from here on. -/
  | header (path : List String)
  /-- A double header: a new table of the array at a path is open from here on. -/
  | arrayHeader (path : List String)
  | assign (path : List String) (value : Value)

inductive Origin where
  /-- By a header of its own. -/
  | opened
  /-- On the way of a header to another table. -/
  | implied
  /-- On the way of a dotted key. -/
  | dotted
  deriving DecidableEq

/-- What a key of a table stands for while a document is read. -/
inductive Item where
  | value (value : Value)
  | table (origin : Origin) (entries : List (String × Item))
  | tables (elements : List (List (String × Item)))

abbrev Entries := Table String Item

namespace Entries

/-- Changes the table at a path below a table. The path leads into the last table of an array; a
dotted key may not lead into a table with a header. -/
def descend (dotted : Bool) (change : Origin → Entries → Option Entries) :
    Origin → List String → Entries → Option Entries
  | origin, [], entries => change origin entries
  | _, key :: path, entries =>
    match entries.get? key with
    | none => do
      let origin := if dotted then .dotted else .implied
      let inner ← descend dotted change origin path []
      return entries.set key (.table origin inner)
    | some (.value _) => none
    | some (.table origin inner) =>
      if dotted && origin = .opened then
        none
      else do
        let inner ← descend dotted change origin path inner
        return entries.set key (.table origin inner)
    | some (.tables elements) => do
      let last ← elements.getLast?
      let last ← descend dotted change .opened path last
      return entries.set key (.tables (elements.dropLast ++ [last]))

def openTable (path : List String) (entries : Entries) : Option Entries := do
  let key ← path.getLast?
  let change := fun _ (parent : Entries) =>
    match parent.get? key with
    | none => some (parent.set key (.table .opened []))
    | some (.table .implied inner) => some (parent.set key (.table .opened inner))
    | some _ => none
  descend false change .opened path.dropLast entries

def addTable (path : List String) (entries : Entries) : Option Entries := do
  let key ← path.getLast?
  let change := fun _ (parent : Entries) =>
    match parent.get? key with
    | none => some (parent.set key (.tables [[]]))
    | some (.tables elements) => some (parent.set key (.tables (elements ++ [[]])))
    | some _ => none
  descend false change .opened path.dropLast entries

def assign (current path : List String) (value : Value) (entries : Entries) : Option Entries := do
  let key ← path.getLast?
  let change := fun origin (parent : Entries) =>
    if path.length ≠ 1 ∧ origin ≠ .dotted then none
    else if (parent.get? key).isSome then none
    else some (parent.set key (.value value))
  descend false (fun origin table => descend true change origin path.dropLast table) .opened current
    entries

end Entries

mutual

def Item.toValue : Item → Value
  | .value value => value
  | .table _ entries => .table (toValues entries)
  | .tables elements => .array (toTables elements)

def toValues : List (String × Item) → List (String × Value)
  | [] => []
  | (key, item) :: rest => (key, item.toValue) :: toValues rest

def toTables : List (List (String × Item)) → List Value
  | [] => []
  | entries :: rest => .table (toValues entries) :: toTables rest

end

def entriesOf? : List String → Entries → List Statement → Option Entries
  | _, entries, [] => some entries
  | _, entries, .header path :: rest => do entriesOf? path (← entries.openTable path) rest
  | _, entries, .arrayHeader path :: rest => do entriesOf? path (← entries.addTable path) rest
  | current, entries, .assign path value :: rest => do
    entriesOf? current (← entries.assign current path value) rest

def tableOf? (statements : List Statement) : Option (List (String × Value)) :=
  (entriesOf? [] [] statements).map toValues

end HypervisorTrace.Toml
