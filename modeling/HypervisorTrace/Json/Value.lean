import HypervisorTrace.Text

/-!
JSON values and how they are written: on one line without any spaces, or over several lines with an
indent of two spaces. The members of an object are written in the order in which they are given.
-/

namespace HypervisorTrace.Json

inductive Value where
  | null
  | bool (value : Bool)
  | number (value : Int)
  | string (value : String)
  | array (elements : List Value)
  | object (members : List (String × Value))

/-- A character inside a string. A quote, a backslash and the control characters are escaped, the
more usual ones by a letter and the others by their number. -/
def escape (char : Char) : String :=
  if char = '"' then "\\\""
  else if char = '\\' then "\\\\"
  else if char = '\n' then "\\n"
  else if char = '\r' then "\\r"
  else if char = '\t' then "\\t"
  else if char.toNat = 8 then "\\b"
  else if char.toNat = 12 then "\\f"
  else if char.toNat < 32 then "\\u" ++ Text.hex 4 char.toNat
  else char.toString

def quote (text : String) : String :=
  "\"" ++ String.join (text.toList.map escape) ++ "\""

inductive Style where
  | compact
  | pretty

/-- What stands before an element or a closing bracket that is nested to a depth. -/
def Style.gap (style : Style) (depth : Nat) : String :=
  match style with
  | compact => ""
  | pretty => "\n" ++ Text.run (2 * depth) ' '

def Style.colon : Style → String
  | compact => ":"
  | pretty => ": "

mutual

def Value.pieces (style : Style) (depth : Nat) : Value → List String
  | .null => ["null"]
  | .bool true => ["true"]
  | .bool false => ["false"]
  | .number value => [toString value]
  | .string value => [quote value]
  | .array [] => ["[]"]
  | .array (first :: others) =>
    "[" :: style.gap (depth + 1) :: first.pieces style (depth + 1) ++
      elementPieces style (depth + 1) others ++ [style.gap depth, "]"]
  | .object [] => ["\x7b\x7d"]
  | .object ((key, value) :: others) =>
    "\x7b" :: style.gap (depth + 1) :: quote key :: style.colon ::
      value.pieces style (depth + 1) ++
      memberPieces style (depth + 1) others ++ [style.gap depth, "\x7d"]

def elementPieces (style : Style) (depth : Nat) : List Value → List String
  | [] => []
  | value :: others =>
    "," :: style.gap depth :: value.pieces style depth ++ elementPieces style depth others

/-- The pieces of the members after the first. -/
def memberPieces (style : Style) (depth : Nat) : List (String × Value) → List String
  | [] => []
  | (key, value) :: others =>
    "," :: style.gap depth :: quote key :: style.colon :: value.pieces style depth ++
      memberPieces style depth others

end

def Value.render (style : Style) (value : Value) : String :=
  String.join (value.pieces style 0)

end HypervisorTrace.Json
