import HypervisorTrace.Json.Token

/-!
The nodes of a JSON text: how its tokens nest. Like the tokens, the nodes keep strings and numbers
as they are written; what those stand for is asked for where it matters.
-/

namespace HypervisorTrace.Json

inductive Node where
  | null
  | bool (value : Bool)
  | number (digits : List UInt8)
  | string (body : List UInt8)
  | array (elements : List Node)
  /-- The members in the order in which they are written; a key may occur more than once. -/
  | object (members : List (List UInt8 × Node))

mutual

/-- The first value of some tokens, and what follows it. The fuel bounds the steps. -/
def takeNode : Nat → List Token → Option (Node × List Token)
  | 0, _ => none
  | _ + 1, .null :: rest => some (.null, rest)
  | _ + 1, .bool value :: rest => some (.bool value, rest)
  | _ + 1, .number digits :: rest => some (.number digits, rest)
  | _ + 1, .string body :: rest => some (.string body, rest)
  | _ + 1, .openBracket :: .closeBracket :: rest => some (.array [], rest)
  | fuel + 1, .openBracket :: rest =>
    (takeElements fuel rest).map fun found => (.array found.1, found.2)
  | _ + 1, .openBrace :: .closeBrace :: rest => some (.object [], rest)
  | fuel + 1, .openBrace :: rest =>
    (takeMembers fuel rest).map fun found => (.object found.1, found.2)
  | _ + 1, _ => none

def takeElements : Nat → List Token → Option (List Node × List Token)
  | 0, _ => none
  | fuel + 1, tokens =>
    match takeNode fuel tokens with
    | some (element, .comma :: rest) =>
      (takeElements fuel rest).map fun found => (element :: found.1, found.2)
    | some (element, .closeBracket :: rest) => some ([element], rest)
    | _ => none

def takeMembers : Nat → List Token → Option (List (List UInt8 × Node) × List Token)
  | 0, _ => none
  | fuel + 1, .string key :: .colon :: tokens =>
    match takeNode fuel tokens with
    | some (value, .comma :: rest) =>
      (takeMembers fuel rest).map fun found => ((key, value) :: found.1, found.2)
    | some (value, .closeBrace :: rest) => some ([(key, value)], rest)
    | _ => none
  | _ + 1, _ => none

end

/-- The value that a text is, if it is one. Every step of the reading uses up a token or ends, so
the number of tokens bounds the steps. -/
def Node.ofBytes? (bytes : List UInt8) : Option Node :=
  match tokens? bytes with
  | none => none
  | some tokens =>
    match takeNode (tokens.length + 1) tokens with
    | some (node, []) => some node
    | _ => none

end HypervisorTrace.Json
