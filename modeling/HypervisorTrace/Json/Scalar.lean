import HypervisorTrace.Json.Node
import HypervisorTrace.Text

/-!
What the strings and the numbers of a JSON text stand for.
-/

namespace HypervisorTrace.Json

def unescapeByte (byte : UInt8) : UInt8 :=
  if byte = 0x62 then 0x08
  else if byte = 0x66 then 0x0c
  else if byte = 0x6e then 0x0a
  else if byte = 0x72 then 0x0d
  else if byte = 0x74 then 0x09
  else byte

def isHighSurrogate (unit : Nat) : Bool :=
  0xd800 ≤ unit && unit < 0xdc00

def isLowSurrogate (unit : Nat) : Bool :=
  0xdc00 ≤ unit && unit < 0xe000

/-- The bytes of a string without its escapes. A character above the basic plane is escaped as a
surrogate pair; half a pair stands for nothing. -/
def unescape? : List UInt8 → Option (List UInt8)
  | [] => some []
  | 0x5c :: 0x75 :: a :: b :: c :: d :: 0x5c :: 0x75 :: e :: f :: g :: h :: rest =>
    match hexNumber? a b c d, hexNumber? e f g h with
    | some first, some second =>
      if isHighSurrogate first then
        if isLowSurrogate second then
          let code := 0x10000 + (first - 0xd800) * 0x400 + (second - 0xdc00)
          (unescape? rest).map (String.utf8EncodeChar (Char.ofNat code) ++ ·)
        else
          none
      else if isLowSurrogate first then
        none
      else
        (unescape? (0x5c :: 0x75 :: e :: f :: g :: h :: rest)).map
          (String.utf8EncodeChar (Char.ofNat first) ++ ·)
    | _, _ => none
  | 0x5c :: 0x75 :: a :: b :: c :: d :: rest =>
    match hexNumber? a b c d with
    | some unit =>
      if isHighSurrogate unit || isLowSurrogate unit then
        none
      else
        (unescape? rest).map (String.utf8EncodeChar (Char.ofNat unit) ++ ·)
    | none => none
  | 0x5c :: escaped :: rest => (unescape? rest).map (unescapeByte escaped :: ·)
  | byte :: rest => (unescape? rest).map (byte :: ·)
termination_by bytes => bytes.length

def text? (body : List UInt8) : Option String :=
  (unescape? body).bind Text.ofUtf8?

def ofDigits (digits : List UInt8) : Nat :=
  Nat.ofDigitChars 10 (digits.map Char.ofUInt8) 0

/-- The whole number that is written by digits and perhaps a sign. Zero has no sign, and a number
with a fraction or an exponent is not taken for whole. -/
def whole? (lexeme : List UInt8) : Option Int :=
  match lexeme with
  | 0x2d :: digits =>
    if digits.all isDigit ∧ ofDigits digits ≠ 0 then some (-(ofDigits digits : Int)) else none
  | digits => if digits.all isDigit then some (ofDigits digits) else none

namespace Node

def string? : Node → Option String
  | string body => text? body
  | _ => none

def bool? : Node → Option Bool
  | bool value => some value
  | _ => none

def whole? (least greatest : Int) : Node → Option Int
  | number digits =>
    (Json.whole? digits).filter fun value => least ≤ value && value ≤ greatest
  | _ => none

def array? : Node → Option (List Node)
  | array elements => some elements
  | _ => none

end Node

end HypervisorTrace.Json
