import HypervisorTrace.Text

/-!
TOML values, and how those that are no strings and hold no others are read: truth values, integers
of 64 bits in four bases, floats, and points in time. Each is one word of letters, digits and a few
signs, except that a space may stand between a date and a time.
-/

namespace HypervisorTrace.Toml

/-- A value. Numbers with a fraction and points in time are kept as they are written. -/
inductive Value where
  | string (text : String)
  | integer (value : Int)
  | float (written : String)
  | boolean (value : Bool)
  | dateTime (written : String)
  | array (elements : List Value)
  | table (entries : List (String × Value))

/-- The digits that some characters are, with single underscores between them. -/
def digits? (base : Nat) : List Char → Option (List Nat)
  | [] => none
  | [char] => (Text.digit? base char).map ([·])
  | char :: '_' :: rest => do return (← Text.digit? base char) :: (← digits? base rest)
  | char :: rest => do return (← Text.digit? base char) :: (← digits? base rest)

def splitSign : List Char → Bool × List Char
  | '+' :: rest => (false, rest)
  | '-' :: rest => (true, rest)
  | chars => (false, chars)

def isLeading (chars : List Char) : Bool :=
  chars.head? ≠ some '0' || chars.length == 1

def integer? (chars : List Char) : Option Int :=
  let value? : Option Int :=
    match chars with
    | '0' :: 'x' :: rest => (digits? 16 rest).map fun digits => (Text.ofDigits 16 digits : Int)
    | '0' :: 'o' :: rest => (digits? 8 rest).map fun digits => (Text.ofDigits 8 digits : Int)
    | '0' :: 'b' :: rest => (digits? 2 rest).map fun digits => (Text.ofDigits 2 digits : Int)
    | _ =>
      let (negative, magnitude) := splitSign chars
      if isLeading magnitude then
        (digits? 10 magnitude).map fun digits =>
          if negative then -(Text.ofDigits 10 digits : Int) else Text.ofDigits 10 digits
      else
        none
  value?.filter fun value => Int64.minValue.toInt ≤ value && value ≤ Int64.maxValue.toInt

/-- Whether a decimal number, digits times a power of ten, is too large for a double. -/
def overflows (digits : List Nat) (exponent : Int) : Bool :=
  let number := Text.ofDigits 10 digits
  let significant := digits.dropWhile (· = 0)
  let size : Int := significant.length + exponent
  if significant = [] ∨ size < 300 then false
  else if 320 < size then true
  else
    (Nat.pow 2 54 - 1) * Nat.pow 2 970 * Nat.pow 10 (-exponent).toNat ≤
      number * Nat.pow 10 exponent.toNat

/-- Whether some characters are a float. It has a fraction or an exponent or both, or is infinite
or no number; a positive one must not be too large. -/
def isFloat (chars : List Char) : Bool :=
  let (negative, magnitude) := splitSign chars
  if magnitude = ['i', 'n', 'f'] ∨ magnitude = ['n', 'a', 'n'] then
    true
  else
    let isExponentMark := fun char => char = 'e' || char = 'E'
    let mantissa := magnitude.takeWhile fun char => !isExponentMark char
    let exponent := magnitude.dropWhile fun char => !isExponentMark char
    let whole := mantissa.takeWhile (· ≠ '.')
    let fraction := mantissa.dropWhile (· ≠ '.')
    let (exponentNegative, exponentDigits) := splitSign (exponent.drop 1)
    let fractionDigits? := if fraction = [] then some [] else digits? 10 (fraction.drop 1)
    let exponentDigits? := if exponent = [] then some [] else digits? 10 exponentDigits
    match digits? 10 whole, fractionDigits?, exponentDigits? with
    | some first, some second, some third =>
      let power : Int := Text.ofDigits 10 third
      let scale := (if exponentNegative then -power else power) - second.length
      isLeading whole && (fraction ≠ [] || exponent ≠ []) &&
        (negative || !overflows (first ++ second) scale)
    | _, _, _ => false

def takeNumber (count : Nat) (chars : List Char) : Option (Nat × List Char) :=
  let digits := chars.take count
  if digits.length = count ∧ digits.all Char.isDigit then
    some (Nat.ofDigitChars 10 digits 0, chars.drop count)
  else
    none

def takeSign (sign : Char) : List Char → Option (List Char)
  | [] => none
  | char :: rest => if char = sign then some rest else none

def daysOfMonth (year month : Nat) : Nat :=
  if month = 2 then
    if (year % 4 = 0 ∧ year % 100 ≠ 0) ∨ year % 400 = 0 then 29 else 28
  else if month ∈ [4, 6, 9, 11] then 30
  else 31

def takeDate (chars : List Char) : Option (List Char) := do
  let (year, rest) ← takeNumber 4 chars
  let rest ← takeSign '-' rest
  let (month, rest) ← takeNumber 2 rest
  let rest ← takeSign '-' rest
  let (day, rest) ← takeNumber 2 rest
  if 1 ≤ month ∧ month ≤ 12 ∧ 1 ≤ day ∧ day ≤ daysOfMonth year month then some rest else none

def takeMinutes (chars : List Char) : Option (List Char) := do
  let (hour, rest) ← takeNumber 2 chars
  let rest ← takeSign ':' rest
  let (minute, rest) ← takeNumber 2 rest
  if hour ≤ 23 ∧ minute ≤ 59 then some rest else none

/-- What follows a time of day. A minute may have a leap second. -/
def takeTime (chars : List Char) : Option (List Char) := do
  let rest ← takeMinutes chars
  let rest ← takeSign ':' rest
  let (second, rest) ← takeNumber 2 rest
  if second ≤ 60 then
    match rest with
    | '.' :: fraction =>
      if (fraction.head?).any Char.isDigit then some (fraction.dropWhile Char.isDigit) else none
    | _ => some rest
  else
    none

def isOffset : List Char → Bool
  | [] => true
  | ['Z'] => true
  | ['z'] => true
  | '+' :: rest => takeMinutes rest == some []
  | '-' :: rest => takeMinutes rest == some []
  | _ => false

/-- Whether some characters are a date, a time of day, or both with or without an offset. -/
def isDateTime (chars : List Char) : Bool :=
  takeTime chars == some [] ||
    match takeDate chars with
    | none => false
    | some [] => true
    | some (mark :: rest) =>
      (mark = 'T' || mark = 't' || mark = ' ') && ((takeTime rest).map isOffset).getD false

def scalar? (chars : List Char) : Option Value :=
  if chars = "true".toList then some (.boolean true)
  else if chars = "false".toList then some (.boolean false)
  else
    match integer? chars with
    | some value => some (.integer value)
    | none =>
      if isFloat chars then some (.float (String.ofList chars))
      else if isDateTime chars then some (.dateTime (String.ofList chars))
      else none

def isScalarChar (char : Char) : Bool :=
  char.isAlphanum || char = '+' || char = '-' || char = '_' || char = '.' || char = ':'

def takeScalar (chars : List Char) : Option (Value × List Char) :=
  let first := chars.takeWhile isScalarChar
  let rest := chars.dropWhile isScalarChar
  match takeDate first, rest with
  | some [], ' ' :: next :: others =>
    if next.isDigit then
      let second := (next :: others).takeWhile isScalarChar
      (scalar? (first ++ ' ' :: second)).map (·, (next :: others).dropWhile isScalarChar)
    else
      (scalar? first).map (·, rest)
  | _, _ => (scalar? first).map (·, rest)

end HypervisorTrace.Toml
