/-!
Texts: the numbers, the times and the bytes that they stand for, and how they are laid out.
-/

namespace HypervisorTrace.Text

/-!
### Bytes

Every text has one encoding, and the bytes that encode no text are refused.
-/

def utf8 (text : String) : List UInt8 :=
  text.toList.flatMap String.utf8EncodeChar

def ofUtf8? (bytes : List UInt8) : Option String :=
  String.fromUTF8? bytes.toByteArray

@[simp] theorem utf8_append (first second : String) :
    utf8 (first ++ second) = utf8 first ++ utf8 second := by
  simp [utf8]

@[simp] theorem ofUtf8?_utf8 (text : String) : ofUtf8? (utf8 text) = some text := by
  have same : (utf8 text).toByteArray = text.toByteArray := by
    rw [← String.ofList_toList (s := text), String.toByteArray_ofList]
    simp [utf8, List.utf8Encode]
  have valid : text.toByteArray.IsValidUTF8 := text.isValidUTF8
  simp only [ofUtf8?, String.fromUTF8?, same, valid, dif_pos]
  rfl

/-!
### Blanks

Blank characters surround a value without being part of it. They are the twenty-five characters
with the Unicode property White_Space.
-/

/-- Whether a character has the property White_Space. -/
def isBlank (char : Char) : Bool :=
  let code := char.toNat
  (0x09 ≤ code && code ≤ 0x0d) || code == 0x20 || code == 0x85 || code == 0xa0 ||
    code == 0x1680 || (0x2000 ≤ code && code ≤ 0x200a) || code == 0x2028 || code == 0x2029 ||
    code == 0x202f || code == 0x205f || code == 0x3000

def trimEnd (chars : List Char) : List Char :=
  (chars.reverse.dropWhile isBlank).reverse

def trim (chars : List Char) : List Char :=
  trimEnd (chars.dropWhile isBlank)

/-!
### Columns and colours

A cell shorter than its column is filled with spaces, a longer one is kept whole. Painted text
stands between a selecting sequence and a reset; where the output is not to be coloured, it stays
as it is.
-/

def run (count : Nat) (char : Char) : String :=
  String.ofList (List.replicate count char)

def padRight (width : Nat) (text : String) : String :=
  text ++ run (width - text.length) ' '

def padLeft (width : Nat) (text : String) : String :=
  run (width - text.length) ' ' ++ text

inductive Paint where
  | bold
  | dimmed
  | red
  | green
  | yellow

def Paint.code : Paint → String
  | bold => "1"
  | dimmed => "2"
  | red => "31"
  | green => "32"
  | yellow => "33"

def paint (coloured : Bool) (style : Paint) (text : String) : String :=
  if coloured then "\x1b[" ++ style.code ++ "m" ++ text ++ "\x1b[0m" else text

/-!
### Numerals

Natural numbers in positional notation, with the letters from a on as digits above nine. They are
written in lower case and filled with zeros on the left up to a least width, and read in either
case.
-/

/-- The digits of a number in a base, at least `width` of them. -/
def numeral (base width number : Nat) : String :=
  String.ofList ((Nat.toDigits base number).leftpad width '0')

def hex (width number : Nat) : String :=
  numeral 16 width number

def decimal (width number : Nat) : String :=
  numeral 10 width number

/-- The value of a digit in a base up to sixteen. -/
def digit? (base : Nat) (char : Char) : Option Nat :=
  let value :=
    if char.isDigit then char.toNat - '0'.toNat
    else if 'a' ≤ char ∧ char ≤ 'f' then char.toNat - 'a'.toNat + 10
    else if 'A' ≤ char ∧ char ≤ 'F' then char.toNat - 'A'.toNat + 10
    else base
  if value < base then some value else none

/-- The number with some digits in a base, the most significant first. -/
def ofDigits (base : Nat) (digits : List Nat) : Nat :=
  digits.foldl (fun number digit => base * number + digit) 0

/-!
### Points in time

The date and the time of day in universal time, with as many places of a second, by threes, as are
not zero.
-/

/-- The year, the month and the day, as many days after the first of January 1970. Years are
counted from March, so that a leap day is the last of its year, and in eras of 400 years, which
are all as long. -/
def dateOfDays (days : Nat) : Nat × Nat × Nat :=
  let shifted := days + 719468
  let dayOfEra := shifted % 146097
  let yearOfEra := (dayOfEra - dayOfEra / 1460 + dayOfEra / 36524 - dayOfEra / 146096) / 365
  let dayOfYear := dayOfEra - (365 * yearOfEra + yearOfEra / 4 - yearOfEra / 100)
  let fromMarch := (5 * dayOfYear + 2) / 153
  let day := dayOfYear - (153 * fromMarch + 2) / 5 + 1
  let month := if fromMarch < 10 then fromMarch + 3 else fromMarch - 9
  let year := shifted / 146097 * 400 + yearOfEra + (if month ≤ 2 then 1 else 0)
  (year, month, day)

def fraction (nanoseconds : Nat) : String :=
  if nanoseconds = 0 then ""
  else if nanoseconds % 1000000 = 0 then "." ++ decimal 3 (nanoseconds / 1000000)
  else if nanoseconds % 1000 = 0 then "." ++ decimal 6 (nanoseconds / 1000)
  else "." ++ decimal 9 nanoseconds

def timestamp (seconds nanoseconds : Nat) : String :=
  let (year, month, day) := dateOfDays (seconds / 86400)
  let rest := seconds % 86400
  decimal 4 year ++ "-" ++ decimal 2 month ++ "-" ++ decimal 2 day ++ "T" ++
    decimal 2 (rest / 3600) ++ ":" ++ decimal 2 (rest / 60 % 60) ++ ":" ++ decimal 2 (rest % 60) ++
    fraction nanoseconds ++ "+00:00"

/-!
### Quotients

Decimal text of quotients that are held in binary floating point. A quotient is first rounded to
the 53 significant bits of a double, a half to the even neighbour, and then written with a fixed
number of decimal places, again with a half to the even neighbour. Both steps are exact in natural
numbers.
-/

/-- A number that is not negative, as a quotient; the denominator is positive. -/
structure Ratio where
  numerator : Nat
  denominator : Nat
  deriving DecidableEq

def roundHalfEven (numerator denominator : Nat) : Nat :=
  let quotient := numerator / denominator
  let twice := 2 * (numerator % denominator)
  if twice < denominator ∨ (twice = denominator ∧ quotient % 2 = 0) then quotient else quotient + 1

namespace Ratio

def exponent (ratio : Ratio) : Int :=
  let estimate : Int := (ratio.numerator.log2 : Int) - ratio.denominator.log2
  let up := Nat.pow 2 estimate.toNat
  let down := Nat.pow 2 (-estimate).toNat
  if ratio.denominator * up ≤ ratio.numerator * down then
    estimate
  else
    estimate - 1

/-- The nearest number with 53 significant bits, for numbers well inside the range of a double. -/
def toDouble (ratio : Ratio) : Ratio :=
  if ratio.numerator = 0 then
    ⟨0, 1⟩
  else
    let unit := ratio.exponent - 52
    let up := Nat.pow 2 unit.toNat
    let down := Nat.pow 2 (-unit).toNat
    ⟨roundHalfEven (ratio.numerator * down) (ratio.denominator * up) * up, down⟩

def divide (ratio : Ratio) (divisor : Nat) : Ratio :=
  ⟨ratio.numerator, ratio.denominator * divisor⟩

def multiply (ratio : Ratio) (factor : Nat) : Ratio :=
  ⟨ratio.numerator * factor, ratio.denominator⟩

def fixed (places : Nat) (ratio : Ratio) : String :=
  let unit := Nat.pow 10 places
  let scaled := roundHalfEven (ratio.numerator * unit) ratio.denominator
  toString (scaled / unit) ++ "." ++ decimal places (scaled % unit)

end Ratio

/-- Nanoseconds as seconds with six places. A negative time keeps its sign even where all the digits
are zero. -/
def seconds (nanoseconds : Int) : String :=
  let magnitude := ((Ratio.mk nanoseconds.natAbs 1).toDouble.divide 1000000000).toDouble
  (if nanoseconds < 0 then "-" else "") ++ magnitude.fixed 6

/-- A part of a whole in percent with two places; nothing is no part of nothing. -/
def percentage (part whole : Nat) : String :=
  if whole = 0 then
    (Ratio.mk 0 1).fixed 2
  else
    ((Ratio.mk part whole).toDouble.multiply 100).toDouble.fixed 2

end HypervisorTrace.Text
