import HypervisorTrace.Text

/-!
The clock of a trace: the frequency of the cycle counter, whether times are counted from counter
zero or from the first record, and the way from cycle counters to nanoseconds.
-/

namespace HypervisorTrace

namespace Clock.Frequency

/-!
### Frequencies

A frequency is written as a decimal number, perhaps a unit of k, m or g for thousands, millions or
thousands of millions, perhaps `hz`, all in either case and with blanks around the number. The
value is exact, and what is left of a hertz is dropped.
-/

def dropHertz (chars : List Char) : List Char :=
  match chars.reverse with
  | z :: h :: rest => if z.toLower = 'z' ∧ h.toLower = 'h' then rest.reverse else chars
  | _ => chars

/-- The multiplier that a character stands for as a unit. -/
def unit? (char : Char) : Option Nat :=
  match char.toLower with
  | 'k' => some 1000
  | 'm' => some 1000000
  | 'g' => some 1000000000
  | _ => none

/-- The characters without a final unit, and the multiplier of that unit, one if there is none. -/
def splitUnit (chars : List Char) : List Char × Nat :=
  match chars.reverse with
  | [] => ([], 1)
  | last :: rest =>
    match unit? last with
    | some multiplier => (rest.reverse, multiplier)
    | none => (chars, 1)

/-- A decimal number times a multiplier, rounded down. The number has a digit at least and a point
at most. Its digits without the point, and the multiple of them, must stay below 2^128, there may
be 38 digits after the point, and the result must fit in 64 bits. -/
def scale? (number : List Char) (multiplier : Nat) : Option UInt64 :=
  let whole := number.takeWhile (· != '.')
  let fraction := (number.dropWhile (· != '.')).drop 1
  let digits := whole ++ fraction
  let significand := Nat.ofDigitChars 10 digits 0
  let numerator := significand * multiplier
  let value := numerator / Nat.pow 10 fraction.length
  if digits ≠ [] ∧ digits.all Char.isDigit ∧ fraction.length ≤ 38 ∧
      significand < Nat.pow 2 128 ∧ numerator < Nat.pow 2 128 ∧ value < UInt64.size then
    some (UInt64.ofNat value)
  else
    none

/-- The frequency that a text gives in hertz, if it gives one. Zero is none. -/
def parse? (text : String) : Option UInt64 :=
  let (number, multiplier) := splitUnit (dropHertz (Text.trim text.toList))
  match scale? (Text.trim number) multiplier with
  | some hertz => if hertz = 0 then none else some hertz
  | none => none

end Clock.Frequency

/-!
### Settings

Texts from outside override the settings of the clock; a text that gives no frequency overrides
nothing, any text overrides the choice of the epoch.
-/

structure Clock where
  cpuHz : UInt64
  /-- Whether times are counted from counter zero instead of the first record. -/
  absolute : Bool
  deriving DecidableEq

namespace Clock

def defaultHz : UInt64 := 2400000000

def standard : Clock :=
  ⟨defaultHz, false⟩

def frequencyKey : String := "XEN_CPUHZ"

def absoluteKey : String := "XEN_ABSTS"

/-- Whether a text means yes: its first character that is not blank is 1, y or t, the letters in
either case. -/
def parseFlag (text : String) : Bool :=
  match text.toList.dropWhile Text.isBlank with
  | first :: _ => first ∈ ['1', 'y', 'Y', 't', 'T']
  | [] => false

def overrideHz (clock : Clock) (text : Option String) : Clock :=
  match text.bind Frequency.parse? with
  | some hertz => { clock with cpuHz := hertz }
  | none => clock

def overrideAbsolute (clock : Clock) (text : Option String) : Clock :=
  match text with
  | some text => { clock with absolute := parseFlag text }
  | none => clock

def withOverrides (clock : Clock) (source : String → Option String) : Clock :=
  (clock.overrideHz (source frequencyKey)).overrideAbsolute (source absoluteKey)

def ofEnvironment (environment : String → Option String) : Clock :=
  standard.withOverrides environment

/-- The settings with the frequency that a text gives, the default one if it gives none. -/
def setHz (clock : Clock) (text : String) : Clock :=
  { clock with cpuHz := (Frequency.parse? text).getD defaultHz }

/-!
### Conversion

The frequency is turned once into cycles per 1024 nanoseconds, a whole number; a distance of cycles
times 1024 divided by it is the time. Times before the epoch are negative, and a time beyond 64
bits is held at the largest one.
-/

/-- Cycles per 1024 nanoseconds, rounded down. -/
def quantum (cpuHz : UInt64) : Nat :=
  cpuHz.toNat * 1024 / 1000000000

/-- The largest time there is, the largest signed number of 64 bits. -/
def maxNanoseconds : Nat := 0x7fffffffffffffff

structure Conversion where
  clock : Clock
  /-- Cycles per 1024 nanoseconds; the default frequency serves where the given one is too low. -/
  quantum : Nat
  /-- The counter at which times are zero. -/
  epoch : UInt64
  deriving DecidableEq

namespace Conversion

def ofClock (clock : Clock) (first : UInt64) : Conversion where
  clock := clock
  quantum := if Clock.quantum clock.cpuHz = 0 then Clock.quantum defaultHz
    else Clock.quantum clock.cpuHz
  epoch := if clock.absolute then 0 else first

def scale (conversion : Conversion) (cycles : Nat) : Nat :=
  min (cycles * 1024 / conversion.quantum) maxNanoseconds

def since (conversion : Conversion) (epoch counter : UInt64) : Int :=
  if epoch ≤ counter then
    conversion.scale (counter.toNat - epoch.toNat)
  else
    -conversion.scale (epoch.toNat - counter.toNat)

def nanoseconds (conversion : Conversion) (counter : UInt64) : Int :=
  conversion.since conversion.epoch counter

def absoluteNanoseconds (conversion : Conversion) (counter : UInt64) : Int :=
  conversion.since 0 counter

end Conversion

end Clock

end HypervisorTrace
