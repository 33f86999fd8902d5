import HypervisorTrace.Proofs.Clock.Conversion

/-!
The conversion of counters in registers. A product is held in 128 bits, the
quantum and a distance of counters in 64, and a time in 64 bits with a sign. A
step whose result does not fit, that goes below zero without a sign or divides
by zero, has no result here. Every step of the conversion has one, whatever
the frequency is, so what registers compute are the times that unbounded
numbers give.
-/

namespace HypervisorTrace

namespace Register

/-- A number in a register of some bits, if it fits. -/
def hold? (bits number : Nat) : Option Nat :=
  if number < 2 ^ bits then some number else none

/-- A number in a register of 64 bits with a sign, if it fits. -/
def holdSigned? (number : Int) : Option Int :=
  if -0x8000000000000000 ≤ number ∧ number < 0x8000000000000000 then some number else none

def subtract? (number other : Nat) : Option Nat :=
  if other ≤ number then some (number - other) else none

def divide? (number divisor : Nat) : Option Nat :=
  if divisor = 0 then none else some (number / divisor)

variable {bits number other divisor : Nat}

theorem hold?_of_lt (hfits : number < 2 ^ bits) : hold? bits number = some number :=
  if_pos hfits

theorem subtract?_of_le (hle : other ≤ number) : subtract? number other = some (number - other) :=
  if_pos hle

theorem divide?_of_pos (hpos : 0 < divisor) : divide? number divisor = some (number / divisor) :=
  if_neg (Nat.ne_of_gt hpos)

theorem holdSigned?_of_natAbs_le {number : Int} (hbound : number.natAbs ≤ Clock.maxNanoseconds) :
    holdSigned? number = some number := by
  apply if_pos
  rw [Clock.maxNanoseconds] at hbound
  omega

/-- Where a number does not fit, the largest time stands for it. -/
theorem getD_holdSigned? (number : Nat) :
    (holdSigned? number).getD Clock.maxNanoseconds = (min number Clock.maxNanoseconds : Nat) := by
  rcases Nat.lt_or_ge Clock.maxNanoseconds number with hlarge | hfits
  · have hnot : ¬ ((number : Int) < 0x8000000000000000) := by
      rw [Clock.maxNanoseconds] at hlarge
      omega
    rw [holdSigned?, if_neg (fun hboth => hnot hboth.2), Nat.min_eq_right (Nat.le_of_lt hlarge)]
    rfl
  · have hheld : holdSigned? number = some (number : Int) := holdSigned?_of_natAbs_le hfits
    rw [hheld, Nat.min_eq_left hfits]
    rfl

end Register

namespace Clock

/-- Cycles per 1024 nanoseconds, from a product of 128 bits into a register of
64. -/
def quantum? (cpuHz : UInt64) : Option Nat := do
  let product ← Register.hold? 128 (cpuHz.toNat * 1024)
  let quotient ← Register.divide? product 1000000000
  Register.hold? 64 quotient

/-- The quantum of every frequency fits, with the product it comes from. -/
theorem quantum?_eq (cpuHz : UInt64) : quantum? cpuHz = some (quantum cpuHz) := by
  have hfrequency : cpuHz.toNat < 2 ^ 64 := cpuHz.toNat_lt
  have hproduct : cpuHz.toNat * 1024 < 2 ^ 128 := by omega
  have hquotient : cpuHz.toNat * 1024 / 1000000000 < 2 ^ 64 := by omega
  simp [quantum?, quantum, Register.hold?_of_lt hproduct, Register.hold?_of_lt hquotient,
    Register.divide?_of_pos]

namespace Conversion

/-- A conversion with the quantum that registers give. -/
def ofClock? (clock : Clock) (first : UInt64) : Option Conversion := do
  let given ← Clock.quantum? clock.cpuHz
  let quantum ← if given = 0 then Clock.quantum? defaultHz else some given
  return ⟨clock, quantum, if clock.absolute then 0 else first⟩

variable (conversion : Conversion)

def scale? (cycles : Nat) : Option Int := do
  let product ← Register.hold? 128 (cycles * 1024)
  let quotient ← Register.divide? product conversion.quantum
  return (Register.holdSigned? quotient).getD maxNanoseconds

def since? (epoch counter : UInt64) : Option Int :=
  if epoch ≤ counter then do
    let cycles ← Register.subtract? counter.toNat epoch.toNat
    conversion.scale? cycles
  else do
    let cycles ← Register.subtract? epoch.toNat counter.toNat
    let time ← conversion.scale? cycles
    Register.holdSigned? (-time)

def nanoseconds? (counter : UInt64) : Option Int :=
  conversion.since? conversion.epoch counter

theorem ofClock?_eq (clock : Clock) (first : UInt64) :
    ofClock? clock first = some (ofClock clock first) := by
  by_cases hlow : Clock.quantum clock.cpuHz = 0
  · simp [ofClock?, ofClock, quantum?_eq, hlow]
  · simp [ofClock?, ofClock, quantum?_eq, hlow]

variable {conversion}

theorem scale?_eq (hquantum : 0 < conversion.quantum) {cycles : Nat} (hcycles : cycles < 2 ^ 64) :
    conversion.scale? cycles = some (conversion.scale cycles : Int) := by
  have hproduct : cycles * 1024 < 2 ^ 128 := by omega
  simp only [scale?, Register.hold?_of_lt hproduct, Register.divide?_of_pos hquantum,
    Register.getD_holdSigned?, scale]
  rfl

theorem since?_eq (hquantum : 0 < conversion.quantum) (epoch counter : UInt64) :
    conversion.since? epoch counter = some (conversion.since epoch counter) := by
  have hepoch : epoch.toNat < 2 ^ 64 := epoch.toNat_lt
  have hcounter : counter.toNat < 2 ^ 64 := counter.toNat_lt
  rcases UInt64.le_or_lt epoch counter with hafter | hbefore
  · have hcycles : Register.subtract? counter.toNat epoch.toNat =
        some (counter.toNat - epoch.toNat) := Register.subtract?_of_le hafter
    have hscaled := scale?_eq hquantum (show counter.toNat - epoch.toNat < 2 ^ 64 by omega)
    rw [since?, if_pos hafter, hcycles, since_of_le conversion hafter]
    exact hscaled
  · have hcycles : Register.subtract? epoch.toNat counter.toNat =
        some (epoch.toNat - counter.toNat) := Register.subtract?_of_le (Nat.le_of_lt hbefore)
    have hscaled := scale?_eq hquantum (show epoch.toNat - counter.toNat < 2 ^ 64 by omega)
    have hnegated : (-(conversion.scale (epoch.toNat - counter.toNat) : Int)).natAbs ≤
        maxNanoseconds := by
      rw [Int.natAbs_neg, Int.natAbs_natCast]
      exact Nat.min_le_right _ maxNanoseconds
    rw [since?, if_neg (UInt64.not_le.mpr hbefore), hcycles, since_of_lt conversion hbefore]
    simp [hscaled, Register.holdSigned?_of_natAbs_le hnegated]

/-- What the times of a conversion owe to the counters. -/
structure FollowsCounters (conversion : Conversion) : Prop where
  quantum_pos : 1 ≤ conversion.quantum
  /-- Every time can be computed in registers. -/
  computed : ∀ counter, conversion.nanoseconds? counter = some (conversion.nanoseconds counter)
  ascending : ∀ earlier later, earlier ≤ later →
    conversion.nanoseconds earlier ≤ conversion.nanoseconds later
  bounded : ∀ counter, -(2 ^ 63 - 1) ≤ conversion.nanoseconds counter ∧
    conversion.nanoseconds counter ≤ 2 ^ 63 - 1
  zero : conversion.nanoseconds conversion.epoch = 0
  /-- Around the epoch times are opposite. -/
  symmetric : ∀ distance, distance ≤ conversion.epoch →
    conversion.epoch.toNat + distance.toNat < 2 ^ 64 →
    conversion.nanoseconds (conversion.epoch - distance) =
      -conversion.nanoseconds (conversion.epoch + distance)

/-- Whatever the frequency and the epoch are, the quantum fits in 64 bits, the
conversion can be set up in registers, and its times follow the counters. -/
theorem ofClock_followsCounters (clock : Clock) (first : UInt64) :
    Clock.quantum? clock.cpuHz = some (Clock.quantum clock.cpuHz) ∧
      ofClock? clock first = some (ofClock clock first) ∧
      (ofClock clock first).FollowsCounters := by
  refine ⟨quantum?_eq clock.cpuHz, ofClock?_eq clock first, ?_⟩
  constructor
  case quantum_pos => exact quantum_pos clock first
  case computed => exact since?_eq (quantum_pos clock first) _
  case ascending =>
    intro earlier later hcounters
    exact nanoseconds_mono _ hcounters
  case bounded =>
    intro counter
    have hbound := natAbs_nanoseconds_le (ofClock clock first) counter
    rw [maxNanoseconds] at hbound
    omega
  case zero => exact nanoseconds_epoch _
  case symmetric =>
    intro distance hbefore hafter
    exact nanoseconds_sub _ hbefore hafter

end Conversion

end Clock

end HypervisorTrace
