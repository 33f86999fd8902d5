import HypervisorTrace.Proofs.Clock.Conversion

/-!
How far times are from exact ones. Two quotients are rounded down on the way:
the quantum, and a time that is computed with it. The first makes times longer
than exact, by one part in as many as the quantum has; the second makes them
shorter, but never by a whole nanosecond more than rounding the exact time
would. So the error has one side, and it is largest at the lowest frequencies
that can be used, whose quantum is one.
-/

namespace HypervisorTrace.Clock

section Quotients

variable (cpuHz : UInt64)

theorem quantum_mul_le : quantum cpuHz * 1000000000 ≤ cpuHz.toNat * 1024 :=
  Nat.div_mul_le_self _ _

theorem lt_quantum_succ_mul : cpuHz.toNat * 1024 < (quantum cpuHz + 1) * 1000000000 := by
  rw [Nat.mul_comm (quantum cpuHz + 1)]
  exact Nat.lt_mul_div_succ _ (by decide)

variable {cpuHz} (cycles : Nat)

/-- A time is not shorter than the exact one rounded down. -/
theorem exact_le_quotient (husable : 1 ≤ quantum cpuHz) :
    cycles * 1000000000 / cpuHz.toNat ≤ cycles * 1024 / quantum cpuHz := by
  have hexact : cycles * 1000000000 / cpuHz.toNat * cpuHz.toNat ≤ cycles * 1000000000 :=
    Nat.div_mul_le_self _ _
  rw [Nat.le_div_iff_mul_le husable]
  apply Nat.le_of_mul_le_mul_right _ (by decide : 0 < 1000000000)
  calc cycles * 1000000000 / cpuHz.toNat * quantum cpuHz * 1000000000
      = cycles * 1000000000 / cpuHz.toNat * (quantum cpuHz * 1000000000) := Nat.mul_assoc _ _ _
    _ ≤ cycles * 1000000000 / cpuHz.toNat * (cpuHz.toNat * 1024) :=
        Nat.mul_le_mul_left _ (quantum_mul_le cpuHz)
    _ = cycles * 1000000000 / cpuHz.toNat * cpuHz.toNat * 1024 := (Nat.mul_assoc _ _ _).symm
    _ ≤ cycles * 1000000000 * 1024 := Nat.mul_le_mul_right _ hexact
    _ = cycles * 1024 * 1000000000 := by ring

/-- A time is longer than the exact one by one part in as many as the quantum
has, at most. -/
theorem quotient_mul_le :
    cycles * 1024 / quantum cpuHz * quantum cpuHz * cpuHz.toNat ≤
      cycles * 1000000000 * (quantum cpuHz + 1) := by
  calc cycles * 1024 / quantum cpuHz * quantum cpuHz * cpuHz.toNat
      ≤ cycles * 1024 * cpuHz.toNat := Nat.mul_le_mul_right _ (Nat.div_mul_le_self _ _)
    _ = cycles * (cpuHz.toNat * 1024) := by ring
    _ ≤ cycles * ((quantum cpuHz + 1) * 1000000000) :=
        Nat.mul_le_mul_left _ (Nat.le_of_lt (lt_quantum_succ_mul cpuHz))
    _ = cycles * 1000000000 * (quantum cpuHz + 1) := by ring

end Quotients

namespace Conversion

/-- How many cycles a counter is away from the epoch, on either side. -/
def distance (conversion : Conversion) (counter : UInt64) : Nat :=
  Nat.dist conversion.epoch.toNat counter.toNat

/-- At a frequency that can be used, the time of a counter is not shorter than
the exact one rounded down, and longer than the exact one by one part in as many
as the quantum has, at most. Only where the quotient has reached the largest
time is it held there. -/
theorem nanoseconds_accurate {clock : Clock} (husable : 1 ≤ Clock.quantum clock.cpuHz)
    (first counter : UInt64) :
    let cycles := (ofClock clock first).distance counter
    let time := ((ofClock clock first).nanoseconds counter).natAbs
    (time < maxNanoseconds →
      cycles * 1000000000 / clock.cpuHz.toNat ≤ time ∧
        time * Clock.quantum clock.cpuHz * clock.cpuHz.toNat ≤
          cycles * 1000000000 * (Clock.quantum clock.cpuHz + 1)) ∧
      (time = maxNanoseconds → maxNanoseconds ≤ cycles * 1024 / Clock.quantum clock.cpuHz) := by
  intro cycles time
  have hquantum : (ofClock clock first).quantum = Clock.quantum clock.cpuHz :=
    if_neg (Nat.ne_of_gt husable)
  have htime : time = min (cycles * 1024 / Clock.quantum clock.cpuHz) maxNanoseconds := by
    rw [← hquantum]
    exact natAbs_since _ _ _
  constructor
  · intro hbelow
    have hquotient : time = cycles * 1024 / Clock.quantum clock.cpuHz := by omega
    rw [hquotient]
    exact ⟨exact_le_quotient cycles husable, quotient_mul_le cycles⟩
  · intro hheld
    omega

/-- The highest frequency with a quantum of one: times are almost twice as long
as exact ones, here that of a counter before the first one, until they are held
at the largest. -/
theorem nanoseconds_accurate_quantum_one :
    let conversion := ofClock ⟨1953124, false⟩ 3000
    Clock.quantum 1953124 = 1 ∧
      (conversion.nanoseconds 1000 = -2048000 ∧ 2000 * 1000000000 / 1953124 ≤ 2048000 ∧
        2048000 * 1 * 1953124 ≤ 2000 * 1000000000 * (1 + 1)) ∧
      conversion.nanoseconds 0xffffffffffffffff = maxNanoseconds ∧
      maxNanoseconds ≤ (0xffffffffffffffff - 3000) * 1024 / 1 := by
  intro conversion
  have husable : 1 ≤ Clock.quantum 1953124 := by decide
  have hnear := @nanoseconds_accurate ⟨1953124, false⟩ husable 3000 1000
  have hfar := @nanoseconds_accurate ⟨1953124, false⟩ husable 3000 0xffffffffffffffff
  exact ⟨by decide, ⟨by decide, hnear.1 (by decide)⟩, by decide, hfar.2 (by decide)⟩

end Conversion

end HypervisorTrace.Clock
