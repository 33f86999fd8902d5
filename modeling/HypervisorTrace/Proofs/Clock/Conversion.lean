import HypervisorTrace.Clock
import Mathlib.Data.Nat.Dist
import Mathlib.Tactic

/-!
Times follow counters. A conversion scales the distance of a counter from the
epoch, rounds it down and holds it at the largest time, and gives it a sign by
the side of the epoch it lies on. No step of this exchanges two counters, so
times are ordered as their counters are, whatever the frequency is and
wherever the epoch lies. Being held, times fit in 64 bits.
-/

namespace HypervisorTrace.Clock.Conversion

/-- The quantum that a conversion uses is never zero. -/
theorem quantum_pos (clock : Clock) (first : UInt64) : 0 < (ofClock clock first).quantum := by
  rw [ofClock]
  dsimp only
  split
  · decide
  · rename_i husable
    exact Nat.pos_of_ne_zero husable

variable (conversion : Conversion)

theorem scale_mono {few many : Nat} (hcycles : few ≤ many) :
    conversion.scale few ≤ conversion.scale many := by
  have hquotient : few * 1024 / conversion.quantum ≤ many * 1024 / conversion.quantum :=
    Nat.div_le_div_right (Nat.mul_le_mul_right 1024 hcycles)
  exact min_le_min_right maxNanoseconds hquotient

theorem since_of_le {epoch counter : UInt64} (hepoch : epoch ≤ counter) :
    conversion.since epoch counter = conversion.scale (counter.toNat - epoch.toNat) :=
  if_pos hepoch

theorem since_of_lt {epoch counter : UInt64} (hepoch : counter < epoch) :
    conversion.since epoch counter = -conversion.scale (epoch.toNat - counter.toNat) :=
  if_neg (UInt64.not_le.mpr hepoch)

@[simp] theorem scale_zero : conversion.scale 0 = 0 := by
  simp [scale]

@[simp] theorem since_self (epoch : UInt64) : conversion.since epoch epoch = 0 := by
  simp [since_of_le conversion (UInt64.le_refl epoch)]

/-- Up to the epoch, and at the epoch too, times are negated distances. -/
theorem since_of_ge {epoch counter : UInt64} (hepoch : counter ≤ epoch) :
    conversion.since epoch counter = -conversion.scale (epoch.toNat - counter.toNat) := by
  rcases UInt64.lt_or_eq_of_le hepoch with hbefore | rfl
  · exact conversion.since_of_lt hbefore
  · simp

/-- A time is as long as its counter is far from the epoch, on either side. -/
theorem natAbs_since (epoch counter : UInt64) :
    (conversion.since epoch counter).natAbs =
      conversion.scale (Nat.dist epoch.toNat counter.toNat) := by
  rcases UInt64.le_total epoch counter with hafter | hbefore
  · have hdistance := Nat.dist_eq_sub_of_le (UInt64.le_iff_toNat_le.mp hafter)
    rw [conversion.since_of_le hafter, hdistance, Int.natAbs_natCast]
  · have hdistance := Nat.dist_eq_sub_of_le_right (UInt64.le_iff_toNat_le.mp hbefore)
    rw [conversion.since_of_ge hbefore, hdistance, Int.natAbs_neg, Int.natAbs_natCast]

theorem since_mono (epoch : UInt64) {earlier later : UInt64} (hcounters : earlier ≤ later) :
    conversion.since epoch earlier ≤ conversion.since epoch later := by
  have hdistance : earlier.toNat ≤ later.toNat := hcounters
  rcases UInt64.le_or_lt epoch earlier with hearlier | hearlier
  · -- Both counters lie after the epoch.
    have hscaled := conversion.scale_mono (Nat.sub_le_sub_right hdistance epoch.toNat)
    rw [since_of_le conversion hearlier,
      since_of_le conversion (UInt64.le_trans hearlier hcounters)]
    exact_mod_cast hscaled
  · rw [since_of_lt conversion hearlier]
    rcases UInt64.le_or_lt epoch later with hlater | hlater
    · rw [since_of_le conversion hlater]
      omega
    · -- Both lie before it: the later one is nearer.
      have hscaled := conversion.scale_mono (Nat.sub_le_sub_left hdistance epoch.toNat)
      rw [since_of_lt conversion hlater]
      omega

/-- The time of a later counter is no earlier. -/
theorem nanoseconds_mono {earlier later : UInt64} (hcounters : earlier ≤ later) :
    conversion.nanoseconds earlier ≤ conversion.nanoseconds later :=
  conversion.since_mono conversion.epoch hcounters

@[simp] theorem nanoseconds_epoch : conversion.nanoseconds conversion.epoch = 0 :=
  conversion.since_self conversion.epoch

/-- Counters that are as far before the epoch as others are after it have the
opposite times. -/
theorem nanoseconds_sub {distance : UInt64} (hbefore : distance ≤ conversion.epoch)
    (hafter : conversion.epoch.toNat + distance.toNat < 2 ^ 64) :
    conversion.nanoseconds (conversion.epoch - distance) =
      -conversion.nanoseconds (conversion.epoch + distance) := by
  have hsub := UInt64.toNat_sub_of_le _ _ hbefore
  have hadd : (conversion.epoch + distance).toNat = conversion.epoch.toNat + distance.toNat := by
    rw [UInt64.toNat_add, Nat.mod_eq_of_lt hafter]
  have hlow : conversion.epoch - distance ≤ conversion.epoch := by
    apply UInt64.le_iff_toNat_le.mpr
    omega
  have hhigh : conversion.epoch ≤ conversion.epoch + distance := by
    apply UInt64.le_iff_toNat_le.mpr
    omega
  have hdistance : conversion.epoch.toNat - (conversion.epoch.toNat - distance.toNat) =
      distance.toNat := Nat.sub_sub_self hbefore
  rw [nanoseconds, nanoseconds, conversion.since_of_ge hlow, conversion.since_of_le hhigh, hsub,
    hadd, hdistance, Nat.add_sub_cancel_left]

theorem nanoseconds_nonneg {counter : UInt64} (hepoch : conversion.epoch ≤ counter) :
    0 ≤ conversion.nanoseconds counter := by
  have hordered := conversion.nanoseconds_mono hepoch
  rwa [nanoseconds_epoch] at hordered

/-- A time fits in 64 bits, and so does its negation. -/
theorem natAbs_nanoseconds_le (counter : UInt64) :
    (conversion.nanoseconds counter).natAbs ≤ maxNanoseconds := by
  rw [nanoseconds, natAbs_since]
  exact Nat.min_le_right _ maxNanoseconds

/-- A time survives in 64 bits. -/
theorem toInt_ofInt_nanoseconds (counter : UInt64) :
    (Int64.ofInt (conversion.nanoseconds counter)).toInt = conversion.nanoseconds counter := by
  have hbound := conversion.natAbs_nanoseconds_le counter
  rw [maxNanoseconds] at hbound
  apply Int64.toInt_ofInt_of_le <;> omega

end HypervisorTrace.Clock.Conversion
