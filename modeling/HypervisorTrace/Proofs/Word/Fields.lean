import HypervisorTrace.Record
import Mathlib.Tactic

/-!
Bit fields of a word as quotients and remainders. A shift to the right divides
by a power of two, a mask of low bits takes the remainder by one.
-/

namespace HypervisorTrace.Word

theorem toNat_shiftRight_eq_div (word amount : Word) (k : Nat) (hamount : amount.toNat % 32 = k) :
    (word >>> amount).toNat = word.toNat / 2 ^ k := by
  rw [UInt32.toNat_shiftRight, hamount, Nat.shiftRight_eq_div_pow]

theorem toNat_and_eq_mod (word mask : Word) (k : Nat) (hmask : mask.toNat = 2 ^ k - 1) :
    (word &&& mask).toNat = word.toNat % 2 ^ k := by
  rw [UInt32.toNat_and, hmask, Nat.and_two_pow_sub_one_eq_mod]

theorem toNat_upper (word : Word) : (upper word).toNat = word.toNat / 0x10000 := by
  have hword := word.toNat_lt
  rw [upper, UInt16.toNat_ofNat']
  omega

theorem toNat_lower (word : Word) : (lower word).toNat = word.toNat % 0x10000 := by
  rw [lower, UInt16.toNat_ofNat']

theorem upper_eq_shiftRight (word : Word) : upper word = (word >>> 16).toUInt16 := by
  apply UInt16.toNat_inj.mp
  rw [upper, UInt16.toNat_ofNat', UInt32.toNat_toUInt16, toNat_shiftRight_eq_div _ _ 16 rfl]
  rfl

theorem lower_eq_toUInt16 (word : Word) : lower word = word.toUInt16 := by
  apply UInt16.toNat_inj.mp
  rw [lower, UInt16.toNat_ofNat', UInt32.toNat_toUInt16]

theorem lower_eq_and (word : Word) : lower word = (word &&& 0xffff).toUInt16 := by
  apply UInt16.toNat_inj.mp
  rw [lower, UInt16.toNat_ofNat', UInt32.toNat_toUInt16, toNat_and_eq_mod _ _ 16 rfl]
  omega

theorem wide_eq_shiftLeft_or (high low : Word) :
    wide high low = high.toUInt64 <<< 32 ||| low.toUInt64 := by
  have hhigh := high.toNat_lt
  have hlow := low.toNat_lt
  apply UInt64.toNat_inj.mp
  have hshift : (high.toUInt64 <<< 32).toNat = high.toNat <<< 32 := by
    rw [UInt64.toNat_shiftLeft, UInt32.toNat_toUInt64]
    change (high.toNat <<< 32) % 2 ^ 64 = high.toNat <<< 32
    rw [Nat.shiftLeft_eq]
    omega
  rw [UInt64.toNat_or, hshift, UInt32.toNat_toUInt64, ← Nat.shiftLeft_add_eq_or_of_lt hlow,
    Nat.shiftLeft_eq, wide, UInt64.toNat_ofNat', Nat.mod_eq_of_lt (by omega)]
  omega

end HypervisorTrace.Word
