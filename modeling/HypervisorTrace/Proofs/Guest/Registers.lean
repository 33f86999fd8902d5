import HypervisorTrace.Proofs.Guest.Numbering

/-!
The number of a guest in registers of 32 bits with a sign. The domain is shifted
into the upper half, where its highest bit becomes the sign, and the virtual
processor is put into the lower half. One more than that fits, but for the
largest number of all; its upper half is the number of the idle domain, whose
guests are not counted on from their packed word.
-/

namespace HypervisorTrace

namespace Word

theorem toInt_toInt32 (word : Word) : word.toInt32.toInt = toSigned word := by
  rw [← Int32.toInt_toBitVec, UInt32.toBitVec_toInt32, BitVec.toInt_eq_toNat_cond, toSigned]
  change (if 2 * word.toNat < 2 ^ 32 then (word.toNat : Int) else word.toNat - (2 ^ 32 : Nat)) = _
  split <;> split <;> omega

end Word

namespace Register

/-- The sum of two registers of 32 bits with a sign, if it fits in one. -/
def addSigned? (first second : Int32) : Option Int32 :=
  if first.toBitVec.saddOverflow second.toBitVec then none else some (first + second)

theorem addSigned?_of_fits {first second : Int32} (hlow : -0x80000000 ≤ first.toInt + second.toInt)
    (hhigh : first.toInt + second.toInt < 0x80000000) :
    ∃ sum, addSigned? first second = some sum ∧ sum.toInt = first.toInt + second.toInt := by
  have hfits : ¬ first.toBitVec.saddOverflow second.toBitVec := by
    simp only [BitVec.saddOverflow, Int32.toInt_toBitVec, Bool.or_eq_true, decide_eq_true_eq]
    omega
  refine ⟨first + second, if_neg hfits, ?_⟩
  rw [Int32.toInt_add]
  apply Int.bmod_eq_of_le <;> omega

end Register

namespace Guest

variable (guest : Guest)

/-- The packed word in a register with a sign. -/
def packedRegister : Int32 :=
  guest.domain.toUInt32.toInt32 <<< 16 ||| guest.vcpu.toUInt32.toInt32

/-- The number of a guest as registers compute it. -/
def pid? : Option Int32 :=
  if guest.isIdle then some 0 else Register.addSigned? guest.packedRegister 1

theorem packed_eq_shiftLeft_or :
    guest.packed = guest.domain.toUInt32 <<< 16 ||| guest.vcpu.toUInt32 := by
  have hdomain := guest.domain.toNat_lt
  have hvcpu := guest.vcpu.toNat_lt
  apply UInt32.toNat_inj.mp
  have hshift : (guest.domain.toUInt32 <<< 16).toNat = guest.domain.toNat <<< 16 := by
    rw [UInt32.toNat_shiftLeft, UInt16.toNat_toUInt32]
    change (guest.domain.toNat <<< 16) % 2 ^ 32 = guest.domain.toNat <<< 16
    rw [Nat.shiftLeft_eq]
    omega
  rw [UInt32.toNat_or, hshift, UInt16.toNat_toUInt32, ← Nat.shiftLeft_add_eq_or_of_lt hvcpu,
    Nat.shiftLeft_eq, packed, UInt32.toNat_ofNat', Nat.mod_eq_of_lt (by omega)]
  omega

theorem toInt_packedRegister : guest.packedRegister.toInt = Word.toSigned guest.packed := by
  rw [← Word.toInt_toInt32, packed_eq_shiftLeft_or, UInt32.toInt32_or]
  rfl

/-- The guests with the largest packed word as a signed number are idle. -/
theorem toSigned_packed_lt {guest : Guest} (hidle : ¬ guest.isIdle) :
    Word.toSigned guest.packed < 0x7fffffff := by
  have hdomain := guest.domain.toNat_lt
  have hvcpu := guest.vcpu.toNat_lt
  have hnot : guest.domain.toNat ≠ 0x7fff := by
    intro hsame
    apply hidle
    exact beq_iff_eq.mpr (UInt16.toNat_inj.mp hsame)
  have hpacked : guest.packed.toNat = 0x10000 * guest.domain.toNat + guest.vcpu.toNat := by
    rw [packed, UInt32.toNat_ofNat', Nat.mod_eq_of_lt (by omega)]
  rw [Word.toSigned, hpacked]
  split <;> omega

/-- Every guest gets its number without an overflow. -/
theorem exists_pid? : ∃ number, guest.pid? = some number ∧ number.toInt = guest.pid := by
  by_cases hidle : guest.isIdle
  · exact ⟨0, if_pos hidle, (pid_of_isIdle hidle).symm⟩
  · have hlow : -0x80000000 ≤ Word.toSigned guest.packed := by
      rw [Word.toSigned]
      split <;> omega
    have hhigh := toSigned_packed_lt hidle
    rw [← toInt_packedRegister] at hlow hhigh
    obtain ⟨number, hsum, hnumber⟩ := @Register.addSigned?_of_fits guest.packedRegister 1
      (by rw [Int32.toInt_one]; omega) (by rw [Int32.toInt_one]; omega)
    refine ⟨number, (if_neg hidle).trans hsum, ?_⟩
    rw [hnumber, pid_of_not_isIdle hidle, toInt_packedRegister, Int32.toInt_one]

end Guest

end HypervisorTrace
