import HypervisorTrace.Record
import Mathlib.Tactic

/-!
The numbers of guests. The number of a guest is one more than its packed word
as a signed number, and zero is kept for the idle domain. That leaves one guest
outside the idle domain whose number is zero as well: the last one, whose
packed word has all bits set and is minus one as a signed number. But for that
guest, a number stands for one guest or for the idle domain.
-/

namespace HypervisorTrace

namespace Word

theorem toSigned_injective : Function.Injective toSigned := by
  intro first second hsigned
  have hfirst := first.toNat_lt
  have hsecond := second.toNat_lt
  apply UInt32.toNat_inj.mp
  unfold toSigned at hsigned
  split at hsigned <;> split at hsigned <;> omega

end Word

namespace Guest

/-- The guest with the highest domain and the highest virtual processor. -/
def last : Guest := ⟨0xffff, 0xffff⟩

theorem packed_injective : Function.Injective packed :=
  Function.LeftInverse.injective ofPacked_packed

theorem pid_of_isIdle {guest : Guest} (hidle : guest.isIdle) : guest.pid = 0 :=
  if_pos hidle

theorem pid_of_not_isIdle {guest : Guest} (hidle : ¬ guest.isIdle) :
    guest.pid = Word.toSigned guest.packed + 1 :=
  if_neg hidle

theorem pid_eq_zero_iff (guest : Guest) : guest.pid = 0 ↔ guest.isIdle ∨ guest = last := by
  by_cases hidle : guest.isIdle
  · exact iff_of_true (pid_of_isIdle hidle) (Or.inl hidle)
  · rw [pid_of_not_isIdle hidle, or_iff_right hidle, ← packed_injective.eq_iff,
      ← Word.toSigned_injective.eq_iff]
    have hlast : Word.toSigned last.packed = -1 := by decide
    omega

/-- Two guests have the same number if both are in the idle domain or they are
the same, and otherwise only if one is in the idle domain and the other is the
last guest. -/
theorem pid_eq_iff (first second : Guest) :
    first.pid = second.pid ↔
      (first.isIdle ∧ second.isIdle ∨ first = second) ∨
        (first.isIdle ∧ second = last ∨ first = last ∧ second.isIdle) := by
  by_cases hfirst : first.isIdle
  · rw [pid_of_isIdle hfirst, eq_comm, pid_eq_zero_iff]
    constructor
    · exact fun hsecond => hsecond.elim (fun hidle => Or.inl (Or.inl ⟨hfirst, hidle⟩))
        fun hlast => Or.inr (Or.inl ⟨hfirst, hlast⟩)
    · rintro ((⟨-, hidle⟩ | rfl) | ⟨-, hlast⟩ | ⟨-, hidle⟩)
      · exact Or.inl hidle
      · exact Or.inl hfirst
      · exact Or.inr hlast
      · exact Or.inl hidle
  · by_cases hsecond : second.isIdle
    · rw [pid_of_isIdle hsecond, pid_eq_zero_iff]
      simp only [hfirst, hsecond, and_true, false_or, false_and, Bool.false_eq_true]
      constructor
      · exact fun hlast => Or.inr hlast
      · rintro (rfl | hlast)
        · exact absurd hsecond hfirst
        · exact hlast
    · rw [pid_of_not_isIdle hfirst, pid_of_not_isIdle hsecond, Int.add_left_inj,
        Word.toSigned_injective.eq_iff, packed_injective.eq_iff]
      simp only [hfirst, hsecond, Bool.false_eq_true, and_false, false_and, or_false, false_or]

end Guest

end HypervisorTrace
