import HypervisorTrace.Wire.Framing
import Mathlib.Tactic

/-!
How a stream splits, one item at a time. Splitting is a recursion on the
number of bytes that are left; the three equations here say what it does with
an empty stream, with a stream whose first item can be taken off, and with one
that ends inside its first item. The induction that goes with them has the same
three cases. What is proved about splitting uses these and does not open the
recursion again.
-/

namespace HypervisorTrace.Wire

variable {Head : Type} {framing : Framing Head}

theorem eq_error_of_map {ε α β : Type} {f : α → β} {result : Except ε α} {fault : ε}
    (hmap : result.map f = .error fault) : result = .error fault := by
  cases result with
  | error other =>
      cases hmap
      rfl
  | ok value => cases hmap

@[simp] theorem Framing.splitFrom_nil (framing : Framing Head) (offset : Nat) :
    framing.splitFrom offset [] = .ok [] := by
  rw [Framing.splitFrom]

/-- A stream whose first item can be taken off splits as its rest does. -/
theorem Framing.splitFrom_of_next {bytes rest : List UInt8} {item : Item Head} {offset : Nat}
    (hnext : framing.next bytes = .ok (item, rest)) :
    framing.splitFrom offset bytes =
      (framing.splitFrom (offset + framing.size item) rest).map (⟨offset, item⟩ :: ·) := by
  have htotal := framing.length_of_next hnext
  have hpos := framing.size_pos item
  cases bytes with
  | nil =>
      rw [List.length_nil] at htotal
      omega
  | cons first others =>
      rw [Framing.splitFrom]
      split
      · rename_i hfail
        rw [hnext] at hfail
        cases hfail
      · rename_i taken left htaken
        rw [hnext] at htaken
        cases htaken
        cases framing.splitFrom (offset + framing.size item) rest <;> rfl

/-- A stream whose first item lacks bytes fails at that item. -/
theorem Framing.splitFrom_of_error {bytes : List UInt8} {missing offset : Nat}
    (hne : bytes ≠ []) (hnext : framing.next bytes = .error missing) :
    framing.splitFrom offset bytes = .error ⟨offset, missing⟩ := by
  cases bytes with
  | nil => exact absurd rfl hne
  | cons first others =>
      rw [Framing.splitFrom]
      split
      · rename_i hfail
        rw [hnext] at hfail
        cases hfail
        rfl
      · rename_i taken left htaken
        rw [hnext] at htaken
        cases htaken

/-- Induction along a stream: nothing is left, or the stream ends inside its
first item, or the first item can be taken off and what is said holds of the
rest. -/
theorem Framing.streamInduction (framing : Framing Head) {motive : List UInt8 → Prop}
    (nil : motive [])
    (cut : ∀ bytes missing, bytes ≠ [] → framing.next bytes = .error missing → motive bytes)
    (item : ∀ bytes taken rest, framing.next bytes = .ok (taken, rest) → motive rest →
      motive bytes)
    (bytes : List UInt8) : motive bytes := by
  induction hlength : bytes.length using Nat.strong_induction_on generalizing bytes with
  | h length ih =>
      by_cases hnil : bytes = []
      · rw [hnil]
        exact nil
      · cases hnext : framing.next bytes with
        | error missing => exact cut bytes missing hnil hnext
        | ok taken =>
            obtain ⟨first, rest⟩ := taken
            have htotal := framing.length_of_next hnext
            have hpos := framing.size_pos first
            exact item bytes first rest hnext (ih rest.length (by omega) rest rfl)

end HypervisorTrace.Wire
