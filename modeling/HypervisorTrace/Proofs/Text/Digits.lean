import HypervisorTrace.Text
import Mathlib.Tactic

/-!
The characters that numbers are written with: decimal digits, or hexadecimal
ones in lower case. A time in seconds has a point and perhaps a sign besides.
-/

namespace HypervisorTrace.Text

variable {base width number : Nat} {char : Char}

theorem mem_toDigits_of_mem_numeral (hchar : char ∈ (numeral base width number).toList) :
    char = '0' ∨ char ∈ Nat.toDigits base number := by
  rw [numeral, String.toList_ofList, List.leftpad, List.mem_append, List.mem_replicate] at hchar
  exact hchar.imp_left (·.2)

/-- The digits of a base up to sixteen. -/
def hexDigits : List Char :=
  "0123456789abcdef".toList

theorem digitChar_mem_hexDigits {digit : Nat} (hdigit : digit < 16) :
    Nat.digitChar digit ∈ hexDigits := by
  have hall : ∀ i : Fin 16, Nat.digitChar i ∈ hexDigits := by decide
  exact hall ⟨digit, hdigit⟩

theorem mem_hexDigits_of_mem_toDigits (hchar : char ∈ Nat.toDigits 16 number) :
    char ∈ hexDigits := by
  induction number using Nat.strong_induction_on with
  | h number ih =>
      rw [Nat.toDigits_eq_if (by decide)] at hchar
      split at hchar
      · rename_i hdigit
        rw [List.mem_singleton.mp hchar]
        exact digitChar_mem_hexDigits hdigit
      · rename_i hlarge
        rcases List.mem_append.mp hchar with hrest | hlast
        · exact ih (number / 16) (by omega) hrest
        · rw [List.mem_singleton.mp hlast]
          exact digitChar_mem_hexDigits (Nat.mod_lt _ (by decide))

theorem mem_hexDigits_of_mem_hex (hchar : char ∈ (hex width number).toList) :
    char ∈ hexDigits := by
  rcases mem_toDigits_of_mem_numeral hchar with rfl | hdigit
  · decide
  · exact mem_hexDigits_of_mem_toDigits hdigit

theorem isDigit_of_mem_toDigits (hchar : char ∈ Nat.toDigits 10 number) : char.isDigit :=
  Nat.isDigit_of_mem_toDigits (by decide) (by decide) hchar

theorem isDigit_of_mem_decimal (hchar : char ∈ (decimal width number).toList) :
    char.isDigit := by
  rcases mem_toDigits_of_mem_numeral hchar with rfl | hdigit
  · decide
  · exact isDigit_of_mem_toDigits hdigit

theorem isDigit_of_mem_toString (hchar : char ∈ (toString number).toList) : char.isDigit := by
  rw [Nat.toString_eq_repr, Nat.toList_repr] at hchar
  exact isDigit_of_mem_toDigits hchar

theorem isDigit_or_eq_of_mem_toString {value : Int} (hchar : char ∈ (toString value).toList) :
    char.isDigit ∨ char = '-' := by
  rw [Int.toString_eq_repr, Int.repr_eq_if] at hchar
  split at hchar
  · rw [← Nat.toString_eq_repr] at hchar
    exact Or.inl (isDigit_of_mem_toString hchar)
  · rw [← Nat.toString_eq_repr, String.toList_append, List.mem_append] at hchar
    rcases hchar with hsign | hdigit
    · exact Or.inr (List.mem_singleton.mp hsign)
    · exact Or.inl (isDigit_of_mem_toString hdigit)

/-- A time in seconds has nothing but digits, a point and perhaps a sign. -/
theorem isDigit_or_eq_of_mem_seconds {nanoseconds : Int}
    (hchar : char ∈ (seconds nanoseconds).toList) :
    char.isDigit ∨ char = '.' ∨ char = '-' := by
  rw [seconds, Ratio.fixed] at hchar
  simp only [String.toList_append, List.mem_append] at hchar
  rcases hchar with hsign | (hwhole | hpoint) | hplaces
  · split at hsign
    · exact Or.inr (Or.inr (List.mem_singleton.mp hsign))
    · exact absurd hsign List.not_mem_nil
  · exact Or.inl (isDigit_of_mem_toString hwhole)
  · exact Or.inr (Or.inl (List.mem_singleton.mp hpoint))
  · exact Or.inl (isDigit_of_mem_decimal hplaces)

end HypervisorTrace.Text
