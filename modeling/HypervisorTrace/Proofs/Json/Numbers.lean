import HypervisorTrace.Json.Scalar
import HypervisorTrace.Proofs.Text.Digits
import Mathlib.Data.List.TakeWhile
import Mathlib.Tactic

/-!
Whole numbers that are written and read again. They are written with a sign if
they are negative, and with digits of which the first is zero only if it is the
only one. That is a number in the grammar of tokens, and the value of its digits
is the number that was written.
-/

namespace HypervisorTrace

/-- A positive number does not start with a zero. -/
theorem Text.head?_toDigits_ne {number : Nat} (hpositive : 0 < number) :
    (Nat.toDigits 10 number).head? ≠ some '0' := by
  induction number using Nat.strong_induction_on with
  | h number ih =>
      rw [Nat.toDigits_eq_if (by decide)]
      split
      · rename_i hdigit
        have hall : ∀ i : Fin 10, 0 < i.val → some (Nat.digitChar i) ≠ some '0' := by decide
        exact hall ⟨number, hdigit⟩ hpositive
      · rename_i hlarge
        rw [List.head?_append_of_ne_nil _ Nat.toDigits_ne_nil]
        exact ih (number / 10) (by omega) (by omega)

namespace Json

/-- The byte of an ASCII character. -/
def asciiByte (char : Char) : UInt8 :=
  UInt8.ofNat char.toNat

theorem digit_bounds {char : Char} (hdigit : char.isDigit) :
    48 ≤ char.toNat ∧ char.toNat ≤ 57 := by
  rw [Char.isDigit, Bool.and_eq_true, decide_eq_true_eq, decide_eq_true_eq] at hdigit
  exact hdigit

theorem utf8_of_isDigit {char : Char} (hdigit : char.isDigit) :
    String.utf8EncodeChar char = [asciiByte char] := by
  have hbounds := digit_bounds hdigit
  have hascii : char.val.toNat ≤ 127 := Nat.le_trans hbounds.2 (by decide)
  rw [String.utf8EncodeChar.eq_1, if_pos hascii]
  rfl

theorem isDigit_asciiByte {char : Char} (hdigit : char.isDigit) : isDigit (asciiByte char) := by
  have hbounds := digit_bounds hdigit
  simp only [isDigit, asciiByte, Bool.and_eq_true, decide_eq_true_eq, UInt8.le_iff_toNat_le,
    UInt8.toNat_ofNat', UInt8.toNat_ofNat]
  omega

theorem ofUInt8_asciiByte {char : Char} (hdigit : char.isDigit) :
    Char.ofUInt8 (asciiByte char) = char := by
  have hbounds := digit_bounds hdigit
  apply Char.toNat_inj.mp
  change (asciiByte char).toNat = char.toNat
  rw [asciiByte, UInt8.toNat_ofNat']
  omega

/-- The bytes of the digits of a number. -/
def digits (number : Nat) : List UInt8 :=
  (Nat.toDigits 10 number).map asciiByte

section Digits

variable (number : Nat)

theorem utf8_toString : Text.utf8 (toString number) = digits number := by
  rw [Nat.toString_eq_repr, Text.utf8, Nat.toList_repr, digits, List.map_eq_flatMap]
  apply List.flatMap_congr
  intro char hchar
  exact utf8_of_isDigit (Text.isDigit_of_mem_toDigits hchar)

theorem ofDigits_digits : ofDigits (digits number) = number := by
  have hchars : (digits number).map Char.ofUInt8 = Nat.toDigits 10 number := by
    rw [digits, List.map_map]
    conv_rhs => rw [← List.map_id (Nat.toDigits 10 number)]
    apply List.map_congr_left
    intro char hchar
    exact ofUInt8_asciiByte (Text.isDigit_of_mem_toDigits hchar)
  rw [ofDigits, hchars, Nat.ofDigitChars_toDigits (by decide) (by decide)]

theorem all_isDigit_digits : (digits number).all isDigit := by
  rw [digits, List.all_map, List.all_eq_true]
  intro char hchar
  exact isDigit_asciiByte (Text.isDigit_of_mem_toDigits hchar)

theorem digits_ne_nil : digits number ≠ [] := by
  rw [digits, Ne, List.map_eq_nil_iff]
  exact Nat.toDigits_ne_nil

theorem head?_digits_ne (hpositive : 0 < number) : (digits number).head? ≠ some 0x30 := by
  rw [digits, List.head?_map]
  intro hzero
  obtain ⟨char, hchar, hbyte⟩ := Option.map_eq_some_iff.mp hzero
  have hdigit := Text.isDigit_of_mem_toDigits (List.mem_of_mem_head? hchar)
  have hsame : char = '0' := by
    rw [← ofUInt8_asciiByte hdigit, hbyte]
    rfl
  rw [hsame] at hchar
  exact Text.head?_toDigits_ne hpositive hchar

theorem isWhole_digits : isWhole (digits number) := by
  have hsome : decide (digits number ≠ []) = true := decide_eq_true (digits_ne_nil number)
  rw [isWhole, hsome, all_isDigit_digits, Bool.true_and, Bool.true_and, Bool.or_eq_true]
  rcases Nat.eq_zero_or_pos number with rfl | hpositive
  · exact Or.inr rfl
  · exact Or.inl (decide_eq_true (head?_digits_ne number hpositive))

end Digits

/-- How a whole number is written. -/
def lexeme (value : Int) : List UInt8 :=
  if 0 ≤ value then digits value.toNat else 0x2d :: digits (-value).toNat

section Lexeme

variable (value : Int)

theorem utf8_toString_int : Text.utf8 (toString value) = lexeme value := by
  have hsign : Text.utf8 "-" = [0x2d] := rfl
  rw [Int.toString_eq_repr, Int.repr_eq_if, lexeme]
  split
  · rw [← Nat.toString_eq_repr, utf8_toString]
  · rw [Text.utf8_append, ← Nat.toString_eq_repr, utf8_toString, hsign]
    rfl

theorem takeWhile_digits (number : Nat) : (digits number).takeWhile isDigit = digits number :=
  List.takeWhile_eq_self_iff.mpr (List.all_eq_true.mp (all_isDigit_digits number))

theorem dropWhile_digits (number : Nat) : (digits number).dropWhile isDigit = [] :=
  List.dropWhile_eq_nil_iff.mpr (List.all_eq_true.mp (all_isDigit_digits number))

/-- No digit is a sign. -/
theorem head?_digits_ne_sign (number : Nat) : (digits number).head? ≠ some 0x2d := by
  intro hsign
  have hdigit := List.all_eq_true.mp (all_isDigit_digits number) _ (List.mem_of_mem_head? hsign)
  exact absurd hdigit (by decide)

theorem lexeme_ne_nil : lexeme value ≠ [] := by
  rw [lexeme]
  split
  · exact digits_ne_nil _
  · exact List.cons_ne_nil _ _

theorem isNumber_lexeme : isNumber (lexeme value) := by
  have hmagnitude : ∃ number,
      (if (lexeme value).head? = some 0x2d then (lexeme value).drop 1 else lexeme value) =
        digits number := by
    rw [lexeme]
    split
    · exact ⟨_, if_neg (head?_digits_ne_sign _)⟩
    · exact ⟨_, if_pos rfl⟩
  obtain ⟨number, hnumber⟩ := hmagnitude
  rw [isNumber, hnumber, takeWhile_digits, dropWhile_digits, isWhole_digits]
  rfl

theorem whole?_lexeme : whole? (lexeme value) = some value := by
  rw [lexeme]
  split
  · rename_i hnonneg
    have hsign : ∀ others, digits value.toNat = 0x2d :: others → False := by
      intro others hdigits
      apply head?_digits_ne_sign value.toNat
      rw [hdigits, List.head?_cons]
    rw [whole?.eq_2 _ hsign, if_pos (all_isDigit_digits _), ofDigits_digits,
      Int.toNat_of_nonneg hnonneg]
  · rename_i hneg
    rw [whole?, ofDigits_digits, if_pos ⟨all_isDigit_digits _, by omega⟩]
    congr 1
    omega

theorem isNumberByte_of_mem_lexeme {byte : UInt8} (hbyte : byte ∈ lexeme value) :
    isNumberByte byte := by
  have hdigit (number : Nat) (hmem : byte ∈ digits number) : isNumberByte byte := by
    rw [isNumberByte, List.all_eq_true.mp (all_isDigit_digits number) byte hmem, Bool.true_or]
  rw [lexeme] at hbyte
  split at hbyte
  · exact hdigit _ hbyte
  · rcases List.mem_cons.mp hbyte with rfl | hmem
    · decide
    · exact hdigit _ hmem

end Lexeme

end Json

end HypervisorTrace
