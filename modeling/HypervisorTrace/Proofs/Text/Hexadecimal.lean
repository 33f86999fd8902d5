import HypervisorTrace.Proofs.Text.Digits

/-!
Hexadecimal text of a fixed width. A number that fits into a width is written
with exactly that many digits, so texts of fixed width can be cut and joined
at any digit, and determine their numbers.
-/

namespace HypervisorTrace.Text

/-- The last digits of a number, as many as a width tells. -/
def lastDigits : Nat → Nat → List Char
  | 0, _ => []
  | width + 1, number => lastDigits width (number / 16) ++ [Nat.digitChar (number % 16)]

theorem length_lastDigits (width number : Nat) : (lastDigits width number).length = width := by
  induction width generalizing number with
  | zero => rfl
  | succ width ih => rw [lastDigits, List.length_append, ih, List.length_singleton]

theorem lastDigits_zero (width : Nat) : lastDigits width 0 = List.replicate width '0' := by
  induction width with
  | zero => rfl
  | succ width ih =>
      rw [lastDigits, Nat.zero_div, ih, List.replicate_succ']
      rfl

theorem div_lt_of_lt_pow_succ {width number : Nat} (hfits : number < 16 ^ (width + 1)) :
    number / 16 < 16 ^ width := by
  rw [Nat.div_lt_iff_lt_mul (by decide), ← Nat.pow_succ]
  exact hfits

theorem leftpad_append_singleton (width : Nat) (digits : List Char) (digit : Char) :
    (digits ++ [digit]).leftpad (width + 1) '0' = digits.leftpad width '0' ++ [digit] := by
  rw [List.leftpad, List.leftpad, List.length_append, List.length_singleton,
    Nat.add_sub_add_right, List.append_assoc]

/-- A number that fits into a width is written with its last digits. -/
theorem toList_hex {width number : Nat} (hwidth : 0 < width) (hfits : number < 16 ^ width) :
    (hex width number).toList = lastDigits width number := by
  rw [hex, numeral, String.toList_ofList]
  induction width, hwidth using Nat.le_induction generalizing number with
  | base =>
      have hdigit : number < 16 := by simpa using hfits
      rw [Nat.toDigits_of_lt_base hdigit, lastDigits, Nat.mod_eq_of_lt hdigit]
      rfl
  | succ width hwidth ih =>
      have hrest := div_lt_of_lt_pow_succ hfits
      rw [lastDigits, ← ih hrest]
      by_cases hdigit : number < 16
      · have hzero : number / 16 = 0 := Nat.div_eq_of_lt hdigit
        have hpad := leftpad_append_singleton width [] number.digitChar
        rw [List.nil_append] at hpad
        rw [Nat.toDigits_of_lt_base hdigit, Nat.mod_eq_of_lt hdigit, hpad, ih hrest, hzero,
          lastDigits_zero, List.leftpad, List.append_nil]
        rfl
      · rw [Nat.toDigits_of_base_le (by decide) (by omega), leftpad_append_singleton]

theorem lastDigits_add (left right high low : Nat) (hlow : low < 16 ^ right) :
    lastDigits (left + right) (16 ^ right * high + low) =
      lastDigits left high ++ lastDigits right low := by
  induction right generalizing low with
  | zero =>
      have hzero : low = 0 := by simpa using hlow
      rw [hzero, lastDigits, Nat.pow_zero, Nat.one_mul, Nat.add_zero, Nat.add_zero,
        List.append_nil]
  | succ right ih =>
      have hrest := div_lt_of_lt_pow_succ hlow
      have hshift : 16 ^ (right + 1) * high + low = 16 * (16 ^ right * high) + low := by ring
      have hquotient : (16 ^ (right + 1) * high + low) / 16 = 16 ^ right * high + low / 16 := by
        omega
      have hremainder : (16 ^ (right + 1) * high + low) % 16 = low % 16 := by
        omega
      rw [← Nat.add_assoc, lastDigits, lastDigits, hquotient, hremainder, ih (low / 16) hrest,
        List.append_assoc]

theorem digitChar_inj {first second : Nat} (hfirst : first < 16) (hsecond : second < 16)
    (hchar : Nat.digitChar first = Nat.digitChar second) : first = second := by
  have hall : ∀ i j : Fin 16, Nat.digitChar i = Nat.digitChar j → i = j := by decide
  have heq := hall ⟨first, hfirst⟩ ⟨second, hsecond⟩ hchar
  exact congrArg Fin.val heq

theorem lastDigits_inj {width first second : Nat} (hfirst : first < 16 ^ width)
    (hsecond : second < 16 ^ width)
    (hdigits : lastDigits width first = lastDigits width second) : first = second := by
  induction width generalizing first second with
  | zero =>
      rw [Nat.pow_zero] at hfirst hsecond
      omega
  | succ width ih =>
      rw [lastDigits, lastDigits] at hdigits
      obtain ⟨hrest, hlast⟩ := List.append_inj' hdigits rfl
      have hhere := digitChar_inj (Nat.mod_lt first (by decide)) (Nat.mod_lt second (by decide))
        (List.singleton_inj.mp hlast)
      have hthere := ih (div_lt_of_lt_pow_succ hfirst) (div_lt_of_lt_pow_succ hsecond) hrest
      omega

theorem length_hex {width number : Nat} (hwidth : 0 < width) (hfits : number < 16 ^ width) :
    (hex width number).toList.length = width := by
  rw [toList_hex hwidth hfits, length_lastDigits]

theorem le_length_hex (width number : Nat) : width ≤ (hex width number).toList.length := by
  rw [hex, numeral, String.toList_ofList, List.leftpad, List.length_append, List.length_replicate]
  omega

/-- A number that does not fit into a width is written longer. -/
theorem lt_length_hex {width number : Nat} (hwidth : 0 < width) (hwide : 16 ^ width ≤ number) :
    width < (hex width number).toList.length := by
  have hlong : ¬ (Nat.toDigits 16 number).length ≤ width := by
    rw [Nat.length_toDigits_le_iff (by decide) hwidth]
    omega
  rw [hex, numeral, String.toList_ofList, List.leftpad, List.length_append]
  omega

theorem hex_inj {width first second : Nat} (hwidth : 0 < width) (hfirst : first < 16 ^ width)
    (hsecond : second < 16 ^ width) (hhex : hex width first = hex width second) :
    first = second := by
  have hdigits := congrArg String.toList hhex
  rw [toList_hex hwidth hfirst, toList_hex hwidth hsecond] at hdigits
  exact lastDigits_inj hfirst hsecond hdigits

/-- Digits can be cut anywhere: the left part is the quotient, the right part
the remainder. -/
theorem hex_add {left right number : Nat} (hleft : 0 < left) (hright : 0 < right)
    (hfits : number < 16 ^ (left + right)) :
    hex (left + right) number =
      hex left (number / 16 ^ right) ++ hex right (number % 16 ^ right) := by
  have hhigh : number / 16 ^ right < 16 ^ left := by
    rw [Nat.div_lt_iff_lt_mul (by positivity), ← Nat.pow_add]
    exact hfits
  have hlow : number % 16 ^ right < 16 ^ right := Nat.mod_lt _ (by positivity)
  apply String.toList_inj.mp
  rw [String.toList_append, toList_hex (by omega) hfits, toList_hex hleft hhigh,
    toList_hex hright hlow, ← lastDigits_add left right _ _ hlow, Nat.div_add_mod]

/-- Two numbers of one width, written side by side, are read off the text,
whether the numbers on the other side fit into the width or not. -/
theorem hex_append_hex_inj {width first second first' second' : Nat} (hwidth : 0 < width)
    (hfirst : first < 16 ^ width) (hsecond : second < 16 ^ width)
    (hhex : hex width first' ++ hex width second' = hex width first ++ hex width second) :
    first' = first ∧ second' = second := by
  have hlength := congrArg (fun text => text.toList.length) hhex
  simp only [String.toList_append, List.length_append, length_hex hwidth hfirst,
    length_hex hwidth hsecond] at hlength
  -- No number is written with fewer digits than the width, so here none is
  -- written with more.
  have hleft := le_length_hex width first'
  have hright := le_length_hex width second'
  have hfirst' : first' < 16 ^ width := by
    by_contra hwide
    have hlong := lt_length_hex hwidth (Nat.le_of_not_lt hwide)
    omega
  have hsecond' : second' < 16 ^ width := by
    by_contra hwide
    have hlong := lt_length_hex hwidth (Nat.le_of_not_lt hwide)
    omega
  have hdigits := congrArg String.toList hhex
  rw [String.toList_append, String.toList_append] at hdigits
  obtain ⟨hhead, htail⟩ := List.append_inj hdigits (by
    rw [length_hex hwidth hfirst', length_hex hwidth hfirst])
  exact ⟨hex_inj hwidth hfirst' hfirst (String.toList_inj.mp hhead),
    hex_inj hwidth hsecond' hsecond (String.toList_inj.mp htail)⟩

theorem comma_not_mem_hex (width number : Nat) : ',' ∉ (hex width number).toList := by
  intro hcomma
  exact absurd (mem_hexDigits_of_mem_hex hcomma) (by decide)

end HypervisorTrace.Text
