import HypervisorTrace.Proofs.Text.Digits
import HypervisorTrace.Record

/-!
The label of a guest determines it. A label is cut at its only slash: what is
before it tells the domain and what is after it the virtual processor, each in
decimal digits, and the word for the idle domain is no number of a domain.
-/

namespace HypervisorTrace

theorem toString_nat_injective : Function.Injective (toString : Nat → String) := by
  intro first second hequal
  have hdigits := congrArg String.toList hequal
  rw [Nat.toString_eq_repr, Nat.toString_eq_repr, Nat.toList_repr, Nat.toList_repr] at hdigits
  rw [← @Nat.ofDigitChars_ten_toDigits first, hdigits, Nat.ofDigitChars_ten_toDigits]

theorem slash_notMem_toString (number : Nat) : '/' ∉ (toString number).toList := by
  intro hslash
  exact absurd (Text.isDigit_of_mem_toString hslash) (by decide)

namespace Guest

/-- A label is made of the letters of the word for the idle domain, a slash, a
letter for the virtual processor, and digits. -/
theorem isDigit_or_mem_of_mem_label {guest : Guest} {char : Char}
    (hchar : char ∈ guest.label.toList) : char.isDigit ∨ char ∈ "idle/v".toList := by
  rw [label] at hchar
  split at hchar <;> simp only [String.toList_append, List.mem_append] at hchar
  · rcases hchar with hword | hvcpu
    · exact Or.inr hword
    · exact Or.inl (Text.isDigit_of_mem_toString hvcpu)
  · rcases hchar with ((hletter | hdomain) | hslash) | hvcpu
    · rw [show char = 'd' from List.mem_singleton.mp hletter]
      decide
    · exact Or.inl (Text.isDigit_of_mem_toString hdomain)
    · have hword : ∀ letter ∈ "/v".toList, letter ∈ "idle/v".toList := by simp
      exact Or.inr (hword char hslash)
    · exact Or.inl (Text.isDigit_of_mem_toString hvcpu)

/-- The part of a label that tells the domain. -/
def domainLabel (guest : Guest) : String :=
  if guest.isIdle then "idle" else "d" ++ toString guest.domain.toNat

theorem toList_label (guest : Guest) :
    guest.label.toList =
      guest.domainLabel.toList ++ '/' :: 'v' :: (toString guest.vcpu.toNat).toList := by
  unfold label domainLabel
  split <;> simp only [String.toList_append, List.append_assoc] <;> rfl

theorem slash_notMem_domainLabel (guest : Guest) : '/' ∉ guest.domainLabel.toList := by
  unfold domainLabel
  split
  · decide
  · rw [String.toList_append, List.mem_append, not_or]
    exact ⟨by decide, slash_notMem_toString _⟩

theorem idle_ne_append (text : String) : "idle" ≠ "d" ++ text := by
  intro hequal
  have hlists := congrArg String.toList hequal
  rw [String.toList_append] at hlists
  exact absurd (List.cons.inj hlists).1 (by decide)

theorem domain_eq_of_domainLabel_eq {first second : Guest}
    (hlabel : first.domainLabel = second.domainLabel) : first.domain = second.domain := by
  unfold domainLabel at hlabel
  by_cases hfirst : first.isIdle
  · by_cases hsecond : second.isIdle
    · exact (eq_of_beq hfirst).trans (eq_of_beq hsecond).symm
    · rw [if_pos hfirst, if_neg hsecond] at hlabel
      exact absurd hlabel (idle_ne_append _)
  · by_cases hsecond : second.isIdle
    · rw [if_neg hfirst, if_pos hsecond] at hlabel
      exact absurd hlabel.symm (idle_ne_append _)
    · rw [if_neg hfirst, if_neg hsecond, String.append_right_inj] at hlabel
      exact UInt16.toNat_inj.mp (toString_nat_injective hlabel)

theorem label_injective : Function.Injective label := by
  intro first second hlabel
  have hslash : '/' ∉ 'v' :: (toString first.vcpu.toNat).toList := by
    rw [List.mem_cons, not_or]
    exact ⟨by decide, slash_notMem_toString _⟩
  have hparts := congrArg String.toList hlabel
  rw [toList_label, toList_label,
    List.append_cons_inj_of_notMem (slash_notMem_domainLabel first) hslash] at hparts
  obtain ⟨hdomain, -, hvcpu⟩ := hparts
  have hdigits := String.toList_inj.mp (List.cons.inj hvcpu).2
  rw [Guest.mk.injEq]
  exact ⟨domain_eq_of_domainLabel_eq (String.toList_inj.mp hdomain),
    UInt16.toNat_inj.mp (toString_nat_injective hdigits)⟩

end Guest

end HypervisorTrace
