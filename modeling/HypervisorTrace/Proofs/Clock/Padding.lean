import HypervisorTrace.Proofs.Clock.Spelling

/-!
Zeros that say nothing. A zero before a number changes no digit sum, so any
number of them may stand there. A zero behind the digits of a fraction multiplies
the digits without the point by ten and takes one more place, which cancel out in
the value. But both are bounded, and once there is no room for a place or for the
multiple, the text gives no frequency at all, though it spells the same one.
-/

namespace HypervisorTrace.Clock.Frequency

open Text

namespace Numeral

variable {number : Numeral} {multiplier value before after : Nat}

theorem isDigit_of_mem_replicate {count : Nat} {char : Char}
    (hchar : char ∈ List.replicate count '0') : char.isDigit := by
  obtain ⟨-, rfl⟩ := List.mem_replicate.mp hchar
  decide

/-- Only a fraction that is there gets more characters. -/
theorem mem_or_mem_of_mem_map {fraction? : Option (List Char)} {zeros : List Char} {char : Char}
    (hchar : char ∈ (fraction?.map (· ++ zeros)).getD []) :
    char ∈ fraction?.getD [] ∨ char ∈ zeros := by
  cases fraction? with
  | none => exact absurd hchar List.not_mem_nil
  | some fraction => exact List.mem_append.mp hchar

/-- The number with zeros before it and, if it has a point, zeros at its end. -/
def pad (number : Numeral) (before after : Nat) : Numeral where
  whole := List.replicate before '0' ++ number.whole
  fraction? := number.fraction?.map (· ++ List.replicate after '0')
  isDigit_of_mem := by
    intro char hchar
    rcases List.mem_append.mp hchar with hwhole | hfraction
    · rcases List.mem_append.mp hwhole with hzero | hwhole
      · exact isDigit_of_mem_replicate hzero
      · exact number.isDigit_of_mem char (List.mem_append_left _ hwhole)
    · rcases mem_or_mem_of_mem_map hfraction with hfraction | hzero
      · exact number.isDigit_of_mem char (List.mem_append_right _ hfraction)
      · exact isDigit_of_mem_replicate hzero
  digits_ne_nil := by
    intro hnil
    apply number.digits_ne_nil
    cases hfraction : number.fraction? <;> simp_all

theorem fraction_pad (hpoint : number.fraction?.isSome) :
    (number.pad before after).fraction = number.fraction ++ List.replicate after '0' := by
  obtain ⟨fraction, hfraction⟩ := Option.isSome_iff_exists.mp hpoint
  simp [Numeral.fraction, pad, hfraction]

/-- Every zero behind the point takes a place. -/
theorem places_pad (hpoint : number.fraction?.isSome) :
    (number.pad before after).places = number.places + after := by
  simp [places, fraction_pad hpoint]

/-- Zeros before the digits add nothing to the number that they form, and every
zero behind them makes it ten times as large. -/
theorem significand_pad (hpoint : number.fraction?.isSome) :
    (number.pad before after).significand = 10 ^ after * number.significand := by
  have hwhole : (number.pad before after).whole = List.replicate before '0' ++ number.whole := rfl
  rw [significand, hwhole, fraction_pad hpoint]
  simp [significand, Nat.ofDigitChars_append, Nat.ofDigitChars_replicate_zero]

/-- Whether more zeros fit behind the point: there are at most 38 places with
them, and the multiple without the point stays below 2^128. -/
structure HasRoom (number : Numeral) (multiplier after : Nat) : Prop where
  places_le : number.places + after ≤ 38
  multiple_lt : 10 ^ after * (number.significand * multiplier) < 2 ^ 128

/-- A number with zeros around it gives what it gives without them, if there is
room for them, and otherwise nothing. -/
theorem gives_pad_iff (hpoint : number.fraction?.isSome) (hmultiplier : 0 < multiplier) :
    (number.pad before after).Gives multiplier value ↔
      number.Gives multiplier value ∧ number.HasRoom multiplier after := by
  have hsignificand := @significand_pad number before after hpoint
  have hplaces := @places_pad number before after hpoint
  have hpow : 0 < 10 ^ after := Nat.pow_pos (by decide)
  have hless : number.significand ≤ 10 ^ after * number.significand :=
    Nat.le_mul_of_pos_left _ hpow
  have hmultiple : number.significand * multiplier ≤
      10 ^ after * (number.significand * multiplier) := Nat.le_mul_of_pos_left _ hpow
  have hdigits : 10 ^ after * number.significand ≤
      10 ^ after * number.significand * multiplier := Nat.le_mul_of_pos_right _ hmultiplier
  -- The power of ten is on both sides of the quotient.
  have hvalue : 10 ^ after * number.significand * multiplier / 10 ^ (number.places + after) =
      number.significand * multiplier / 10 ^ number.places := by
    rw [Nat.mul_assoc, Nat.add_comm, Nat.pow_add, Nat.mul_div_mul_left _ _ hpow]
  rw [← Nat.mul_assoc] at hmultiple
  constructor
  · rintro ⟨hlt, hfew, hproduct, heq, hfits⟩
    rw [hsignificand] at hlt hproduct heq
    rw [hplaces] at hfew heq
    rw [hvalue] at heq
    refine ⟨⟨by omega, by omega, by omega, heq, hfits⟩, hfew, ?_⟩
    rwa [← Nat.mul_assoc]
  · rintro ⟨⟨-, -, -, heq, hfits⟩, hfew, hproduct⟩
    rw [← Nat.mul_assoc] at hproduct
    constructor
    case significand_lt => omega
    case places_le => rwa [hplaces]
    case multiple_lt => rwa [hsignificand]
    case value_eq => rw [hsignificand, hplaces, hvalue, heq]
    case value_lt => exact hfits

end Numeral

/-- A number is read as what it gives. -/
theorem scale?_chars_eq_some_iff {number : Numeral} {multiplier : Nat} {hertz : UInt64} :
    scale? number.chars multiplier = some hertz ↔ number.Gives multiplier hertz.toNat := by
  rw [scale?_eq_some_iff]
  constructor
  · rintro ⟨other, hchars, hgives⟩
    have hwhole : other.whole = number.whole := by
      rw [← Numeral.takeWhile_chars, hchars, Numeral.takeWhile_chars]
    have hfraction : other.fraction = number.fraction := by
      rw [← Numeral.drop_dropWhile_chars, hchars, Numeral.drop_dropWhile_chars]
    have hsignificand : other.significand = number.significand := by
      rw [Numeral.significand, Numeral.significand, hwhole, hfraction]
    have hplaces : other.places = number.places := by
      rw [Numeral.places, Numeral.places, hfraction]
    obtain ⟨hlt, hfew, hmultiple, hvalue, hfits⟩ := hgives
    rw [hsignificand] at hlt hmultiple hvalue
    rw [hplaces] at hfew hvalue
    exact ⟨hlt, hfew, hmultiple, hvalue, hfits⟩
  · intro hgives
    exact ⟨number, rfl, hgives⟩

namespace Spelling

variable {spelling : Spelling} {text : String} {hertz : UInt64} {front back : List Char}
  {before after : Nat}

theorem multiplier_pos (spelling : Spelling) : 0 < spelling.multiplier := by
  have hall : ∀ named ∈ units, 0 < named.2 := by decide
  exact hall _ spelling.unit_mem

/-- A text gives what any spelling of it gives. -/
theorem parse?_eq_some_iff (hstrips : Strips text.toList spelling.chars) :
    parse? text = some hertz ↔ spelling.Gives hertz.toNat := by
  have hpos : hertz ≠ 0 ↔ 1 ≤ hertz.toNat := by
    rw [Ne, ← UInt64.toNat_inj]
    exact Nat.one_le_iff_ne_zero.symm
  rw [parse?_eq_some_iff_scale?, spelling.scale?_eq hstrips, scale?_chars_eq_some_iff, hpos]
  exact ⟨fun ⟨hgives, hsome⟩ => ⟨hgives, hsome⟩, fun ⟨hgives, hsome⟩ => ⟨hgives, hsome⟩⟩

/-- The spelling with zeros around its number. -/
def pad (spelling : Spelling) (before after : Nat) : Spelling :=
  { spelling with number := spelling.number.pad before after }

theorem gives_pad_iff (hpoint : spelling.number.fraction?.isSome) {value : Nat} :
    (spelling.pad before after).Gives value ↔
      spelling.Gives value ∧ spelling.number.HasRoom spelling.multiplier after := by
  have hnumber := @Numeral.gives_pad_iff spelling.number spelling.multiplier value before after
    hpoint spelling.multiplier_pos
  constructor
  · rintro ⟨hgives, hpos⟩
    obtain ⟨hgiven, hroom⟩ := hnumber.mp hgives
    exact ⟨⟨hgiven, hpos⟩, hroom⟩
  · rintro ⟨⟨hgives, hpos⟩, hroom⟩
    exact ⟨hnumber.mpr ⟨hgives, hroom⟩, hpos⟩

/-- The text of a spelling with other characters before and behind it. -/
def between (spelling : Spelling) (front back : List Char) : String :=
  String.ofList (front ++ spelling.chars ++ back)

/-- Whether a text is a spelling between blanks, of which the spelling has none at
its end. -/
structure Fills (spelling : Spelling) (text : String) (front back : List Char) : Prop where
  text_eq : text = spelling.between front back
  isBlank_front : ∀ char ∈ front, isBlank char
  isBlank_back : ∀ char ∈ back, isBlank char
  last : ∀ char ∈ spelling.chars.getLast?, isBlank char = false

theorem isBlank_of_mem_head? {char : Char} (hchar : char ∈ spelling.chars.head?) :
    isBlank char = false := by
  have hsome : spelling.number.chars ≠ [] := by
    have hdigits := spelling.number.digits_ne_nil
    rw [Numeral.chars]
    cases hfraction : spelling.number.fraction? <;> simp_all
  rw [chars, List.append_assoc, List.append_assoc, List.head?_append_of_ne_nil _ hsome] at hchar
  exact Numeral.isBlank_of_mem (List.mem_of_mem_head? hchar)

/-- What ends a spelling stands behind its number, if anything does. -/
theorem getLast?_chars (spelling : Spelling) :
    spelling.chars.getLast? =
      (spelling.blanks ++ (spelling.unit ++ spelling.ending)).getLast?.or
        spelling.number.chars.getLast? := by
  rw [chars, List.append_assoc, List.append_assoc, List.getLast?_append]

theorem Fills.strips (hfills : spelling.Fills text front back) :
    Strips text.toList spelling.chars where
  around := by
    refine ⟨front, back, ?_, hfills.isBlank_front, hfills.isBlank_back⟩
    rw [hfills.text_eq, between, String.toList_ofList]
  first _ hchar := isBlank_of_mem_head? hchar
  last := hfills.last

/-- With zeros around its number a spelling still stands between the same blanks. -/
theorem Fills.pad (hfills : spelling.Fills text front back) (before after : Nat) :
    (spelling.pad before after).Fills ((spelling.pad before after).between front back)
      front back where
  text_eq := rfl
  isBlank_front := hfills.isBlank_front
  isBlank_back := hfills.isBlank_back
  last := by
    intro char hchar
    rw [getLast?_chars, Option.mem_def, Option.or_eq_some_iff] at hchar
    rcases hchar with hrest | ⟨-, hnumber⟩
    · apply hfills.last
      rw [getLast?_chars, Option.mem_def, Option.or_eq_some_iff]
      exact Or.inl hrest
    · exact Numeral.isBlank_of_mem (List.mem_of_mem_getLast? hnumber)

/-- Every text that gives a frequency is a spelling between blanks. -/
theorem exists_fills (hparse : parse? text = some hertz) :
    ∃ spelling : Spelling, ∃ front back, spelling.Fills text front back := by
  obtain ⟨spelling, hstrips, -⟩ := Frequency.parse?_eq_some_iff.mp hparse
  obtain ⟨front, back, hchars, hfront, hback⟩ := hstrips.around
  refine ⟨spelling, front, back, ?_, hfront, hback, hstrips.last⟩
  rw [between, ← hchars, String.ofList_toList]

/-- A text with more zeros around its number gives what it gives without them, if
there is room for them, and otherwise nothing. -/
theorem Fills.parse?_pad_eq_some_iff (hfills : spelling.Fills text front back)
    (hpoint : spelling.number.fraction?.isSome) :
    parse? ((spelling.pad before after).between front back) = some hertz ↔
      parse? text = some hertz ∧ spelling.number.HasRoom spelling.multiplier after := by
  rw [parse?_eq_some_iff (hfills.pad before after).strips, gives_pad_iff hpoint,
    ← parse?_eq_some_iff hfills.strips]

end Spelling

variable {text : String} {hertz : UInt64}

/-- Every text that gives a frequency spells it between blanks. If its number has
a point, more zeros before the number never change the frequency, and more zeros
behind its last digit do not change it as long as there is room for them. Without
room the text gives no frequency, so no zero ever leads to another one. -/
theorem parse?_pad (hparse : parse? text = some hertz) :
    (∃ spelling : Spelling, ∃ front back, spelling.Fills text front back) ∧
    ∀ (spelling : Spelling) (front back : List Char), spelling.Fills text front back →
      spelling.number.fraction?.isSome → ∀ before after,
        parse? ((spelling.pad before 0).between front back) = some hertz ∧
        (spelling.number.HasRoom spelling.multiplier after →
          parse? ((spelling.pad before after).between front back) = some hertz) ∧
        (¬ spelling.number.HasRoom spelling.multiplier after →
          parse? ((spelling.pad before after).between front back) = none) := by
  refine ⟨Spelling.exists_fills hparse, ?_⟩
  intro spelling front back hfills hpoint before after
  have hgives := (Spelling.parse?_eq_some_iff hfills.strips).mp hparse
  have hroom : spelling.number.HasRoom spelling.multiplier 0 := by
    refine ⟨hgives.value.places_le, ?_⟩
    simpa using hgives.value.multiple_lt
  refine ⟨?_, ?_, ?_⟩
  · exact (hfills.parse?_pad_eq_some_iff hpoint).mpr ⟨hparse, hroom⟩
  · intro hmore
    exact (hfills.parse?_pad_eq_some_iff hpoint).mpr ⟨hparse, hmore⟩
  · intro hfull
    apply Option.eq_none_iff_forall_ne_some.mpr
    intro other hother
    exact hfull ((hfills.parse?_pad_eq_some_iff hpoint).mp hother).2

/-- A spelling of 2.4 GHz with a blank before the unit. -/
def spacedSpelling : Spelling where
  number := ⟨['2'], some ['4'], by simp, by simp⟩
  blanks := [' ']
  unit := ['G']
  multiplier := 1000000000
  ending := ['H', 'z']
  isBlank_of_mem := by simp [isBlank]
  unit_mem := by decide
  ending_mem := by decide

theorem spacedSpelling_fills : spacedSpelling.Fills " 2.4 GHz" [' '] [] where
  text_eq := rfl
  isBlank_front := by simp [isBlank]
  isBlank_back := nofun
  last := by simp [spacedSpelling, Spelling.chars, isBlank]

/-- Two zeros before the number and 28 behind it, which is as many as there is
room for, and a zero more. -/
theorem parse?_pad_spaced :
    parse? " 2.4 GHz" = some 2400000000 ∧
      parse? " 002.40000000000000000000000000000 GHz" = some 2400000000 ∧
      parse? " 2.400000000000000000000000000000 GHz" = none := by
  have hparse : parse? " 2.4 GHz" = some 2400000000 := by decide
  obtain ⟨-, hpad⟩ := parse?_pad hparse
  obtain ⟨-, hroom, -⟩ := hpad spacedSpelling [' '] [] spacedSpelling_fills rfl 2 28
  obtain ⟨-, -, hfull⟩ := hpad spacedSpelling [' '] [] spacedSpelling_fills rfl 0 29
  refine ⟨hparse, hroom ⟨by decide, by decide⟩, hfull ?_⟩
  rintro ⟨-, hlarge⟩
  exact absurd hlarge (by decide)

/-- The same number of hertz, written with 29 zeros behind it, is refused. -/
theorem trailing_zeros_refused :
    ¬ ∀ (text : String) (hertz : UInt64), parse? text = some hertz →
      ∀ (spelling : Spelling) (front back : List Char), spelling.Fills text front back →
        spelling.number.fraction?.isSome → ∀ before after,
          parse? ((spelling.pad before after).between front back) = some hertz := by
  intro hredundant
  have hsame := hredundant " 2.4 GHz" 2400000000 (by decide) spacedSpelling [' '] []
    spacedSpelling_fills rfl 0 29
  exact absurd hsame (by decide)

end HypervisorTrace.Clock.Frequency
