import HypervisorTrace.Clock
import HypervisorTrace.Proofs.Text.Trimming
import Mathlib

/-!
How frequencies are spelled. A number with a digit at least and a point at most
is followed by blanks, a unit and `hz`, each of which may be absent, and there
may be blanks around the whole. A text is read from its end: `hz`, a unit and
blanks are dropped in this order. No letter ends a number or is blank, so what
is dropped is what the spelling has there, and the texts that give a frequency
are those that spell one.
-/

namespace HypervisorTrace.Clock.Frequency

open Text

section Letters

variable {char lower : Char}

theorem eq_or_eq_toUpper (hlower : char.toLower = lower) : char = lower ∨ char = lower.toUpper := by
  by_cases hupper : char.isUpper
  · have hnot := Char.toUpper_eq_of_not_isLower (Char.not_isLower_of_isUpper hupper)
    right
    rw [← hlower, Char.toUpper_toLower_eq_toUpper, hnot]
  · left
    rw [← hlower, Char.toLower_eq_of_not_isUpper hupper]

/-- A character that is the other case of a letter is a letter. -/
theorem toLower_ne (hchar : char.isAlpha = false) (hlower : lower.isAlpha) :
    char.toLower ≠ lower := by
  rintro rfl
  rw [Char.isAlpha_toLower_eq_isAlpha, hchar] at hlower
  cases hlower

theorem isAlpha_of_isDigit (hchar : char.isDigit) : char.isAlpha = false := by
  simp only [Char.isDigit, Char.isAlpha, Char.isUpper, Char.isLower] at *
  grind

theorem isBlank_of_isDigit (hchar : char.isDigit) : isBlank char = false := by
  by_contra hblank
  simp [isBlank, Char.isDigit, UInt32.le_iff_toNat_le] at *
  omega

theorem isAlpha_of_isBlank (hchar : isBlank char) : char.isAlpha = false := by
  by_contra halpha
  simp [isBlank, Char.isAlpha, Char.isUpper, Char.isLower, UInt32.le_iff_toNat_le] at *
  omega

end Letters

/-- A decimal number as it is written: digits, and perhaps a point with digits
behind it. -/
structure Numeral where
  whole : List Char
  /-- The digits behind the point, if there is a point. -/
  fraction? : Option (List Char)
  isDigit_of_mem : ∀ char ∈ whole ++ fraction?.getD [], char.isDigit
  digits_ne_nil : whole ++ fraction?.getD [] ≠ []

namespace Numeral

variable (number : Numeral)

def fraction : List Char :=
  number.fraction?.getD []

def chars : List Char :=
  number.whole ++ (number.fraction?.map ('.' :: ·)).getD []

/-- The number that its digits form without the point. -/
def significand : Nat :=
  Nat.ofDigitChars 10 (number.whole ++ number.fraction) 0

/-- How many digits there are behind the point. -/
def places : Nat :=
  number.fraction.length

/-- Whether a multiple of the number, rounded down, is some value. The multiple
without the point has to stay below 2^128 and the value below 2^64, and there
may be 38 places. -/
structure Gives (multiplier value : Nat) : Prop where
  significand_lt : number.significand < 2 ^ 128
  places_le : number.places ≤ 38
  multiple_lt : number.significand * multiplier < 2 ^ 128
  value_eq : value = number.significand * multiplier / 10 ^ number.places
  value_lt : value < 2 ^ 64

variable {number}

theorem bne_point_of_mem {char : Char} (hchar : char ∈ number.whole) : (char != '.') = true := by
  have hdigit := number.isDigit_of_mem char (List.mem_append_left _ hchar)
  rw [bne_iff_ne]
  rintro rfl
  exact absurd hdigit (by decide)

theorem takeWhile_chars : number.chars.takeWhile (· != '.') = number.whole := by
  rw [chars, List.takeWhile_append_of_pos (fun _ => bne_point_of_mem)]
  cases number.fraction? <;> simp

theorem drop_dropWhile_chars : (number.chars.dropWhile (· != '.')).drop 1 = number.fraction := by
  rw [chars, fraction, List.dropWhile_append_of_pos (fun _ => bne_point_of_mem)]
  cases number.fraction? <;> simp

/-- Digits with a point among them at most are a number, if there is a digit. -/
theorem exists_of_chars {chars : List Char}
    (hsome : chars.takeWhile (· != '.') ++ (chars.dropWhile (· != '.')).drop 1 ≠ [])
    (hdigits : (chars.takeWhile (· != '.') ++ (chars.dropWhile (· != '.')).drop 1).all
      Char.isDigit) :
    ∃ number : Numeral, number.chars = chars := by
  have hparts := @List.takeWhile_append_dropWhile _ (· != '.') chars
  have hdigit := List.all_eq_true.mp hdigits
  cases hrest : chars.dropWhile (· != '.') with
  | nil =>
      rw [hrest] at hparts hsome hdigit
      exact ⟨⟨_, none, hdigit, hsome⟩, hparts⟩
  | cons point fraction =>
      have hpoint := List.head?_dropWhile_not (· != '.') chars
      rw [hrest] at hparts hsome hdigit hpoint
      obtain rfl : point = '.' := by simpa using hpoint
      exact ⟨⟨_, some fraction, hdigit, hsome⟩, hparts⟩

end Numeral

theorem scale?_eq_some_iff {chars : List Char} {multiplier : Nat} {hertz : UInt64} :
    scale? chars multiplier = some hertz ↔
      ∃ number : Numeral, number.chars = chars ∧ number.Gives multiplier hertz.toNat := by
  constructor
  · intro hscale
    rw [scale?] at hscale
    obtain ⟨⟨hsome, hdigits, hplaces, hsignificand, hmultiple, hvalue⟩, hhertz⟩ :=
      Option.ite_none_right_eq_some.mp hscale
    obtain ⟨number, rfl⟩ := Numeral.exists_of_chars hsome hdigits
    rw [Numeral.takeWhile_chars, Numeral.drop_dropWhile_chars] at *
    refine ⟨number, rfl, hsignificand, hplaces, hmultiple, ?_, hertz.toNat_lt⟩
    rw [← Option.some.inj hhertz, UInt64.toNat_ofNat', Nat.mod_eq_of_lt hvalue]
    rfl
  · rintro ⟨number, rfl, hgives⟩
    have hvalue := hgives.value_lt
    rw [hgives.value_eq] at hvalue
    have hall : (number.whole ++ number.fraction).all Char.isDigit :=
      List.all_eq_true.mpr number.isDigit_of_mem
    rw [scale?, Numeral.takeWhile_chars, Numeral.drop_dropWhile_chars]
    refine (if_pos ⟨number.digits_ne_nil, hall, hgives.places_le, hgives.significand_lt,
      hgives.multiple_lt, hvalue⟩).trans ?_
    rw [Option.some_inj, ← UInt64.toNat_inj, hgives.value_eq, UInt64.toNat_ofNat']
    exact Nat.mod_eq_of_lt hvalue

/-- The units with their multipliers; no unit is one of them. -/
def units : List (List Char × Nat) :=
  [([], 1), (['k'], 1000), (['K'], 1000), (['m'], 1000000), (['M'], 1000000),
    (['g'], 1000000000), (['G'], 1000000000)]

/-- What may stand behind a unit. -/
def endings : List (List Char) :=
  [[], ['h', 'z'], ['h', 'Z'], ['H', 'z'], ['H', 'Z']]

section Units

variable {last : Char} {multiplier : Nat}

theorem mem_units (hunit : unit? last = some multiplier) : ([last], multiplier) ∈ units := by
  rw [unit?] at hunit
  split at hunit
  case h_4 => cases hunit
  all_goals
    rename_i hlower
    cases hunit
    rcases eq_or_eq_toUpper hlower with rfl | rfl <;> decide

theorem unit?_of_not_isAlpha (hlast : last.isAlpha = false) : unit? last = none := by
  rw [unit?]
  split
  case h_4 => rfl
  all_goals exact absurd ‹_› (toLower_ne hlast (by decide))

theorem splitUnit_of_unit (stem : List Char) (hunit : unit? last = some multiplier) :
    splitUnit (stem ++ [last]) = (stem, multiplier) := by
  simp [splitUnit, hunit]

theorem splitUnit_of_none (stem : List Char) (hunit : unit? last = none) :
    splitUnit (stem ++ [last]) = (stem ++ [last], 1) := by
  simp [splitUnit, hunit]

/-- What is split off is a unit. -/
theorem exists_unit (chars : List Char) :
    ∃ unit, (unit, (splitUnit chars).2) ∈ units ∧ chars = (splitUnit chars).1 ++ unit := by
  rcases List.eq_nil_or_concat chars with rfl | ⟨stem, last, rfl⟩
  · exact ⟨[], by decide, rfl⟩
  · rw [List.concat_eq_append]
    cases hunit : unit? last with
    | some multiplier =>
        rw [splitUnit_of_unit stem hunit]
        exact ⟨[last], mem_units hunit, rfl⟩
    | none =>
        rw [splitUnit_of_none stem hunit]
        exact ⟨[], List.mem_cons_self, (List.append_nil _).symm⟩

/-- A unit is split off whole, if no letter stands before it. -/
theorem splitUnit_append {stem unit : List Char} (hunit : (unit, multiplier) ∈ units)
    (hstem : ∀ last ∈ stem.getLast?, last.isAlpha = false) :
    splitUnit (stem ++ unit) = (stem, multiplier) := by
  have hnone : splitUnit stem = (stem, 1) := by
    rcases List.eq_nil_or_concat stem with rfl | ⟨front, last, rfl⟩
    · rfl
    · rw [List.concat_eq_append] at hstem ⊢
      apply splitUnit_of_none
      apply unit?_of_not_isAlpha
      exact hstem last List.getLast?_concat
  simp only [units, List.mem_cons, Prod.mk.injEq, List.not_mem_nil, or_false] at hunit
  rcases hunit with ⟨rfl, rfl⟩ | ⟨rfl, rfl⟩ | ⟨rfl, rfl⟩ | ⟨rfl, rfl⟩ | ⟨rfl, rfl⟩ | ⟨rfl, rfl⟩ |
    ⟨rfl, rfl⟩
  · rwa [List.append_nil]
  all_goals exact splitUnit_of_unit stem (by decide)

end Units

section Hertz

variable {chars : List Char}

theorem dropHertz_pair (stem : List Char) {first last : Char} (hfirst : first.toLower = 'h')
    (hlast : last.toLower = 'z') : dropHertz (stem ++ [first, last]) = stem := by
  simp [dropHertz, hfirst, hlast]

theorem dropHertz_of_last (hlast : ∀ last ∈ chars.getLast?, last.toLower ≠ 'z') :
    dropHertz chars = chars := by
  rw [dropHertz]
  split
  · rename_i last first rest hreverse
    apply if_neg
    rintro ⟨hz, -⟩
    apply hlast last _ hz
    rw [← List.head?_reverse, hreverse]
    rfl
  · rfl

/-- What is dropped from the end is `hz` or nothing. -/
theorem exists_ending (chars : List Char) :
    ∃ ending ∈ endings, chars = dropHertz chars ++ ending := by
  rw [dropHertz]
  split
  · rename_i last first rest hreverse
    split
    · rename_i hboth
      refine ⟨[first, last], ?_, ?_⟩
      · rcases eq_or_eq_toUpper hboth.1 with rfl | rfl <;>
          rcases eq_or_eq_toUpper hboth.2 with rfl | rfl <;> decide
      · rw [← List.reverse_reverse chars, hreverse]
        simp
    · exact ⟨[], List.mem_cons_self, (List.append_nil _).symm⟩
  · exact ⟨[], List.mem_cons_self, (List.append_nil _).symm⟩

theorem dropHertz_append {stem ending : List Char} (hending : ending ∈ endings)
    (hstem : ∀ last ∈ stem.getLast?, last.toLower ≠ 'z') : dropHertz (stem ++ ending) = stem := by
  simp only [endings, List.mem_cons, List.not_mem_nil, or_false] at hending
  rcases hending with rfl | rfl | rfl | rfl | rfl
  · rw [List.append_nil, dropHertz_of_last hstem]
  all_goals exact dropHertz_pair stem (by decide) (by decide)

end Hertz

/-- How a frequency is spelled: a number, blanks, a unit and `hz`. -/
structure Spelling where
  number : Numeral
  blanks : List Char
  unit : List Char
  multiplier : Nat
  ending : List Char
  isBlank_of_mem : ∀ char ∈ blanks, isBlank char
  unit_mem : (unit, multiplier) ∈ units
  ending_mem : ending ∈ endings

namespace Spelling

variable (spelling : Spelling)

def chars : List Char :=
  spelling.number.chars ++ spelling.blanks ++ spelling.unit ++ spelling.ending

/-- Whether a spelling gives a frequency, which is not zero. -/
structure Gives (hertz : Nat) : Prop where
  value : spelling.number.Gives spelling.multiplier hertz
  pos : 1 ≤ hertz

end Spelling

section Parts

variable {number : Numeral} {blanks unit : List Char} {multiplier : Nat}

theorem Numeral.isDigit_or_eq_of_mem {char : Char} (hchar : char ∈ number.chars) :
    char.isDigit ∨ char = '.' := by
  have hdigit := number.isDigit_of_mem char
  rw [Numeral.chars] at hchar
  cases hfraction : number.fraction? with
  | none => simp_all
  | some fraction =>
      simp only [hfraction, Option.map_some, Option.getD_some, List.mem_append,
        List.mem_cons] at hchar hdigit
      tauto

theorem Numeral.isBlank_of_mem {char : Char} (hchar : char ∈ number.chars) :
    isBlank char = false := by
  rcases Numeral.isDigit_or_eq_of_mem hchar with hdigit | rfl
  · exact isBlank_of_isDigit hdigit
  · decide

/-- There is no letter before the unit. -/
theorem isAlpha_of_mem_getLast? (hblanks : ∀ char ∈ blanks, isBlank char) :
    ∀ last ∈ (number.chars ++ blanks).getLast?, last.isAlpha = false := by
  intro last hlast
  rcases List.mem_append.mp (List.mem_of_mem_getLast? hlast) with hnumber | hblank
  · rcases Numeral.isDigit_or_eq_of_mem hnumber with hdigit | rfl
    · exact isAlpha_of_isDigit hdigit
    · decide
  · exact isAlpha_of_isBlank (hblanks last hblank)

/-- There is no letter before `hz` but a unit. -/
theorem toLower_ne_of_mem_getLast? {stem : List Char} (hunit : (unit, multiplier) ∈ units)
    (hstem : ∀ last ∈ stem.getLast?, last.isAlpha = false) :
    ∀ last ∈ (stem ++ unit).getLast?, last.toLower ≠ 'z' := by
  have hletters : ∀ named ∈ units, named.1.all (·.toLower != 'z') := by decide
  intro last hlast
  rw [List.getLast?_append, Option.mem_def, Option.or_eq_some_iff] at hlast
  rcases hlast with hlast | ⟨-, hlast⟩
  · have hletter := List.all_eq_true.mp (hletters _ hunit) last (List.mem_of_mem_getLast? hlast)
    simpa using hletter
  · exact toLower_ne (hstem last hlast) (by decide)

/-- The blanks behind a number are trimmed, and nothing else. -/
theorem strips_number (hblanks : ∀ char ∈ blanks, isBlank char) :
    Strips (number.chars ++ blanks) number.chars where
  around := ⟨[], blanks, rfl, nofun, hblanks⟩
  first _ hchar := Numeral.isBlank_of_mem (List.mem_of_mem_head? hchar)
  last _ hchar := Numeral.isBlank_of_mem (List.mem_of_mem_getLast? hchar)

end Parts

variable {text : String} {hertz : UInt64}

theorem parse?_eq_some_iff_scale? :
    parse? text = some hertz ↔
      scale? (trim (splitUnit (dropHertz (trim text.toList))).1)
        (splitUnit (dropHertz (trim text.toList))).2 = some hertz ∧ hertz ≠ 0 := by
  rw [parse?]
  dsimp only
  cases scale? (trim (splitUnit (dropHertz (trim text.toList))).1)
    (splitUnit (dropHertz (trim text.toList))).2 with
  | none => simp
  | some value => grind

/-- What a spelling is read as. -/
theorem Spelling.scale?_eq (spelling : Spelling) (hstrips : Strips text.toList spelling.chars) :
    scale? (trim (splitUnit (dropHertz (trim text.toList))).1)
        (splitUnit (dropHertz (trim text.toList))).2 =
      scale? spelling.number.chars spelling.multiplier := by
  have hletters := @isAlpha_of_mem_getLast? spelling.number _ spelling.isBlank_of_mem
  have hstem := toLower_ne_of_mem_getLast? spelling.unit_mem hletters
  rw [hstrips.trim_eq, Spelling.chars, dropHertz_append spelling.ending_mem hstem,
    splitUnit_append spelling.unit_mem hletters, (strips_number spelling.isBlank_of_mem).trim_eq]

/-- What is read as a number is spelled around it. -/
theorem Spelling.exists_of_number {number : Numeral}
    (hnumber : number.chars = trim (splitUnit (dropHertz (trim text.toList))).1) :
    ∃ spelling : Spelling, Strips text.toList spelling.chars ∧ spelling.number = number ∧
      spelling.multiplier = (splitUnit (dropHertz (trim text.toList))).2 := by
  have hbody := strips_trim text.toList
  obtain ⟨ending, hending, hstem⟩ := exists_ending (trim text.toList)
  obtain ⟨unit, hunit, hrest⟩ := exists_unit (dropHertz (trim text.toList))
  obtain ⟨front, blanks, hblanks, hfront, hback⟩ :=
    (strips_trim (splitUnit (dropHertz (trim text.toList))).1).around
  rw [← hnumber] at hblanks
  have hspelled : trim text.toList = front ++ number.chars ++ blanks ++ unit ++ ending := by
    rw [hstem, hrest, hblanks]
  -- A blank before the number would be before the whole text, which has been trimmed.
  obtain rfl : front = [] := by
    cases front with
    | nil => rfl
    | cons first others =>
        have hnot := hbody.first first (by rw [hspelled]; rfl)
        rw [hfront first List.mem_cons_self] at hnot
        cases hnot
  refine ⟨⟨number, blanks, unit, _, ending, hback, hunit, hending⟩, ?_, rfl, rfl⟩
  rwa [hspelled] at hbody

/-- A text gives a frequency exactly if it spells it. -/
theorem parse?_eq_some_iff :
    parse? text = some hertz ↔
      ∃ spelling : Spelling, Strips text.toList spelling.chars ∧ spelling.Gives hertz.toNat := by
  have hpos : hertz ≠ 0 ↔ 1 ≤ hertz.toNat := by
    rw [Ne, ← UInt64.toNat_inj]
    exact Nat.one_le_iff_ne_zero.symm
  rw [parse?_eq_some_iff_scale?, hpos]
  constructor
  · rintro ⟨hscale, hsome⟩
    obtain ⟨number, hnumber, hgives⟩ := scale?_eq_some_iff.mp hscale
    obtain ⟨spelling, hstrips, rfl, hmultiplier⟩ := Spelling.exists_of_number hnumber
    rw [← hmultiplier] at hgives
    exact ⟨spelling, hstrips, hgives, hsome⟩
  · rintro ⟨spelling, hstrips, hgives, hsome⟩
    rw [spelling.scale?_eq hstrips]
    exact ⟨scale?_eq_some_iff.mpr ⟨spelling.number, rfl, hgives⟩, hsome⟩

/-- What a spelling gives fits in 64 bits, so that every number it gives is read. -/
theorem map_parse?_eq_some_iff {value : Nat} :
    (parse? text).map UInt64.toNat = some value ↔
      ∃ spelling : Spelling, Strips text.toList spelling.chars ∧ spelling.Gives value := by
  rw [Option.map_eq_some_iff]
  constructor
  · rintro ⟨hertz, hparse, rfl⟩
    exact parse?_eq_some_iff.mp hparse
  · rintro ⟨spelling, hstrips, hvalue⟩
    have hertz : (UInt64.ofNat value).toNat = value := by
      rw [UInt64.toNat_ofNat', Nat.mod_eq_of_lt hvalue.value.value_lt]
    refine ⟨UInt64.ofNat value, parse?_eq_some_iff.mpr ⟨spelling, hstrips, ?_⟩, hertz⟩
    rwa [hertz]

end HypervisorTrace.Clock.Frequency
