import HypervisorTrace.Proofs.Clock.Registers
import HypervisorTrace.Proofs.Clock.Spelling

/-!
Reading a frequency at byte offsets. A text is held as bytes, and its end is cut
off at an offset that is counted back from there. It is a fault if the offset is
below zero or inside a character, and so is a division by zero. A number that
does not fit in its register is refused, as the text would be for any other
reason. No text leads to a fault: what is cut off is letters of one byte each,
and the divisor is a power of ten. So a text is read as the frequency that it
spells.
-/

namespace HypervisorTrace

namespace Text

/-- The bytes that some characters take. -/
def size (chars : List Char) : Nat :=
  (chars.map Char.utf8Size).sum

@[simp] theorem size_nil : size [] = 0 :=
  rfl

@[simp] theorem size_cons (char : Char) (rest : List Char) :
    size (char :: rest) = char.utf8Size + size rest := by
  simp [size]

@[simp] theorem size_append (front back : List Char) :
    size (front ++ back) = size front + size back := by
  simp [size]

/-- The characters before a byte offset and those behind it, unless it lies
inside a character or past the end. -/
def cut? (offset : Nat) (chars : List Char) : Option (List Char × List Char) :=
  match chars with
  | [] => if offset = 0 then some ([], []) else none
  | char :: rest =>
    if offset = 0 then
      some ([], chars)
    else if char.utf8Size ≤ offset then
      (cut? (offset - char.utf8Size) rest).map fun (front, back) => (char :: front, back)
    else
      none

theorem cut?_zero (chars : List Char) : cut? 0 chars = some ([], chars) := by
  cases chars <;> simp [cut?]

theorem cut?_size (front back : List Char) :
    cut? (size front) (front ++ back) = some (front, back) := by
  induction front with
  | nil => exact cut?_zero back
  | cons char rest ih =>
      have hsome : char.utf8Size + size rest ≠ 0 := by
        have hpos := char.utf8Size_pos
        omega
      rw [size_cons, List.cons_append, cut?, if_neg hsome, if_pos (Nat.le_add_right _ _),
        Nat.add_sub_cancel_left, ih]
      rfl

theorem eq_append_of_cut? {offset : Nat} {chars front back : List Char}
    (hcut : cut? offset chars = some (front, back)) : chars = front ++ back := by
  induction chars generalizing offset front with
  | nil => simp_all [cut?]
  | cons char rest ih =>
      rw [cut?] at hcut
      split at hcut
      · simp_all
      · split at hcut
        · obtain ⟨⟨before, after⟩, hrest, hboth⟩ := Option.map_eq_some_iff.mp hcut
          obtain ⟨rfl, rfl⟩ := Prod.mk.inj hboth
          rw [ih hrest, List.cons_append]
        · cases hcut

end Text

namespace Clock.Frequency

open Text

/-- How reading a frequency stops. -/
inductive Stop where
  /-- The text gives no frequency. -/
  | refused
  /-- The text is cut where it cannot be, or a number is divided by zero. -/
  | fault
  deriving DecidableEq

/-- A number in a register of some bits; any other is refused. -/
def fit (bits number : Nat) : Except Stop Nat :=
  (Register.hold? bits number).getDM (.error .refused)

/-- The last bytes of a text cut off, as many as given. -/
def cutEnd? (count : Nat) (chars : List Char) : Option (List Char × List Char) :=
  (Register.subtract? (size chars) count).bind (cut? · chars)

/-- Cuts `hz` off; here an offset inside a character means that the text ends
in something else. -/
def dropHertzAt (chars : List Char) : List Char :=
  match cutEnd? 2 chars with
  | some (stem, ending) => if ending.map Char.toLower = ['h', 'z'] then stem else chars
  | none => chars

/-- Cuts a unit off. -/
def splitUnitAt (chars : List Char) : Except Stop (List Char × Nat) :=
  match chars.getLast? with
  | none => .error .refused
  | some last =>
    match unit? last with
    | none => .ok (chars, 1)
    | some multiplier =>
      match cutEnd? 1 chars with
      | none => .error .fault
      | some (stem, _) => .ok (stem, multiplier)

/-- A decimal number times a multiplier, rounded down, in registers. -/
def scaleAt (number : List Char) (multiplier : Nat) : Except Stop UInt64 :=
  let whole := number.takeWhile (· != '.')
  let fraction := (number.dropWhile (· != '.')).drop 1
  if whole ++ fraction = [] ∨ ¬ (whole ++ fraction).all Char.isDigit then
    .error .refused
  else do
    let significand ← fit 128 (Nat.ofDigitChars 10 (whole ++ fraction) 0)
    let places ← fit 32 fraction.length
    let power ← fit 128 (10 ^ places)
    let multiple ← fit 128 (significand * multiplier)
    let quotient ← (Register.divide? multiple power).getDM (.error .fault)
    let hertz ← fit 64 quotient
    return UInt64.ofNat hertz

def parseAt (text : String) : Except Stop UInt64 := do
  let (number, multiplier) ← splitUnitAt (dropHertzAt (trim text.toList))
  let hertz ← scaleAt (trim number) multiplier
  if hertz = 0 then throw .refused
  return hertz

section Cuts

variable {chars stem ending : List Char} {count : Nat}

theorem eq_append_of_cutEnd? (hcut : cutEnd? count chars = some (stem, ending)) :
    chars = stem ++ ending := by
  obtain ⟨offset, -, hchars⟩ := Option.bind_eq_some_iff.mp hcut
  exact eq_append_of_cut? hchars

theorem cutEnd?_of_size (stem : List Char) (hsize : size ending = count) :
    cutEnd? count (stem ++ ending) = some (stem, ending) := by
  have hoffset : Register.subtract? (size (stem ++ ending)) count = some (size stem) := by
    rw [size_append, hsize, Register.subtract?_of_le (Nat.le_add_left count _),
      Nat.add_sub_cancel]
  rw [cutEnd?, hoffset, Option.bind_some, cut?_size]

/-- Cutting two bytes off drops `hz`, and nothing from a text that does not end
in it. -/
theorem dropHertzAt_eq (chars : List Char) : dropHertzAt chars = dropHertz chars := by
  obtain ⟨ending, hending, hchars⟩ := exists_ending chars
  by_cases hsome : ending = []
  · rw [hsome, List.append_nil] at hchars
    rw [dropHertzAt]
    split
    · rename_i stem others hcut
      split
      · rename_i hletters
        obtain ⟨first, rest, rfl, hfirst, hrest⟩ := List.map_eq_cons_iff.mp hletters
        obtain ⟨last, rfl, hlast⟩ := List.map_eq_singleton_iff.mp hrest
        rw [eq_append_of_cutEnd? hcut]
        exact (dropHertz_pair stem hfirst hlast).symm
      · exact hchars
    · exact hchars
  · have hall : ∀ ending ∈ endings, ending = [] ∨
        size ending = 2 ∧ ending.map Char.toLower = ['h', 'z'] := by decide
    obtain ⟨hsize, hletters⟩ := (hall ending hending).resolve_left hsome
    have hcut : cutEnd? 2 chars = some (dropHertz chars, ending) := by
      conv_lhs => rw [hchars]
      exact cutEnd?_of_size _ hsize
    simp [dropHertzAt, hcut, hletters]

/-- A unit is cut off whole, and only a text without characters has no last
one. -/
theorem splitUnitAt_eq (chars : List Char) :
    splitUnitAt chars = if chars = [] then .error .refused else .ok (splitUnit chars) := by
  rcases List.eq_nil_or_concat chars with rfl | ⟨stem, last, rfl⟩
  · rfl
  · rw [List.concat_eq_append]
    cases hunit : unit? last with
    | none => simp [splitUnitAt, hunit, splitUnit_of_none stem hunit]
    | some multiplier =>
        have hall : ∀ named ∈ units, named.1 = [] ∨ size named.1 = 1 := by decide
        have hsize := (hall _ (mem_units hunit)).resolve_left (List.cons_ne_nil _ _)
        simp [splitUnitAt, hunit, splitUnit_of_unit stem hunit, cutEnd?_of_size stem hsize]

end Cuts

/-- Ten to the number of places fits in 128 bits for 38 places at most. -/
theorem ten_pow_lt_iff {places : Nat} : 10 ^ places < 2 ^ 128 ↔ places ≤ 38 := by
  constructor
  · intro hfits
    by_contra hmany
    have hlarge : 10 ^ 39 ≤ 10 ^ places := Nat.pow_le_pow_right (by decide) (by omega)
    omega
  · intro hfew
    have hsmall : 10 ^ places ≤ 10 ^ 38 := Nat.pow_le_pow_right (by decide) hfew
    omega

theorem fit_bind {α : Type} (bits number : Nat) (next : Nat → Except Stop α) :
    (fit bits number >>= next) = if number < 2 ^ bits then next number else .error .refused := by
  rw [fit, Register.hold?]
  split <;> rfl

/-- Each step refuses what one of the conditions does, and none divides by
zero. -/
theorem scaleAt_eq (number : List Char) (multiplier : Nat) :
    scaleAt number multiplier = (scale? number multiplier).getDM (.error .refused) := by
  have hdivide (multiple places : Nat) :
      Register.divide? multiple (10 ^ places) = some (multiple / 10 ^ places) :=
    Register.divide?_of_pos (Nat.pow_pos (by decide))
  rw [scaleAt, scale?]
  generalize number.takeWhile (· != '.') = whole
  generalize (number.dropWhile (· != '.')).drop 1 = fraction
  simp only [fit_bind, ten_pow_lt_iff, hdivide, Option.getDM_some, pure_bind, Nat.pow_eq]
  grind

theorem scale?_nil (multiplier : Nat) : scale? [] multiplier = none := by
  simp [scale?]

/-- Reading at byte offsets meets no fault, and what it reads is the frequency
that the text gives. -/
theorem parseAt_eq (text : String) : parseAt text = (parse? text).getDM (.error .refused) := by
  rw [parseAt, dropHertzAt_eq, splitUnitAt_eq, parse?]
  dsimp only
  generalize dropHertz (trim text.toList) = stem
  split
  · rename_i hnone
    rw [hnone, show trim (splitUnit []).1 = [] from rfl, scale?_nil]
    rfl
  · dsimp only [bind, Except.bind]
    rw [scaleAt_eq]
    cases scale? (trim (splitUnit stem).1) (splitUnit stem).2 with
    | none => rfl
    | some hertz =>
        dsimp only [Option.getDM_some, pure, Except.pure]
        split <;> rfl

/-- A text gives a frequency exactly if it spells one between blanks, and the
frequency is the value of the spelling, rounded down. Any other text gives none.
Read at byte offsets in registers, no text is cut inside a character and no
step fails. -/
theorem reads_exactly_spellings (text : String) :
    (∀ value, (parse? text).map UInt64.toNat = some value ↔
      ∃ spelling : Spelling, Strips text.toList spelling.chars ∧ spelling.Gives value) ∧
    (parse? text = none ↔ ∀ spelling : Spelling, Strips text.toList spelling.chars →
      ∀ value, ¬ spelling.Gives value) ∧
    parseAt text = (parse? text).getDM (.error .refused) := by
  refine ⟨fun _ => map_parse?_eq_some_iff, ?_, parseAt_eq text⟩
  constructor
  · intro hnone spelling hstrips value hvalue
    have hsome := map_parse?_eq_some_iff.mpr ⟨spelling, hstrips, hvalue⟩
    rw [hnone] at hsome
    cases hsome
  · intro hnot
    rw [Option.eq_none_iff_forall_ne_some]
    intro hertz hparse
    obtain ⟨spelling, hstrips, hvalue⟩ := parse?_eq_some_iff.mp hparse
    exact hnot spelling hstrips _ hvalue

/-- Blanks may stand before the unit, but not between it and `hz`. -/
example : parse? " 2.4 GHz " = some 2400000000 ∧ parse? "2.4G Hz" = none := by decide

end Clock.Frequency

end HypervisorTrace
