import HypervisorTrace.Json.Scalar
import HypervisorTrace.Proofs.Json.Size

/-!
Strings that are quoted and read again. A character is written in one of three
ways: by a letter, by its number, or as it is, and then none of its bytes has a
meaning of its own in a string. Each way is undone without a look at what
follows, so a quoted text ends where it was made to end, and stands for the text
that was quoted.
-/

namespace HypervisorTrace.Json

/-- Whether a byte stands for itself in a string. -/
def IsPlain (byte : UInt8) : Prop :=
  0x20 ≤ byte ∧ byte ≠ 0x22 ∧ byte ≠ 0x5c

/-- The bytes that a character can be written with in a string. -/
inductive Spells (char : Char) : List UInt8 → Prop
  | letter (letter : UInt8) (hletter : isShortEscape letter)
      (hchar : String.utf8EncodeChar char = [unescapeByte letter]) : Spells char [0x5c, letter]
  | unit (a b c d : UInt8) (hunit : hexNumber? a b c d = some char.toNat)
      (hchar : char.toNat < 0xd800) : Spells char [0x5c, 0x75, a, b, c, d]
  | plain (hplain : ∀ byte ∈ String.utf8EncodeChar char, IsPlain byte) :
      Spells char (String.utf8EncodeChar char)

/-- The bytes of a character above the ASCII ones are all above the ASCII ones. -/
theorem toNat_of_mem_utf8EncodeChar {char : Char} {byte : UInt8}
    (hbyte : byte ∈ String.utf8EncodeChar char) :
    byte.toNat = char.toNat ∨ 0x80 ≤ byte.toNat := by
  have hvalue : char.val.toNat = char.toNat := rfl
  rw [String.utf8EncodeChar.eq_1, hvalue] at hbyte
  split at hbyte
  · left
    rw [List.mem_singleton.mp hbyte, UInt8.toNat_ofNat']
    omega
  all_goals
    right
    repeat' split at hbyte
    all_goals
      simp only [List.mem_cons, List.not_mem_nil, or_false] at hbyte
      rcases hbyte with rfl | rfl | rfl | rfl <;> rw [UInt8.toNat_ofNat'] <;> omega

theorem isPlain_of_mem_utf8EncodeChar {char : Char} {byte : UInt8} (hspace : 0x20 ≤ char.toNat)
    (hquote : char ≠ '"') (hbackslash : char ≠ '\\')
    (hbyte : byte ∈ String.utf8EncodeChar char) : IsPlain byte := by
  have hquote : char.toNat ≠ 0x22 := fun hsame => hquote (Char.toNat_inj.mp hsame)
  have hbackslash : char.toNat ≠ 0x5c := fun hsame => hbackslash (Char.toNat_inj.mp hsame)
  have hnumber := toNat_of_mem_utf8EncodeChar hbyte
  simp only [IsPlain, Ne, UInt8.le_iff_toNat_le, ← UInt8.toNat_inj, UInt8.toNat_ofNat]
  omega

/-- A control character by its number: two zeros and two digits. -/
theorem utf8_unit : ∀ code : Fin 32,
    let upper := 0x30 + UInt8.ofNat (code / 16)
    let lower := UInt8.ofNat (Nat.digitChar (code % 16)).toNat
    Text.utf8 ("\\u" ++ Text.hex 4 code) = [0x5c, 0x75, 0x30, 0x30, upper, lower] ∧
      hexNumber? 0x30 0x30 upper lower = some code.val := by
  decide

theorem Spells.of_letter {char : Char} {text : String} (letter : UInt8)
    (htext : Text.utf8 text = [0x5c, letter]) (hletter : isShortEscape letter)
    (hchar : String.utf8EncodeChar char = [unescapeByte letter]) :
    Spells char (Text.utf8 text) := by
  rw [htext]
  exact .letter letter hletter hchar

theorem utf8_char (char : Char) : Text.utf8 char.toString = String.utf8EncodeChar char := by
  simp [Text.utf8]

theorem escape_spells (char : Char) : Spells char (Text.utf8 (escape char)) := by
  unfold escape
  split
  case isTrue hchar =>
    subst hchar
    exact .of_letter 0x22 rfl rfl rfl
  case isFalse hquote =>
  split
  case isTrue hchar =>
    subst hchar
    exact .of_letter 0x5c rfl rfl rfl
  case isFalse hbackslash =>
  split
  case isTrue hchar =>
    subst hchar
    exact .of_letter 0x6e rfl rfl rfl
  split
  case isTrue hchar =>
    subst hchar
    exact .of_letter 0x72 rfl rfl rfl
  split
  case isTrue hchar =>
    subst hchar
    exact .of_letter 0x74 rfl rfl rfl
  split
  case isTrue hchar =>
    obtain rfl : char = '\x08' := Char.toNat_inj.mp hchar
    exact .of_letter 0x62 rfl rfl rfl
  split
  case isTrue hchar =>
    obtain rfl : char = '\x0c' := Char.toNat_inj.mp hchar
    exact .of_letter 0x66 rfl rfl rfl
  split
  case isTrue hcontrol =>
    obtain ⟨hbytes, hunit⟩ := utf8_unit ⟨char.toNat, hcontrol⟩
    rw [hbytes]
    exact .unit _ _ _ _ hunit (by omega)
  case isFalse hspace =>
    rw [utf8_char]
    exact .plain fun byte hbyte =>
      isPlain_of_mem_utf8EncodeChar (Nat.not_lt.mp hspace) hquote hbackslash hbyte

section Reading

variable {char : Char} {spelling : List UInt8}

/-- The letter that a number follows stands for no character by itself. -/
theorem ne_unit_of_isShortEscape {letter : UInt8} (hletter : isShortEscape letter) :
    letter ≠ 0x75 := by
  rintro rfl
  exact absurd hletter (by decide)

theorem takeString_plain {plain : List UInt8} (hplain : ∀ byte ∈ plain, IsPlain byte)
    (bytes : List UInt8) :
    takeString (plain ++ bytes) =
      (takeString bytes).map fun found => (plain ++ found.1, found.2) := by
  induction plain with
  | nil =>
      rw [List.nil_append]
      cases takeString bytes <;> rfl
  | cons byte rest ih =>
      obtain ⟨hspace, hquote, hbackslash⟩ := hplain byte List.mem_cons_self
      have hrest := ih fun other hother => hplain other (List.mem_cons_of_mem byte hother)
      rw [List.cons_append, takeString.eq_5 _ _ hquote (fun _ _ _ _ _ h _ => hbackslash h)
        (fun _ _ h _ => hbackslash h), if_neg, hrest, Option.map_map]
      · rfl
      · rintro (hcontrol | hsame)
        · exact absurd hspace (UInt8.not_le.mpr hcontrol)
        · exact hbackslash hsame

/-- A character that is written in one of the ways is taken whole. -/
theorem Spells.takeString_append (hspells : Spells char spelling) (bytes : List UInt8) :
    takeString (spelling ++ bytes) =
      (takeString bytes).map fun found => (spelling ++ found.1, found.2) := by
  cases hspells with
  | letter letter hletter hchar =>
      have hunit := ne_unit_of_isShortEscape hletter
      have hstep := takeString.eq_4 letter bytes fun _ _ _ _ _ h _ => hunit h
      rw [if_pos hletter] at hstep
      exact hstep
  | unit a b c d hunit hchar =>
      have hstep := takeString.eq_3 a b c d bytes
      rw [hunit, Option.isSome_some, if_pos rfl] at hstep
      exact hstep
  | plain hplain => exact takeString_plain hplain bytes

theorem unescape?_plain {plain : List UInt8} (hplain : ∀ byte ∈ plain, IsPlain byte)
    (bytes : List UInt8) :
    unescape? (plain ++ bytes) = (unescape? bytes).map (plain ++ ·) := by
  induction plain with
  | nil =>
      rw [List.nil_append]
      cases unescape? bytes <;> rfl
  | cons byte rest ih =>
      obtain ⟨-, -, hbackslash⟩ := hplain byte List.mem_cons_self
      have hrest := ih fun other hother => hplain other (List.mem_cons_of_mem byte hother)
      rw [List.cons_append, unescape?.eq_5 _ _ (fun _ _ _ _ _ _ _ _ _ h _ => hbackslash h)
        (fun _ _ _ _ _ h _ => hbackslash h) (fun _ _ h _ => hbackslash h), hrest, Option.map_map]
      rfl

/-- Whether two escapes by number, which may be those of one character, are at
the front of some bytes. -/
private theorem exists_pair_or (bytes : List UInt8) :
    (∃ e f g h rest, bytes = 0x5c :: 0x75 :: e :: f :: g :: h :: rest) ∨
      ∀ e f g h rest, bytes = 0x5c :: 0x75 :: e :: f :: g :: h :: rest → False := by
  by_cases hpair : ∃ e f g h rest, bytes = 0x5c :: 0x75 :: e :: f :: g :: h :: rest
  · exact Or.inl hpair
  · exact Or.inr fun e f g h rest hbytes => hpair ⟨e, f, g, h, rest, hbytes⟩

theorem unescape?_of_hexNumber?_eq_none {a b c d : UInt8} (hnumber : hexNumber? a b c d = none)
    (bytes : List UInt8) : unescape? (0x5c :: 0x75 :: a :: b :: c :: d :: bytes) = none := by
  rcases exists_pair_or bytes with ⟨e, f, g, h, rest, rfl⟩ | halone
  · rw [unescape?.eq_2, hnumber]
  · rw [unescape?.eq_3 _ _ _ _ _ halone, hnumber]

/-- The number of a character that is no half of a pair is not taken together
with one that follows it. -/
theorem unescape?_unit {a b c d : UInt8} {number : Nat} (hnumber : hexNumber? a b c d = some number)
    (hbasic : number < 0xd800) (bytes : List UInt8) :
    unescape? (0x5c :: 0x75 :: a :: b :: c :: d :: bytes) =
      (unescape? bytes).map (String.utf8EncodeChar (Char.ofNat number) ++ ·) := by
  have hhigh : isHighSurrogate number = false := by
    rw [isHighSurrogate, Bool.and_eq_false_imp]
    exact fun hleast => absurd (of_decide_eq_true hleast) (by omega)
  have hlow : isLowSurrogate number = false := by
    rw [isLowSurrogate, Bool.and_eq_false_imp]
    exact fun hleast => absurd (of_decide_eq_true hleast) (by omega)
  rcases exists_pair_or bytes with ⟨e, f, g, h, rest, rfl⟩ | halone
  · rw [unescape?.eq_2, hnumber]
    cases hsecond : hexNumber? e f g h with
    | none =>
        rw [unescape?_of_hexNumber?_eq_none hsecond]
        rfl
    | some second =>
        simp only [hhigh, hlow, Bool.false_eq_true, if_false]
  · rw [unescape?.eq_3 _ _ _ _ _ halone, hnumber]
    simp only [hhigh, hlow, Bool.or_self, Bool.false_eq_true, if_false]

/-- A character that is written in one of the ways is undone to itself. -/
theorem Spells.unescape?_append (hspells : Spells char spelling) (bytes : List UInt8) :
    unescape? (spelling ++ bytes) =
      (unescape? bytes).map (String.utf8EncodeChar char ++ ·) := by
  cases hspells with
  | letter letter hletter hchar =>
      have hunit := ne_unit_of_isShortEscape hletter
      rw [hchar]
      exact unescape?.eq_4 letter bytes (fun _ _ _ _ _ _ _ _ _ h _ => hunit h)
        fun _ _ _ _ _ h _ => hunit h
  | unit a b c d hunit hchar =>
      rw [← Char.ofNat_toNat char]
      exact unescape?_unit hunit hchar bytes
  | plain hplain => exact unescape?_plain hplain bytes

end Reading

/-- What stands between the quotes around a text. -/
def body (text : String) : List UInt8 :=
  text.toList.flatMap fun char => Text.utf8 (escape char)

theorem utf8_quote (text : String) : Text.utf8 (quote text) = 0x22 :: (body text ++ [0x22]) := by
  have hmark : Text.utf8 "\"" = [0x22] := rfl
  rw [quote, Text.utf8_append, Text.utf8_append, Text.utf8_join, hmark, List.map_map, body,
    List.flatMap]
  rfl

theorem takeString_body (text : String) (rest : List UInt8) :
    takeString (body text ++ 0x22 :: rest) = some (body text, rest) := by
  unfold body
  induction text.toList with
  | nil => exact takeString.eq_2 rest
  | cons char chars ih =>
      rw [List.flatMap_cons, List.append_assoc, (escape_spells char).takeString_append, ih]
      rfl

theorem text?_body (text : String) : text? (body text) = some text := by
  have hbytes : unescape? (body text) = some (Text.utf8 text) := by
    change unescape? (text.toList.flatMap fun char => Text.utf8 (escape char)) =
      some (text.toList.flatMap String.utf8EncodeChar)
    induction text.toList with
    | nil => exact unescape?.eq_1
    | cons char chars ih =>
        rw [List.flatMap_cons, (escape_spells char).unescape?_append, ih]
        rfl
  rw [text?, hbytes]
  exact Text.ofUtf8?_utf8 text

end HypervisorTrace.Json
