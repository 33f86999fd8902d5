import HypervisorTrace.Text

/-!
The tokens of a JSON text. Strings and numbers are kept as they are written: a text may hold
strings that stand for no text and numbers beyond any range, as long as nobody asks for their
value.
-/

namespace HypervisorTrace.Json

inductive Token where
  | openBrace
  | closeBrace
  | openBracket
  | closeBracket
  | colon
  | comma
  | null
  | bool (value : Bool)
  | number (digits : List UInt8)
  | string (body : List UInt8)
  deriving DecidableEq

def isSpace (byte : UInt8) : Bool :=
  byte == 0x20 || byte == 0x09 || byte == 0x0a || byte == 0x0d

def isDigit (byte : UInt8) : Bool :=
  0x30 ≤ byte && byte ≤ 0x39

def hexNumber? (a b c d : UInt8) : Option Nat :=
  ([a, b, c, d].mapM fun byte => Text.digit? 16 (Char.ofUInt8 byte)).map (Text.ofDigits 16)

def isShortEscape (byte : UInt8) : Bool :=
  [0x22, 0x5c, 0x2f, 0x62, 0x66, 0x6e, 0x72, 0x74].contains byte

/-- The body of a string up to its closing quote, and what follows it. Control characters must be
escaped, and a backslash must begin an escape. -/
def takeString : List UInt8 → Option (List UInt8 × List UInt8)
  | [] => none
  | 0x22 :: rest => some ([], rest)
  | 0x5c :: 0x75 :: a :: b :: c :: d :: rest =>
    if (hexNumber? a b c d).isSome then
      (takeString rest).map fun (body, rest) => (0x5c :: 0x75 :: a :: b :: c :: d :: body, rest)
    else
      none
  | 0x5c :: escaped :: rest =>
    if isShortEscape escaped then
      (takeString rest).map fun (body, rest) => (0x5c :: escaped :: body, rest)
    else
      none
  | byte :: rest =>
    if byte < 0x20 ∨ byte = 0x5c then
      none
    else
      (takeString rest).map fun (body, rest) => (byte :: body, rest)

def isNumberByte (byte : UInt8) : Bool :=
  isDigit byte || [0x2b, 0x2d, 0x2e, 0x45, 0x65].contains byte

/-- Whether bytes are a whole number: digits, without a leading zero unless there is no other. -/
def isWhole (digits : List UInt8) : Bool :=
  digits ≠ [] && digits.all isDigit && (digits.head? ≠ some 0x30 || digits.length == 1)

def isExponent : List UInt8 → Bool
  | [] => true
  | letter :: rest =>
    (letter == 0x65 || letter == 0x45) &&
      match rest with
      | 0x2b :: digits => digits ≠ [] && digits.all isDigit
      | 0x2d :: digits => digits ≠ [] && digits.all isDigit
      | digits => digits ≠ [] && digits.all isDigit

def isTail : List UInt8 → Bool
  | 0x2e :: rest =>
    let digits := rest.takeWhile isDigit
    digits ≠ [] && isExponent (rest.dropWhile isDigit)
  | rest => isExponent rest

def isNumber (lexeme : List UInt8) : Bool :=
  let magnitude := if lexeme.head? = some 0x2d then lexeme.drop 1 else lexeme
  isWhole (magnitude.takeWhile isDigit) && isTail (magnitude.dropWhile isDigit)

theorem length_of_takeString {bytes body rest : List UInt8}
    (h : takeString bytes = some (body, rest)) : rest.length < bytes.length := by
  fun_induction takeString bytes generalizing body rest with
  | case1 => cases h
  | case2 =>
    cases h
    simp
  | case3 a b c d others _ ih =>
    obtain ⟨⟨inner, left⟩, found, same⟩ := Option.map_eq_some_iff.1 h
    cases same
    have := ih found
    simp only [List.length_cons]
    omega
  | case4 => cases h
  | case5 escaped others _ _ ih =>
    obtain ⟨⟨inner, left⟩, found, same⟩ := Option.map_eq_some_iff.1 h
    cases same
    have := ih found
    simp only [List.length_cons]
    omega
  | case6 => cases h
  | case7 => cases h
  | case8 byte others _ _ _ _ ih =>
    obtain ⟨⟨inner, left⟩, found, same⟩ := Option.map_eq_some_iff.1 h
    cases same
    have := ih found
    simp only [List.length_cons]
    omega

def punctuation? (byte : UInt8) : Option Token :=
  if byte = 0x7b then some .openBrace
  else if byte = 0x7d then some .closeBrace
  else if byte = 0x5b then some .openBracket
  else if byte = 0x5d then some .closeBracket
  else if byte = 0x3a then some .colon
  else if byte = 0x2c then some .comma
  else none

def names : List (UInt8 × List UInt8 × Token) :=
  [(0x6e, [0x75, 0x6c, 0x6c], .null), (0x74, [0x72, 0x75, 0x65], .bool true),
    (0x66, [0x61, 0x6c, 0x73, 0x65], .bool false)]

def takeName (byte : UInt8) (rest : List UInt8) : Option (Token × List UInt8) :=
  (names.find? fun name => name.1 == byte && name.2.1.isPrefixOf rest).map fun name =>
    (name.2.2, rest.drop name.2.1.length)

def takeNumber (byte : UInt8) (rest : List UInt8) : Option (Token × List UInt8) :=
  if isNumber (byte :: rest.takeWhile isNumberByte) then
    some (.number (byte :: rest.takeWhile isNumberByte), rest.dropWhile isNumberByte)
  else
    none

def takeToken (byte : UInt8) (rest : List UInt8) : Option (Token × List UInt8) :=
  match punctuation? byte with
  | some token => some (token, rest)
  | none =>
    if byte = 0x22 then (takeString rest).map fun found => (.string found.1, found.2)
    else if isNumberByte byte then takeNumber byte rest
    else takeName byte rest

theorem length_of_takeToken {byte : UInt8} {bytes rest : List UInt8} {token : Token}
    (h : takeToken byte bytes = some (token, rest)) : rest.length ≤ bytes.length := by
  unfold takeToken at h
  split at h
  · cases h
    exact Nat.le_refl _
  · split at h
    · obtain ⟨⟨body, others⟩, found, same⟩ := Option.map_eq_some_iff.1 h
      cases same
      exact Nat.le_of_lt (length_of_takeString found)
    · split at h
      · unfold takeNumber at h
        split at h
        · cases h
          exact (List.dropWhile_sublist _).length_le
        · cases h
      · obtain ⟨name, found, same⟩ := Option.map_eq_some_iff.1 h
        cases same
        simp only [List.length_drop]
        omega

def tokens? : List UInt8 → Option (List Token)
  | [] => some []
  | byte :: rest =>
    if isSpace byte then
      tokens? rest
    else
      match _taken : takeToken byte rest with
      | some (token, others) => (tokens? others).map (token :: ·)
      | none => none
termination_by bytes => bytes.length
decreasing_by
  · simp
  · have := length_of_takeToken _taken
    simp only [List.length_cons]
    omega

end HypervisorTrace.Json
