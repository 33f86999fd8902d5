import HypervisorTrace.Text

/-!
The strings of TOML. A basic string stands between double quotes and may hold escapes, a literal
one stands between single quotes and holds what is written. Either may go over several lines
between triple quotes; then a newline right after the opening quotes is dropped, and one or two
quotes may stand before the closing ones. Control characters other than the tab are refused.
-/

namespace HypervisorTrace.Toml

def isBlank (char : Char) : Bool :=
  char = ' ' || char = '\t'

def isPlain (char : Char) : Bool :=
  char = '\t' || (0x20 ≤ char.toNat && char.toNat ≠ 0x7f)

def newline? : List Char → Option (List Char)
  | '\n' :: rest => some rest
  | '\r' :: '\n' :: rest => some rest
  | _ => none

def dropNewline (chars : List Char) : List Char :=
  (newline? chars).getD chars

def dropSpace (chars : List Char) : List Char :=
  match chars with
  | [] => []
  | '\r' :: '\n' :: rest => dropSpace rest
  | char :: rest => if isBlank char || char = '\n' then dropSpace rest else char :: rest

/-- The character whose number is given by hexadecimal digits. Surrogates are no characters. -/
def charOfHex? (digits : List Char) : Option Char := do
  let code := Text.ofDigits 16 (← digits.mapM (Text.digit? 16))
  if code.isValidChar then some (Char.ofNat code) else none

def escaped? (char : Char) : Option Char :=
  if char = 'b' then some '\x08'
  else if char = 't' then some '\t'
  else if char = 'n' then some '\n'
  else if char = 'f' then some '\x0c'
  else if char = 'r' then some '\r'
  else if char = '"' then some '"'
  else if char = '\\' then some '\\'
  else none

def takeEscape : List Char → Option (Char × List Char)
  | 'u' :: a :: b :: c :: d :: rest => (charOfHex? [a, b, c, d]).map (·, rest)
  | 'U' :: a :: b :: c :: d :: e :: f :: g :: h :: rest =>
    (charOfHex? [a, b, c, d, e, f, g, h]).map (·, rest)
  | char :: rest => (escaped? char).map (·, rest)
  | [] => none

theorem length_of_takeEscape {chars rest : List Char} {char : Char}
    (h : takeEscape chars = some (char, rest)) : rest.length < chars.length := by
  unfold takeEscape at h
  split at h
  · obtain ⟨_, _, same⟩ := Option.map_eq_some_iff.1 h
    cases same
    simp only [List.length_cons]
    omega
  · obtain ⟨_, _, same⟩ := Option.map_eq_some_iff.1 h
    cases same
    simp only [List.length_cons]
    omega
  · obtain ⟨_, _, same⟩ := Option.map_eq_some_iff.1 h
    cases same
    simp
  · cases h

theorem length_dropSpace (chars : List Char) : (dropSpace chars).length ≤ chars.length := by
  fun_induction dropSpace chars with
  | case1 => simp
  | case2 rest ih =>
    simp only [List.length_cons]
    omega
  | case3 char rest _ _ ih =>
    simp only [List.length_cons]
    omega
  | case4 => simp

/-- A pair with a character put before the first part. -/
def before (char : Char) (found : List Char × List Char) : List Char × List Char :=
  (char :: found.1, found.2)

def takeBasic (chars : List Char) : Option (List Char × List Char) :=
  match chars with
  | [] => none
  | '"' :: rest => some ([], rest)
  | '\\' :: rest =>
    match _taken : takeEscape rest with
    | some (char, others) => (takeBasic others).map (before char)
    | none => none
  | char :: rest => if isPlain char then (takeBasic rest).map (before char) else none
termination_by chars.length
decreasing_by
  · have := length_of_takeEscape _taken
    simp only [List.length_cons]
    omega
  · simp

def takeLiteral : List Char → Option (List Char × List Char)
  | [] => none
  | '\'' :: rest => some ([], rest)
  | char :: rest => if isPlain char then (takeLiteral rest).map (before char) else none

/-- A basic string of several lines after its opening quotes, and what follows its closing ones. A
backslash at the end of a line takes all blanks and newlines after it away. -/
def takeBasicLines (chars : List Char) : Option (List Char × List Char) :=
  match chars with
  | [] => none
  | '"' :: '"' :: '"' :: '"' :: '"' :: rest => some (['"', '"'], rest)
  | '"' :: '"' :: '"' :: '"' :: rest => some (['"'], rest)
  | '"' :: '"' :: '"' :: rest => some ([], rest)
  | '\r' :: '\n' :: rest => (takeBasicLines rest).map (before '\n')
  | '\\' :: rest =>
    if (newline? (rest.dropWhile isBlank)).isSome then
      takeBasicLines (dropSpace rest)
    else
      match _taken : takeEscape rest with
      | some (char, others) => (takeBasicLines others).map (before char)
      | none => none
  | char :: rest =>
    if isPlain char || char = '\n' then (takeBasicLines rest).map (before char) else none
termination_by chars.length
decreasing_by
  · simp only [List.length_cons]
    omega
  · have := length_dropSpace rest
    simp only [List.length_cons]
    omega
  · have := length_of_takeEscape _taken
    simp only [List.length_cons]
    omega
  · simp

def takeLiteralLines : List Char → Option (List Char × List Char)
  | [] => none
  | '\'' :: '\'' :: '\'' :: '\'' :: '\'' :: rest => some (['\'', '\''], rest)
  | '\'' :: '\'' :: '\'' :: '\'' :: rest => some (['\''], rest)
  | '\'' :: '\'' :: '\'' :: rest => some ([], rest)
  | '\r' :: '\n' :: rest => (takeLiteralLines rest).map (before '\n')
  | char :: rest =>
    if isPlain char || char = '\n' then (takeLiteralLines rest).map (before char) else none

def takeLineString : List Char → Option (List Char × List Char)
  | '"' :: rest => takeBasic rest
  | '\'' :: rest => takeLiteral rest
  | _ => none

def takeString : List Char → Option (List Char × List Char)
  | '"' :: '"' :: '"' :: rest => takeBasicLines (dropNewline rest)
  | '\'' :: '\'' :: '\'' :: rest => takeLiteralLines (dropNewline rest)
  | chars => takeLineString chars

end HypervisorTrace.Toml
