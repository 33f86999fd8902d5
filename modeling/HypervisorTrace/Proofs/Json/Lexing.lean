import HypervisorTrace.Proofs.Json.Escaping
import HypervisorTrace.Proofs.Json.Numbers

/-!
The tokens of a value that is written out. Whatever the style and the depth,
they are the same: spaces stand between tokens only. A number is the one token
that is not closed by its own last byte. What follows it must not go on with it,
and no bracket, comma or space does.
-/

namespace HypervisorTrace.Json

mutual

/-- The tokens that a value is written with. -/
def Value.tokens : Value → List Token
  | .null => [.null]
  | .bool value => [.bool value]
  | .number value => [.number (lexeme value)]
  | .string value => [.string (body value)]
  | .array [] => [.openBracket, .closeBracket]
  | .array (first :: others) => .openBracket :: (first.tokens ++ elementTokens others)
  | .object [] => [.openBrace, .closeBrace]
  | .object ((key, value) :: others) =>
    .openBrace :: .string (body key) :: .colon :: (value.tokens ++ memberTokens others)

/-- The tokens after the first element of an array. -/
def elementTokens : List Value → List Token
  | [] => [.closeBracket]
  | value :: others => .comma :: (value.tokens ++ elementTokens others)

/-- The tokens after the first member of an object. -/
def memberTokens : List (String × Value) → List Token
  | [] => [.closeBrace]
  | (key, value) :: others =>
    .comma :: .string (body key) :: .colon :: (value.tokens ++ memberTokens others)

end

/-- Whether a number would end before some bytes. -/
def EndsNumber (bytes : List UInt8) : Prop :=
  ∀ byte ∈ bytes.head?, isNumberByte byte = false

theorem endsNumber_nil : EndsNumber [] :=
  nofun

theorem takeWhile_of_endsNumber {bytes : List UInt8} (hends : EndsNumber bytes) :
    bytes.takeWhile isNumberByte = [] ∧ bytes.dropWhile isNumberByte = bytes := by
  cases bytes with
  | nil => exact ⟨rfl, rfl⟩
  | cons byte rest =>
      have hbyte := hends byte rfl
      rw [List.takeWhile_cons, List.dropWhile_cons, hbyte]
      exact ⟨rfl, rfl⟩

theorem endsNumber_cons {byte : UInt8} (hbyte : isNumberByte byte = false) (rest : List UInt8) :
    EndsNumber (byte :: rest) := by
  intro other hother
  cases hother
  exact hbyte

/-- Whether some bytes are read as some tokens, whatever stands after them. -/
def LexesClosed (bytes : List UInt8) (tokens : List Token) : Prop :=
  ∀ rest, tokens? (bytes ++ rest) = (tokens? rest).map (tokens ++ ·)

/-- Whether some bytes are read as some tokens, if what stands after them would
end a number. -/
def Lexes (bytes : List UInt8) (tokens : List Token) : Prop :=
  ∀ rest, EndsNumber rest → tokens? (bytes ++ rest) = (tokens? rest).map (tokens ++ ·)

section Composition

variable {first second : List UInt8} {tokens others : List Token}

theorem map_append_map (tokens others : List Token) (read : Option (List Token)) :
    (read.map (others ++ ·)).map (tokens ++ ·) = read.map (tokens ++ others ++ ·) := by
  rw [Option.map_map]
  congr 1
  funext later
  exact (List.append_assoc tokens others later).symm

theorem LexesClosed.lexes (hfirst : LexesClosed first tokens) : Lexes first tokens :=
  fun rest _ => hfirst rest

theorem LexesClosed.append (hfirst : LexesClosed first tokens) (hsecond : Lexes second others) :
    Lexes (first ++ second) (tokens ++ others) := by
  intro rest hrest
  rw [List.append_assoc, hfirst, hsecond rest hrest, map_append_map]

/-- A number may stand in front of what ends it. -/
theorem Lexes.append (hfirst : Lexes first tokens) (hsecond : Lexes second others)
    (hends : ∀ rest, EndsNumber rest → EndsNumber (second ++ rest)) :
    Lexes (first ++ second) (tokens ++ others) := by
  intro rest hrest
  rw [List.append_assoc, hfirst _ (hends rest hrest), hsecond rest hrest, map_append_map]

end Composition

section Tokens

theorem tokens?_space {byte : UInt8} (hspace : isSpace byte) (rest : List UInt8) :
    tokens? (byte :: rest) = tokens? rest := by
  rw [tokens?.eq_2, if_pos hspace]

theorem tokens?_token {byte : UInt8} {bytes rest : List UInt8} {token : Token}
    (hspace : isSpace byte = false) (htoken : takeToken byte bytes = some (token, rest)) :
    tokens? (byte :: bytes) = (tokens? rest).map (token :: ·) := by
  rw [tokens?.eq_2, if_neg (ne_true_of_eq_false hspace)]
  split
  · rename_i other later htaken
    rw [htoken] at htaken
    cases htaken
    rfl
  · rename_i hnone
    rw [htoken] at hnone
    cases hnone

theorem lexes_spaces {spaces : List UInt8} (hspaces : ∀ byte ∈ spaces, isSpace byte) :
    LexesClosed spaces [] := by
  intro rest
  induction spaces with
  | nil =>
      rw [List.nil_append]
      cases tokens? rest <;> rfl
  | cons byte others ih =>
      rw [List.cons_append, tokens?_space (hspaces byte List.mem_cons_self)]
      exact ih fun other hother => hspaces other (List.mem_cons_of_mem byte hother)

theorem lexes_punctuation {byte : UInt8} {token : Token} (hspace : isSpace byte = false)
    (htoken : punctuation? byte = some token) : LexesClosed [byte] [token] := by
  intro rest
  apply tokens?_token hspace
  rw [takeToken, htoken]
  rfl

theorem lexes_quote (text : String) :
    LexesClosed (Text.utf8 (quote text)) [.string (body text)] := by
  intro rest
  rw [utf8_quote, List.cons_append, List.append_assoc]
  have hpunctuation : punctuation? 0x22 = none := rfl
  apply tokens?_token rfl
  rw [takeToken, hpunctuation]
  dsimp only
  rw [if_pos rfl]
  exact congrArg _ (takeString_body text rest)

theorem lexes_name {text : String} {byte : UInt8} {others : List UInt8} {token : Token}
    (htext : Text.utf8 text = byte :: others) (hname : (byte, others, token) ∈ names) :
    LexesClosed (Text.utf8 text) [token] := by
  intro rest
  rw [htext]
  simp only [names, List.mem_cons, List.not_mem_nil, or_false] at hname
  rcases hname with hnull | htrue | hfalse
  · cases hnull
    exact tokens?_token rfl rfl
  · cases htrue
    exact tokens?_token rfl rfl
  · cases hfalse
    exact tokens?_token rfl rfl

theorem of_isNumberByte {byte : UInt8} (hbyte : isNumberByte byte) :
    isSpace byte = false ∧ punctuation? byte = none ∧ byte ≠ 0x22 := by
  have hall : ∀ number : Fin 256, isNumberByte (UInt8.ofNat number) →
      isSpace (UInt8.ofNat number) = false ∧ punctuation? (UInt8.ofNat number) = none ∧
        UInt8.ofNat number ≠ 0x22 := by decide +kernel
  have hsame : UInt8.ofNat byte.toNat = byte := UInt8.ofNat_toNat
  rw [← hsame] at hbyte ⊢
  exact hall ⟨byte.toNat, byte.toNat_lt⟩ hbyte

theorem lexes_number (value : Int) :
    Lexes (Text.utf8 (toString value)) [.number (lexeme value)] := by
  intro rest hrest
  rw [utf8_toString_int]
  obtain ⟨byte, tail, hlexeme⟩ := List.exists_cons_of_ne_nil (lexeme_ne_nil value)
  have hbytes : ∀ other ∈ byte :: tail, isNumberByte other := by
    rw [← hlexeme]
    exact fun other hother => isNumberByte_of_mem_lexeme value hother
  have htail : ∀ other ∈ tail, isNumberByte other :=
    fun other hother => hbytes other (List.mem_cons_of_mem byte hother)
  obtain ⟨hspace, hpunctuation, hquote⟩ := of_isNumberByte (hbytes byte List.mem_cons_self)
  obtain ⟨htake, hdrop⟩ := takeWhile_of_endsNumber hrest
  rw [hlexeme, List.cons_append]
  apply tokens?_token hspace
  rw [takeToken, hpunctuation]
  dsimp only
  rw [if_neg hquote, if_pos (hbytes byte List.mem_cons_self), takeNumber,
    List.takeWhile_append_of_pos htail, htake, List.append_nil,
    List.dropWhile_append_of_pos htail, hdrop, ← hlexeme, if_pos (isNumber_lexeme value)]

end Tokens

section Separators

theorem utf8_newline : Text.utf8 "\n" = [0x0a] := rfl

variable (style : Style) (depth : Nat)

theorem isSpace_of_mem_gap {byte : UInt8} (hbyte : byte ∈ Text.utf8 (style.gap depth)) :
    isSpace byte := by
  cases style with
  | compact => cases hbyte
  | pretty =>
      have hspace : String.utf8EncodeChar ' ' = [0x20] := rfl
      rw [Style.gap, Text.utf8_append, utf8_newline, List.mem_append, Text.run, Text.utf8,
        String.toList_ofList, List.mem_flatMap] at hbyte
      rcases hbyte with hfirst | ⟨char, hchar, hindent⟩
      · rw [List.mem_singleton.mp hfirst]
        rfl
      · rw [List.eq_of_mem_replicate hchar, hspace] at hindent
        rw [List.mem_singleton.mp hindent]
        rfl

theorem lexes_gap : LexesClosed (Text.utf8 (style.gap depth)) [] :=
  lexes_spaces fun _ hbyte => isSpace_of_mem_gap style depth hbyte

theorem lexes_colon : LexesClosed (Text.utf8 style.colon) [.colon] := by
  cases style with
  | compact => exact lexes_punctuation rfl rfl
  | pretty =>
      have hbytes : Text.utf8 Style.pretty.colon = [0x3a, 0x20] := rfl
      intro rest
      rw [hbytes]
      exact (tokens?_token rfl rfl).trans (congrArg _ (tokens?_space rfl rest))

/-- A gap ends a number, or it is empty and what follows it does. -/
theorem endsNumber_gap {rest : List UInt8} (hrest : EndsNumber rest) :
    EndsNumber (Text.utf8 (style.gap depth) ++ rest) := by
  cases style with
  | compact => exact hrest
  | pretty =>
      rw [Style.gap, Text.utf8_append, utf8_newline]
      exact endsNumber_cons rfl _

end Separators

/-- The bytes of some pieces one after the other. -/
def written (pieces : List String) : List UInt8 :=
  (pieces.map Text.utf8).flatten

theorem written_nil : written [] = [] := rfl

theorem written_cons (piece : String) (rest : List String) :
    written (piece :: rest) = Text.utf8 piece ++ written rest := by
  rw [written, List.map_cons, List.flatten_cons, written]

theorem written_append (first second : List String) :
    written (first ++ second) = written first ++ written second := by
  rw [written, List.map_append, List.flatten_append, written, written]

theorem written_singleton (piece : String) : written [piece] = Text.utf8 piece := by
  rw [written_cons, written_nil, List.append_nil]

section Closing

variable (style : Style) (depth : Nat) {closing : String} {byte : UInt8} {token : Token}

/-- The end of an array or an object: a gap and a closing bracket. -/
theorem lexes_closing (hbytes : Text.utf8 closing = [byte]) (hspace : isSpace byte = false)
    (htoken : punctuation? byte = some token) :
    Lexes (written [style.gap depth, closing]) [token] := by
  rw [written_cons, written_singleton, hbytes]
  exact (lexes_gap style depth).append (lexes_punctuation hspace htoken).lexes

theorem endsNumber_closing (hbytes : Text.utf8 closing = [byte])
    (hbyte : isNumberByte byte = false) (rest : List UInt8) :
    EndsNumber (written [style.gap depth, closing] ++ rest) := by
  rw [written_cons, written_singleton, hbytes, List.append_assoc]
  exact endsNumber_gap style depth (endsNumber_cons hbyte rest)

end Closing

theorem utf8_comma : Text.utf8 "," = [0x2c] := rfl

theorem utf8_closeBracket : Text.utf8 "]" = [0x5d] := rfl

theorem utf8_closeBrace : Text.utf8 "\x7d" = [0x7d] := rfl

/-- What follows an element ends a number: a comma, a gap or the closing
bracket. -/
theorem endsNumber_elements (style : Style) (depth outer : Nat) (others : List Value)
    (rest : List UInt8) :
    EndsNumber (written (elementPieces style depth others ++ [style.gap outer, "]"]) ++ rest) := by
  cases others with
  | nil => exact endsNumber_closing style outer utf8_closeBracket rfl rest
  | cons value others =>
      rw [elementPieces, List.cons_append, List.cons_append, written_cons, utf8_comma]
      exact endsNumber_cons rfl _

theorem endsNumber_members (style : Style) (depth outer : Nat) (others : List (String × Value))
    (rest : List UInt8) :
    EndsNumber
      (written (memberPieces style depth others ++ [style.gap outer, "\x7d"]) ++ rest) := by
  cases others with
  | nil => exact endsNumber_closing style outer utf8_closeBrace rfl rest
  | cons member others =>
      obtain ⟨key, value⟩ := member
      rw [memberPieces, List.cons_append, List.cons_append, written_cons, utf8_comma]
      exact endsNumber_cons rfl _

section Punctuation

theorem lexes_comma : LexesClosed (Text.utf8 ",") [.comma] :=
  lexes_punctuation rfl rfl

theorem lexes_openBracket : LexesClosed (Text.utf8 "[") [.openBracket] :=
  lexes_punctuation rfl rfl

theorem lexes_openBrace : LexesClosed (Text.utf8 "\x7b") [.openBrace] :=
  lexes_punctuation rfl rfl

end Punctuation

mutual

/-- A value is read as its tokens. The recursion is that of its pieces. -/
theorem lexes_pieces (style : Style) (depth : Nat) :
    ∀ value : Value, Lexes (written (value.pieces style depth)) value.tokens
  | .null => by
    have htext : Text.utf8 "null" = 0x6e :: [0x75, 0x6c, 0x6c] := rfl
    rw [Value.pieces, written_singleton]
    exact (lexes_name htext (by simp [names])).lexes
  | .bool true => by
    have htext : Text.utf8 "true" = 0x74 :: [0x72, 0x75, 0x65] := rfl
    rw [Value.pieces, written_singleton]
    exact (lexes_name htext (by simp [names])).lexes
  | .bool false => by
    have htext : Text.utf8 "false" = 0x66 :: [0x61, 0x6c, 0x73, 0x65] := rfl
    rw [Value.pieces, written_singleton]
    exact (lexes_name htext (by simp [names])).lexes
  | .number value => by
    rw [Value.pieces, written_singleton]
    exact lexes_number value
  | .string value => by
    rw [Value.pieces, written_singleton]
    exact (lexes_quote value).lexes
  | .array [] => by
    have hclosing : LexesClosed [0x5d] [.closeBracket] := lexes_punctuation rfl rfl
    rw [Value.pieces, written_singleton]
    exact lexes_openBracket.append hclosing.lexes
  | .array (first :: others) => by
    have hfirst := lexes_pieces style (depth + 1) first
    have hothers := lexes_elements style (depth + 1) depth others
    have hends := endsNumber_elements style (depth + 1) depth others
    rw [Value.pieces, List.append_assoc, List.cons_append, List.cons_append, written_cons,
      written_cons, written_append]
    exact lexes_openBracket.append
      ((lexes_gap style (depth + 1)).append (hfirst.append hothers fun rest _ => hends rest))
  | .object [] => by
    have hclosing : LexesClosed [0x7d] [.closeBrace] := lexes_punctuation rfl rfl
    rw [Value.pieces, written_singleton]
    exact lexes_openBrace.append hclosing.lexes
  | .object ((key, value) :: others) => by
    have hvalue := lexes_pieces style (depth + 1) value
    have hothers := lexes_members style (depth + 1) depth others
    have hends := endsNumber_members style (depth + 1) depth others
    rw [Value.pieces, List.append_assoc, List.cons_append, List.cons_append, List.cons_append,
      List.cons_append, written_cons, written_cons, written_cons, written_cons, written_append]
    exact lexes_openBrace.append ((lexes_gap style (depth + 1)).append ((lexes_quote key).append
      ((lexes_colon style).append (hvalue.append hothers fun rest _ => hends rest))))

theorem lexes_elements (style : Style) (depth outer : Nat) :
    ∀ others : List Value, Lexes
      (written (elementPieces style depth others ++ [style.gap outer, "]"])) (elementTokens others)
  | [] => lexes_closing style outer utf8_closeBracket rfl rfl
  | value :: others => by
    have hvalue := lexes_pieces style depth value
    have hothers := lexes_elements style depth outer others
    have hends := endsNumber_elements style depth outer others
    rw [elementPieces, List.append_assoc, List.cons_append, List.cons_append, written_cons,
      written_cons, written_append]
    exact lexes_comma.append
      ((lexes_gap style depth).append (hvalue.append hothers fun rest _ => hends rest))

theorem lexes_members (style : Style) (depth outer : Nat) :
    ∀ others : List (String × Value), Lexes
      (written (memberPieces style depth others ++ [style.gap outer, "\x7d"])) (memberTokens others)
  | [] => lexes_closing style outer utf8_closeBrace rfl rfl
  | (key, value) :: others => by
    have hvalue := lexes_pieces style depth value
    have hothers := lexes_members style depth outer others
    have hends := endsNumber_members style depth outer others
    rw [memberPieces, List.append_assoc, List.cons_append, List.cons_append, List.cons_append,
      List.cons_append, written_cons, written_cons, written_cons, written_cons, written_append]
    exact lexes_comma.append ((lexes_gap style depth).append ((lexes_quote key).append
      ((lexes_colon style).append (hvalue.append hothers fun rest _ => hends rest))))

end

/-- The tokens of a text are those of the value it was written from, in either
style. -/
theorem tokens?_render (style : Style) (value : Value) :
    tokens? (Text.utf8 (value.render style)) = some value.tokens := by
  have hlexes := lexes_pieces style 0 value [] endsNumber_nil
  rw [List.append_nil, tokens?.eq_1, Option.map_some, List.append_nil] at hlexes
  rw [Value.render, Text.utf8_join]
  exact hlexes

end HypervisorTrace.Json
