import HypervisorTrace.Json.Node
import HypervisorTrace.Proofs.Json.Lexing

/-!
The nodes of a value that is written out. Reading uses up exactly the tokens of
the value, and it takes fewer steps than there are tokens: a node takes a step
more than what it holds, and its own bracket pays for that step.
-/

namespace HypervisorTrace.Json

mutual

/-- The node that a value is read back as. -/
def Value.node : Value → Node
  | .null => .null
  | .bool value => .bool value
  | .number value => .number (lexeme value)
  | .string value => .string (body value)
  | .array elements => .array (elementNodes elements)
  | .object members => .object (memberNodes members)

def elementNodes : List Value → List Node
  | [] => []
  | value :: others => value.node :: elementNodes others

def memberNodes : List (String × Value) → List (List UInt8 × Node)
  | [] => []
  | (key, value) :: others => (body key, value.node) :: memberNodes others

end

theorem elementNodes_eq_map (values : List Value) :
    elementNodes values = values.map Value.node := by
  induction values with
  | nil => rfl
  | cons value others ih => rw [elementNodes, ih, List.map_cons]

theorem memberNodes_eq_map (members : List (String × Value)) :
    memberNodes members = members.map fun member => (body member.1, member.2.node) := by
  induction members with
  | nil => rfl
  | cons member others ih => rw [memberNodes, ih, List.map_cons]

theorem elementTokens_pos (others : List Value) : 0 < (elementTokens others).length := by
  cases others <;> exact Nat.succ_pos _

theorem memberTokens_pos (others : List (String × Value)) :
    0 < (memberTokens others).length := by
  cases others <;> exact Nat.succ_pos _

/-- A value does not start with the bracket that would close an array before it. -/
theorem tokens_ne_closeBracket (value : Value) (rest later : List Token) :
    value.tokens ++ rest ≠ .closeBracket :: later := by
  intro hsame
  cases value with
  | null | bool value | number value | string value => cases hsame
  | array elements => cases elements <;> cases hsame
  | object members => cases members <;> cases hsame

mutual

/-- With more steps than tokens a value is read back, and what follows it is
left. The recursion is that of its tokens. -/
theorem takeNode_tokens : ∀ (value : Value) {fuel : Nat} (rest : List Token),
    value.tokens.length < fuel → takeNode fuel (value.tokens ++ rest) = some (value.node, rest)
  | value, 0, rest, hfuel => absurd hfuel (Nat.not_lt_zero _)
  | .null, fuel + 1, rest, _ => rfl
  | .bool _, fuel + 1, rest, _ => rfl
  | .number _, fuel + 1, rest, _ => rfl
  | .string _, fuel + 1, rest, _ => rfl
  | .array [], fuel + 1, rest, _ => rfl
  | .array (first :: others), fuel + 1, rest, hfuel => by
    have hpositive := elementTokens_pos others
    rw [Value.tokens, List.length_cons, List.length_append] at hfuel
    obtain ⟨steps, rfl⟩ : ∃ steps, fuel = steps + 1 := ⟨fuel - 1, by omega⟩
    have hfirst := takeNode_tokens first (elementTokens others ++ rest)
      (show first.tokens.length < steps by omega)
    have helements := takeElements_tokens others hfirst (by omega)
    have hopen := tokens_ne_closeBracket first (elementTokens others ++ rest)
    rw [Value.tokens, List.cons_append, List.append_assoc, takeNode.eq_7 _ _ hopen, helements]
    rfl
  | .object [], fuel + 1, rest, _ => rfl
  | .object ((key, value) :: others), fuel + 1, rest, hfuel => by
    have hpositive := memberTokens_pos others
    rw [Value.tokens, List.length_cons, List.length_cons, List.length_cons,
      List.length_append] at hfuel
    obtain ⟨steps, rfl⟩ : ∃ steps, fuel = steps + 1 := ⟨fuel - 1, by omega⟩
    have hvalue := takeNode_tokens value (memberTokens others ++ rest)
      (show value.tokens.length < steps by omega)
    have hmembers := @takeMembers_tokens others steps _ rest (body key) _ hvalue (by omega)
    have hopen (later : List Token) : Token.string (body key) :: .colon ::
        (value.tokens ++ (memberTokens others ++ rest)) ≠ .closeBrace :: later := nofun
    rw [Value.tokens, List.cons_append, List.cons_append, List.cons_append, List.append_assoc,
      takeNode.eq_9 _ _ hopen, hmembers]
    rfl

/-- The elements of an array, once the first is taken. -/
theorem takeElements_tokens : ∀ (others : List Value) {fuel : Nat} {tokens rest : List Token}
    {node : Node}, takeNode fuel tokens = some (node, elementTokens others ++ rest) →
    (elementTokens others).length ≤ fuel →
    takeElements (fuel + 1) tokens = some (node :: elementNodes others, rest)
  | [], fuel, tokens, rest, node, hfirst, _ => by
    rw [takeElements, hfirst]
    rfl
  | value :: others, fuel, tokens, rest, node, hfirst, hfuel => by
    have hpositive := elementTokens_pos others
    rw [elementTokens, List.length_cons, List.length_append] at hfuel
    obtain ⟨steps, rfl⟩ : ∃ steps, fuel = steps + 1 := ⟨fuel - 1, by omega⟩
    have hvalue := takeNode_tokens value (elementTokens others ++ rest)
      (show value.tokens.length < steps by omega)
    have hothers := takeElements_tokens others hvalue (by omega)
    rw [takeElements, hfirst, elementTokens, List.cons_append, List.append_assoc]
    dsimp only
    rw [hothers]
    rfl

/-- The members of an object, once the value of the first is taken. -/
theorem takeMembers_tokens : ∀ (others : List (String × Value)) {fuel : Nat}
    {tokens rest : List Token} {key : List UInt8} {node : Node},
    takeNode fuel tokens = some (node, memberTokens others ++ rest) →
    (memberTokens others).length ≤ fuel →
    takeMembers (fuel + 1) (.string key :: .colon :: tokens) =
      some ((key, node) :: memberNodes others, rest)
  | [], fuel, tokens, rest, key, node, hfirst, _ => by
    rw [takeMembers, hfirst]
    rfl
  | (key, value) :: others, fuel, tokens, rest, first, node, hfirst, hfuel => by
    have hpositive := memberTokens_pos others
    rw [memberTokens, List.length_cons, List.length_cons, List.length_cons,
      List.length_append] at hfuel
    obtain ⟨steps, rfl⟩ : ∃ steps, fuel = steps + 1 := ⟨fuel - 1, by omega⟩
    have hvalue := takeNode_tokens value (memberTokens others ++ rest)
      (show value.tokens.length < steps by omega)
    have hothers := @takeMembers_tokens others steps _ rest (body key) _ hvalue (by omega)
    rw [takeMembers, hfirst, memberTokens, List.cons_append, List.cons_append, List.cons_append,
      List.append_assoc]
    dsimp only
    rw [hothers]
    rfl

end

/-- A value that is written out, in either style, is read back as its node. -/
theorem ofBytes?_render (style : Style) (value : Value) :
    Node.ofBytes? (Text.utf8 (value.render style)) = some value.node := by
  have hnode := takeNode_tokens value [] (Nat.lt_succ_self value.tokens.length)
  rw [List.append_nil] at hnode
  rw [Node.ofBytes?, tokens?_render]
  dsimp only
  rw [hnode]

end HypervisorTrace.Json
