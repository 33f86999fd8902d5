import HypervisorTrace.Export
import HypervisorTrace.Text
import Mathlib.Tactic

/-!
The size of JSON text that is written over several lines. Every member of an
object and every element of an array stands on lines of its own, behind an
indent and, in an object, behind a quoted key and a colon. So the size of an
object is bounded below by the number of its members, and the size of an array
by the number of its elements, whatever their values are. The text of an export
grows with its records, and it is produced in pieces, none of which is all of
it.
-/

namespace HypervisorTrace

theorem Text.utf8_join (pieces : List String) :
    Text.utf8 (String.join pieces) = (pieces.map Text.utf8).flatten := by
  induction pieces with
  | nil => rfl
  | cons piece rest ih =>
      rw [String.join_cons, Text.utf8_append, ih, List.map_cons, List.flatten_cons]

namespace Json

/-- The number of bytes of some pieces together. -/
def size (pieces : List String) : Nat :=
  (pieces.map Text.utf8).flatten.length

@[simp] theorem size_nil : size [] = 0 := rfl

@[simp] theorem size_cons (piece : String) (rest : List String) :
    size (piece :: rest) = (Text.utf8 piece).length + size rest := by
  rw [size, List.map_cons, List.flatten_cons, List.length_append, size]

@[simp] theorem size_append (first second : List String) :
    size (first ++ second) = size first + size second := by
  rw [size, List.map_append, List.flatten_append, List.length_append, size, size]

theorem length_le_size {piece : String} {pieces : List String} (hpiece : piece ∈ pieces) :
    (Text.utf8 piece).length ≤ size pieces := by
  obtain ⟨front, back, rfl⟩ := List.append_of_mem hpiece
  rw [size_append, size_cons]
  omega

theorem length_utf8_render (style : Style) (value : Value) :
    (Text.utf8 (value.render style)).length = size (value.pieces style 0) := by
  rw [Value.render, Text.utf8_join, size]

theorem length_gap (depth : Nat) : (Text.utf8 (Style.pretty.gap depth)).length = 2 * depth + 1 := by
  have hspaces : (Text.utf8 (Text.run (2 * depth) ' ')).length = 2 * depth := by
    rw [Text.run, Text.utf8, String.toList_ofList, List.flatMap_replicate, List.length_flatten,
      List.map_replicate, List.sum_replicate_nat]
    exact Nat.mul_one _
  have hnewline : (Text.utf8 "\n").length = 1 := by decide
  rw [Style.gap, Text.utf8_append, List.length_append, hspaces, hnewline, Nat.add_comm]

theorem two_le_length_quote (text : String) : 2 ≤ (Text.utf8 (quote text)).length := by
  have hopening : (Text.utf8 "\"").length = 1 := by decide
  rw [quote, Text.utf8_append, Text.utf8_append, List.length_append, List.length_append, hopening]
  omega

theorem length_colon : (Text.utf8 Style.pretty.colon).length = 2 := by
  decide

theorem length_comma : (Text.utf8 ",").length = 1 := by
  decide

/-- Every member after the first takes a comma, a line with an indent, a quoted
key and a colon. -/
theorem le_size_memberPieces (depth : Nat) (members : List (String × Value)) :
    (2 * depth + 6) * members.length ≤ size (memberPieces .pretty depth members) := by
  induction members with
  | nil => exact Nat.zero_le _
  | cons member rest ih =>
      obtain ⟨key, value⟩ := member
      have hquote := two_le_length_quote key
      simp only [memberPieces, List.cons_append, size_cons, size_append, length_comma, length_gap,
        length_colon, List.length_cons]
      linarith

theorem le_size_elementPieces {depth least : Nat} {values : List Value}
    (hleast : ∀ value ∈ values, least ≤ size (value.pieces .pretty depth)) :
    (2 * depth + 2 + least) * values.length ≤ size (elementPieces .pretty depth values) := by
  induction values with
  | nil => exact Nat.zero_le _
  | cons value rest ih =>
      have hvalue := hleast value List.mem_cons_self
      have hrest := ih fun other hother => hleast other (List.mem_cons_of_mem value hother)
      simp only [elementPieces, List.cons_append, size_cons, size_append, length_comma, length_gap,
        List.length_cons]
      linarith

/-- An object as an element or a member: what all its members take, and a line
for its end. -/
theorem le_size_object {depth : Nat} {members : List (String × Value)} (hsome : members ≠ []) :
    (2 * depth + 8) * members.length + 2 * depth + 2 ≤
      size ((Value.object members).pieces .pretty depth) := by
  obtain ⟨⟨key, value⟩, others, rfl⟩ := List.exists_cons_of_ne_nil hsome
  have hquote := two_le_length_quote key
  have hothers := le_size_memberPieces (depth + 1) others
  have hopening : (Text.utf8 "\x7b").length = 1 := by decide
  have hclosing : (Text.utf8 "\x7d").length = 1 := by decide
  simp only [Value.pieces, List.cons_append, size_cons, size_append, size_nil, length_gap,
    length_colon, List.length_cons, hopening, hclosing]
  linarith

/-- No piece of an object with members is all of it. -/
theorem length_lt_size_object {depth : Nat} {members : List (String × Value)}
    (hsome : members ≠ []) {piece : String}
    (hpiece : piece ∈ (Value.object members).pieces .pretty depth) :
    (Text.utf8 piece).length < size ((Value.object members).pieces .pretty depth) := by
  have hsize := @le_size_object depth _ hsome
  obtain ⟨⟨key, value⟩, others, rfl⟩ := List.exists_cons_of_ne_nil hsome
  have hopening : (Text.utf8 "\x7b").length = 1 := by decide
  simp only [Value.pieces, List.cons_append] at hsize hpiece ⊢
  rcases List.mem_cons.mp hpiece with rfl | hrest
  · rw [hopening]
    omega
  · have hlength := length_le_size hrest
    rw [size_cons "\x7b", hopening]
    omega

theorem le_size_array {depth least : Nat} {values : List Value}
    (hleast : ∀ value ∈ values, least ≤ size (value.pieces .pretty (depth + 1))) :
    (2 * depth + 4 + least) * values.length ≤
      size ((Value.array values).pieces .pretty depth) := by
  cases values with
  | nil => exact Nat.zero_le _
  | cons first others =>
      have hfirst := hleast first List.mem_cons_self
      have hothers := le_size_elementPieces fun other hother =>
        hleast other (List.mem_cons_of_mem first hother)
      have hopening : (Text.utf8 "[").length = 1 := by decide
      simp only [Value.pieces, List.cons_append, size_cons, size_append, length_gap,
        List.length_cons, hopening]
      linarith

theorem size_le_memberPieces {depth : Nat} {members : List (String × Value)} {key : String}
    {value : Value} (hmember : (key, value) ∈ members) :
    size (value.pieces .pretty depth) ≤ size (memberPieces .pretty depth members) := by
  induction members with
  | nil => cases hmember
  | cons member rest ih =>
      obtain ⟨other, held⟩ := member
      simp only [memberPieces, List.cons_append, size_cons, size_append]
      rcases List.mem_cons.mp hmember with hfirst | hrest
      · obtain ⟨rfl, rfl⟩ := Prod.mk.inj hfirst
        omega
      · have hvalue := ih hrest
        omega

/-- An object is larger than what it holds. -/
theorem size_lt_object {depth : Nat} {members : List (String × Value)} {key : String}
    {value : Value} (hmember : (key, value) ∈ members) :
    size (value.pieces .pretty (depth + 1)) <
      size ((Value.object members).pieces .pretty depth) := by
  obtain ⟨⟨firstKey, first⟩, others, rfl⟩ :=
    List.exists_cons_of_ne_nil (List.ne_nil_of_mem hmember)
  simp only [Value.pieces, List.cons_append, size_cons, size_append, length_colon]
  rcases List.mem_cons.mp hmember with hfirst | hothers
  · obtain ⟨rfl, rfl⟩ := Prod.mk.inj hfirst
    omega
  · have hvalue := @size_le_memberPieces (depth + 1) _ _ _ hothers
    omega

end Json

theorem ExportedRecord.le_size_toJson (record : ExportedRecord) (depth : Nat) :
    (2 * depth + 8) * 7 + 2 * depth + 2 ≤ Json.size (record.toJson.pieces .pretty depth) := by
  refine le_trans ?_ (Json.le_size_object (List.cons_ne_nil _ _))
  gcongr
  rw [List.length_append]
  exact Nat.le_add_right 7 _

/-- Every record takes at least 96 bytes in the text of an export. -/
theorem Export.lt_length_render (trace : Export) :
    96 * trace.records.length < (Text.utf8 trace.render).length := by
  have hrecords := @Json.le_size_array 1 90 (trace.records.map ExportedRecord.toJson) (by
    intro value hvalue
    obtain ⟨record, -, rfl⟩ := List.mem_map.mp hvalue
    exact record.le_size_toJson 2)
  rw [List.length_map] at hrecords
  rw [render, Json.length_utf8_render]
  refine Nat.lt_of_le_of_lt hrecords (@Json.size_lt_object 0 _ "records" _ ?_)
  simp

/-- The pieces in which the text of an export is produced, as bytes. -/
def Export.pieces (trace : Export) : List (List UInt8) :=
  (trace.toJson.pieces .pretty 0).map Text.utf8

theorem Export.flatten_pieces (trace : Export) :
    trace.pieces.flatten = Text.utf8 trace.render := by
  rw [render, Json.Value.render, Text.utf8_join, pieces]

theorem Export.length_lt_of_mem_pieces {trace : Export} {piece : List UInt8}
    (hpiece : piece ∈ trace.pieces) : piece.length < (Text.utf8 trace.render).length := by
  obtain ⟨text, htext, rfl⟩ := List.mem_map.mp hpiece
  rw [render, Json.length_utf8_render]
  exact Json.length_lt_size_object (List.cons_ne_nil _ _) htext

end HypervisorTrace
