import HypervisorTrace.Export.Reading
import HypervisorTrace.Proofs.Json.Nesting
import HypervisorTrace.Proofs.Table.Keys

/-!
Exports that are written and read again. The node of an object gives for every
field the node of the member with that key, if there is one, so an export is
read back member by member, and a description that is absent is told from an
empty one by its key.
-/

namespace HypervisorTrace

/-- A list on which a partial function is the same as a total one. -/
theorem mapM_eq_some_map {α β : Type} {partial? : α → Option β} {total : α → β} {values : List α}
    (hsame : ∀ value ∈ values, partial? value = some (total value)) :
    values.mapM partial? = some (values.map total) := by
  induction values with
  | nil => rfl
  | cons value others ih =>
      have hothers := ih fun other hother => hsame other (List.mem_cons_of_mem value hother)
      rw [List.mapM_cons, hsame value List.mem_cons_self, hothers]
      rfl

namespace Json

open Node

theorem string?_node (text : String) : (Value.string text).node.string? = some text :=
  text?_body text

theorem bool?_node (value : Bool) : (Value.bool value).node.bool? = some value := rfl

theorem whole?_node {least greatest value : Int} (hleast : least ≤ value)
    (hgreatest : value ≤ greatest) :
    (Value.number value).node.whole? least greatest = some value := by
  rw [Value.node, Node.whole?, whole?_lexeme, Option.filter_some, if_pos]
  rw [decide_eq_true hleast, decide_eq_true hgreatest]
  rfl

theorem natural?_node {bound number : Nat} (hbound : number < bound) :
    (Value.number number).node.natural? bound = some number := by
  rw [natural?, whole?_node (by omega) (by omega)]
  rfl

theorem array?_node (elements : List Value) :
    (Value.array elements).node.array? = some (elements.map Value.node) := by
  rw [Value.node, elementNodes_eq_map, array?]

/-- The fields of an object that was written with every key once. -/
theorem fieldValues?_node {members : Table String Value} (hnodup : members.keys.Nodup)
    (fields : List String) :
    (Value.object members).node.fieldValues? fields =
      some (fields.map fun field => (members.get? field).map Value.node) := by
  have hnamed (member : String × Value) :
      (text? (body member.1)).map (·, member.2.node) = some (member.1, member.2.node) := by
    rw [text?_body]
    rfl
  have hkeys : (members.mapValues Value.node).keys.Nodup := by
    rwa [Table.keys_mapValues]
  rw [Value.node, fieldValues?, memberNodes_eq_map, List.mapM_map]
  refine (congrArg (Option.bind · _) (mapM_eq_some_map fun member _ => hnamed member)).trans ?_
  apply mapM_eq_some_map
  intro field _
  have hfield := Table.filter_eq_toList hkeys field
  rw [Table.mapValues] at hfield
  rw [hfield, ← Table.mapValues, Table.get?_mapValues]
  cases members.get? field <;> rfl

end Json

open Json

namespace ExportedRecord

variable (record : ExportedRecord)

/-- The fields of a record: all of them are there, but perhaps not the last. -/
theorem fieldValues?_toJson :
    record.toJson.node.fieldValues? fields = some
      [some (Value.number record.index.toNat).node, some (Value.number record.cpu.toNat).node,
        some (Value.number record.time.toInt).node, some (Value.string record.task).node,
        some (Value.number record.pid.toInt).node, some (Value.string record.eventId).node,
        some (Value.string record.name).node,
        record.info.map fun info => (Value.string info).node] := by
  obtain ⟨index, cpu, time, task, pid, eventId, name, info⟩ := record
  rw [toJson]
  cases info with
  | none =>
      rw [fieldValues?_node (by simp [Table.keys])]
      simp [fields, Table.get?]
  | some info =>
      rw [fieldValues?_node (by simp [Table.keys])]
      simp [fields, Table.get?]

theorem info?_map (info : Option String) :
    info? (info.map fun info => (Value.string info).node) = some info := by
  cases info with
  | none => rfl
  | some info => exact congrArg (Option.map some) (string?_node info)

theorem ofNode?_toJson : ofNode? record.toJson.node = some record := by
  have hindex := natural?_node record.index.toNat_lt_size
  have hcpu := natural?_node record.cpu.toNat_lt_size
  have htime := whole?_node record.time.minValue_le_toInt record.time.toInt_le
  have hpid := whole?_node record.pid.minValue_le_toInt record.pid.toInt_le
  rw [ofNode?, fieldValues?_toJson]
  simp only [Option.bind_eq_bind, Option.bind_some, hindex, hcpu, htime, hpid, string?_node,
    info?_map, UInt64.ofNat_toNat, UInt16.ofNat_toNat, Int64.ofInt_toInt, Int32.ofInt_toInt]
  rfl

end ExportedRecord

namespace Export

variable (trace : Export)

theorem fieldValues?_toJson :
    trace.toJson.node.fieldValues? fields = some
      [some (Value.string trace.version).node, some (Value.string trace.format).node,
        some (Value.string trace.generatedAt).node, some (Value.number trace.cpuHz.toNat).node,
        some (Value.bool trace.absolute).node, some (Value.number trace.cpuCount.toNat).node,
        some (Value.number trace.recordCount.toNat).node,
        some (Value.array (trace.records.map ExportedRecord.toJson)).node] := by
  rw [toJson, fieldValues?_node (by simp [Table.keys])]
  simp [fields, Table.get?]

theorem ofNode?_toJson : ofNode? trace.toJson.node = some trace := by
  have hcpuHz := natural?_node trace.cpuHz.toNat_lt_size
  have hcpuCount := natural?_node trace.cpuCount.toNat_lt_size
  have hrecordCount := natural?_node trace.recordCount.toNat_lt_size
  have hrecords : ((trace.records.map ExportedRecord.toJson).map Value.node).mapM
      ExportedRecord.ofNode? = some trace.records := by
    rw [List.map_map, List.mapM_map, mapM_eq_some_map fun record _ => record.ofNode?_toJson,
      List.map_id']
  rw [ofNode?, fieldValues?_toJson]
  simp only [Option.bind_eq_bind, Option.bind_some, hcpuHz, hcpuCount, hrecordCount, hrecords,
    string?_node, bool?_node, array?_node, UInt64.ofNat_toNat]
  rfl

/-- An export is read back from its text. -/
theorem ofBytes?_render : ofBytes? (Text.utf8 trace.render) = some trace := by
  rw [ofBytes?, render, Json.ofBytes?_render, Option.bind_some, ofNode?_toJson]

end Export

end HypervisorTrace
