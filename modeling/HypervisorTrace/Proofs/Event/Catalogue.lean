import HypervisorTrace.Event.Catalogue
import HypervisorTrace.Proofs.Word.Fields

/-!
What a lookup finds. The table that the class and the subclass of an id select
is a part of the whole catalogue, so what is looked up is a definition of the
catalogue with the id sought. A property of every recognized event can
therefore be checked definition by definition.

Conversely every definition is found under its own id, and no two have the same
id. So a lookup, which searches one table, finds what a search through the
whole catalogue finds.
-/

namespace HypervisorTrace.Event.Catalogue

private theorem mem_shadow_of_mem_table {id : Word} {definition : Definition}
    (hmem : definition ∈ Shadow.table id) : definition ∈ Shadow.pairs.flatten := by
  unfold Shadow.table at hmem
  split at hmem
  · exact absurd hmem List.not_mem_nil
  · rename_i number _
    cases hpair : Shadow.pairs[number]? with
    | none =>
        rw [List.getD_eq_getElem?_getD, hpair] at hmem
        exact absurd hmem List.not_mem_nil
    | some pair =>
        rw [List.getD_eq_getElem?_getD, hpair] at hmem
        exact List.mem_flatten_of_mem (List.mem_of_getElem? hpair) hmem

theorem mem_all_of_mem_table {id : Word} {definition : Definition}
    (hmem : definition ∈ table id) : definition ∈ all := by
  unfold table at hmem
  cases hclass : Class.ofId id <;> rw [hclass] at hmem <;> dsimp only at hmem
  case generic => simp [all, hmem]
  case scheduler =>
    unfold Scheduler.table Scheduler.algorithmTable at hmem
    split_ifs at hmem <;> first
      | exact absurd hmem List.not_mem_nil
      | simp [all, hmem]
  case domain =>
    unfold Domain.table at hmem
    split_ifs at hmem <;> first
      | exact absurd hmem List.not_mem_nil
      | simp [all, hmem]
  case hvm =>
    unfold Hvm.table at hmem
    split_ifs at hmem <;> first
      | exact absurd hmem List.not_mem_nil
      | simp [all, hmem]
  case memory => simp [all, hmem]
  case paravirtual =>
    unfold Paravirtual.table at hmem
    split_ifs at hmem <;> first
      | exact absurd hmem List.not_mem_nil
      | simp [all, hmem]
  case shadow =>
    have hpair := mem_shadow_of_mem_table hmem
    unfold all
    simp only [List.mem_append, hpair, true_or, or_true]
  case hardware =>
    unfold Hardware.table at hmem
    split_ifs at hmem <;> first
      | exact absurd hmem List.not_mem_nil
      | simp [all, hmem]
  case unknown => exact absurd hmem List.not_mem_nil

theorem mem_all_of_lookup {word : Word} {definition : Definition}
    (hlookup : lookup word = some definition) :
    definition ∈ all ∧ definition.id = Id.number word := by
  have hmem := List.mem_of_find?_eq_some hlookup
  have hid := List.find?_some hlookup
  exact ⟨mem_all_of_mem_table hmem, beq_iff_eq.mp hid⟩

/-- The ids of the catalogue are distinct. -/
theorem ids_nodup : (all.map (·.id)).Nodup := by
  -- Numbers are compared much faster than words.
  have hnumbers : ((all.map (·.id)).map UInt32.toNat).Nodup := by
    decide +kernel
  exact List.Nodup.of_map _ hnumbers

/-- An id of the catalogue has 28 bits, and the table that it selects lists
it. -/
theorem isSome_lookup_of_mem_all :
    ∀ definition ∈ all, Id.number definition.id = definition.id ∧
      (lookup definition.id).isSome := by
  decide +kernel

theorem lookup_of_mem_all {definition : Definition} (hmem : definition ∈ all) :
    lookup definition.id = some definition := by
  obtain ⟨hnumber, hsome⟩ := isSome_lookup_of_mem_all definition hmem
  obtain ⟨found, hfound⟩ := Option.isSome_iff_exists.mp hsome
  obtain ⟨hlisted, hid⟩ := mem_all_of_lookup hfound
  rw [hnumber] at hid
  rw [hfound, List.inj_on_of_nodup_map ids_nodup hlisted hmem hid]

theorem lookup_number (word : Word) : lookup (Id.number word) = lookup word := by
  rw [lookup, lookup, Id.number_number]

theorem lookup_eq_some_iff {word : Word} {definition : Definition} :
    lookup word = some definition ↔ definition ∈ all ∧ definition.id = Id.number word := by
  constructor
  · exact mem_all_of_lookup
  · rintro ⟨hmem, hid⟩
    rw [← lookup_number, ← hid]
    exact lookup_of_mem_all hmem

theorem isSome_lookup_iff {word : Word} :
    (lookup word).isSome ↔ ∃ definition ∈ all, definition.id = Id.number word := by
  simp only [Option.isSome_iff_exists, lookup_eq_some_iff]

theorem info_eq_unrecognized_iff {word : Word} {payload : Payload} :
    info word payload = .unrecognized ↔ ¬ (lookup word).isSome := by
  rw [info]
  cases lookup word with
  | none => simp
  | some definition =>
      cases hlayout : definition.layout <;> simp [Definition.info, hlayout]

theorem isNone_name?_iff {word : Word} (payload : Payload) :
    (name? word).isNone ↔ info word payload = .unrecognized := by
  rw [info_eq_unrecognized_iff, name?, Option.isNone_map, Option.not_isSome_iff_eq_none,
    Option.isNone_iff_eq_none]

theorem ofId_number (word : Word) : Class.ofId (Id.number word) = Class.ofId word := by
  have hfield : Id.classField (Id.number word) = Id.classField word := by
    apply UInt32.toNat_inj.mp
    rw [Id.classField, Id.classField, Word.toNat_and_eq_mod _ _ 12 rfl,
      Word.toNat_and_eq_mod _ _ 12 rfl, Word.toNat_shiftRight_eq_div _ _ 16 rfl,
      Word.toNat_shiftRight_eq_div _ _ 16 rfl, Id.toNat_number]
    omega
  rw [Class.ofId, hfield, Class.ofId]

/-- No event of the unknown class is recognized. -/
theorem lookup_of_unknown {word : Word} (hclass : Class.ofId word = .unknown) :
    lookup word = none := by
  rw [lookup, table, ofId_number, hclass]
  rfl

/-- Whether the catalogue has a definition with the id in the lower 28 bits of
a word. -/
def Lists (word : Word) : Prop :=
  ∃ definition ∈ all, definition.id = word &&& 0x0fffffff

/-- Of the whole catalogue the definitions with the id in a word are the one
that is looked up in a single table, or there are none and the lookup finds
none. So a name, a number of extra words and a description are there for the
ids of the catalogue and for no others. -/
theorem lookup_finds_what_is_listed (word : Word) :
    (all.filter fun definition => definition.id = word &&& 0x0fffffff) =
        (lookup word).toList ∧
      ((name? word).isSome ↔ Lists word) ∧ ((words? word).isSome ↔ Lists word) ∧
      ∀ payload, (info word payload ≠ .unrecognized ↔ Lists word) := by
  have hlists : (lookup word).isSome ↔ Lists word := isSome_lookup_iff
  refine ⟨?_, ?_, ?_, ?_⟩
  · -- Two lists without repetitions that have the same elements, and the second
    -- is too short to have them in another order.
    have hnodup : (all.filter fun definition =>
        definition.id = word &&& 0x0fffffff).Nodup :=
      (List.Nodup.of_map _ ids_nodup).filter _
    have hmem (definition : Definition) :
        definition ∈ (all.filter fun definition => definition.id = word &&& 0x0fffffff) ↔
          lookup word = some definition := by
      simp only [List.mem_filter, decide_eq_true_eq, lookup_eq_some_iff, Id.number]
    cases hlookup : lookup word with
    | none =>
        rw [Option.toList_none, List.eq_nil_iff_forall_not_mem]
        intro definition hlisted
        simp [hmem, hlookup] at hlisted
    | some found =>
        rw [Option.toList_some, ← List.perm_singleton,
          List.perm_ext_iff_of_nodup hnodup (List.nodup_singleton found)]
        intro definition
        simp [hmem, hlookup, eq_comm]
  · rw [name?, Option.isSome_map, hlists]
  · rw [words?, Option.isSome_map, hlists]
  · intro payload
    rw [Ne, info_eq_unrecognized_iff, not_not, hlists]

end HypervisorTrace.Event.Catalogue
