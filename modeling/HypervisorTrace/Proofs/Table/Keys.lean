import HypervisorTrace.Table
import Mathlib.Tactic

/-!
The keys of a table. No operation lists a key twice, and a table that lists
every key once is as good as the function from keys to values that it stands
for.
-/

namespace HypervisorTrace

namespace Table

variable {Key Value : Type} [DecidableEq Key] {table : Table Key Value}

def keys (table : Table Key Value) : List Key :=
  table.map Prod.fst

theorem mem_keys_set (key other : Key) (value : Value) :
    other ∈ (set table key value).keys ↔ other ∈ table.keys ∨ other = key := by
  induction table with
  | nil => simp [set, keys]
  | cons first rest ih =>
      obtain ⟨listed, former⟩ := first
      by_cases hfound : key = listed
      · simp only [set, hfound, if_true, keys, List.map_cons, List.mem_cons]
        tauto
      · simp only [keys] at ih
        simp only [set, hfound, if_false, keys, List.map_cons, List.mem_cons, ih]
        tauto

theorem nodup_keys_set (hnodup : table.keys.Nodup) (key : Key) (value : Value) :
    (set table key value).keys.Nodup := by
  induction table with
  | nil => exact List.nodup_singleton key
  | cons first rest ih =>
      obtain ⟨listed, former⟩ := first
      obtain ⟨hlisted, hrest⟩ := List.nodup_cons.mp hnodup
      by_cases hfound : key = listed
      · simpa only [set, hfound, if_true, keys, List.map_cons] using hnodup
      · simp only [set, hfound, if_false]
        refine List.nodup_cons.mpr ⟨?_, ih hrest⟩
        intro hmem
        rcases (mem_keys_set key listed value).mp hmem with hmem | hsame
        · exact hlisted hmem
        · exact hfound hsame.symm

theorem mem_iff_get? (hnodup : table.keys.Nodup) {key : Key} {value : Value} :
    (key, value) ∈ table ↔ get? table key = some value := by
  induction table with
  | nil => simp
  | cons first rest ih =>
      obtain ⟨listed, former⟩ := first
      obtain ⟨hlisted, hrest⟩ := List.nodup_cons.mp hnodup
      by_cases hfound : key = listed
      · subst hfound
        have hnone : (key, value) ∉ rest := by
          intro hmem
          exact hlisted (List.mem_map.mpr ⟨_, hmem, rfl⟩)
        simp [get?, hnone, eq_comm]
      · simp [get?, hfound, ih hrest]

/-- What a table lists under a key is the value of the key, if it has one. -/
theorem filter_eq_toList (hnodup : table.keys.Nodup) (key : Key) :
    table.filter (·.1 == key) = ((get? table key).map (key, ·)).toList := by
  induction table with
  | nil => rfl
  | cons first rest ih =>
      obtain ⟨listed, value⟩ := first
      obtain ⟨hlisted, hrest⟩ := List.nodup_cons.mp hnodup
      by_cases hfound : key = listed
      · subst hfound
        have hnone : rest.filter (·.1 == key) = [] := by
          rw [List.filter_eq_nil_iff]
          intro entry hentry hsame
          exact hlisted (List.mem_map.mpr ⟨entry, hentry, beq_iff_eq.mp hsame⟩)
        simp only [List.filter_cons, beq_self_eq_true, if_true, hnone, get?, Option.map_some]
        rfl
      · have hother : ((listed, value).1 == key) = false := beq_false_of_ne (Ne.symm hfound)
        simp only [List.filter_cons, hother, Bool.false_eq_true, if_false, ih hrest, get?, hfound]

section Values

variable {Other : Type} (change : Value → Other) (table : Table Key Value)

/-- The table with the same keys and other values. -/
def mapValues : Table Key Other :=
  table.map fun entry => (entry.1, change entry.2)

omit [DecidableEq Key] in
theorem keys_mapValues : (mapValues change table).keys = table.keys := by
  rw [keys, mapValues, List.map_map]
  rfl

theorem get?_mapValues (key : Key) :
    get? (mapValues change table) key = (get? table key).map change := by
  induction table with
  | nil => rfl
  | cons first rest ih =>
      obtain ⟨listed, value⟩ := first
      rw [mapValues] at ih
      by_cases hfound : key = listed
      · simp only [mapValues, List.map_cons, get?, hfound, if_true, Option.map_some]
      · simp only [mapValues, List.map_cons, get?, hfound, if_false, ih]

end Values

end Table

end HypervisorTrace
