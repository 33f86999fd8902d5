import HypervisorTrace.Proofs.Table.Keys
import HypervisorTrace.Table
import Mathlib.Data.Finset.Card

/-!
Tallying. Counting one more member raises the count of that member by one and
the total by one, and lists no member twice. So the tally of a list lists its
distinct members, each with the number of its places, and the counts add up to
the length of the list. None of this depends on the order of the entries.
-/

namespace HypervisorTrace

namespace Tally

variable {α : Type} [DecidableEq α] {tally other : Tally α} {members : List α}

def total (tally : Tally α) : Nat :=
  (tally.map Prod.snd).sum

theorem count_add (tally : Tally α) (member counted : α) :
    (tally.add member).count counted =
      tally.count counted + if counted = member then 1 else 0 := by
  rw [add, count, Table.get?_set]
  split
  · rename_i hsame
    rw [hsame]
    rfl
  · rfl

/-- Setting a count changes the total by as much as it changes the count. -/
theorem total_set (tally : Tally α) (member : α) (number : Nat) :
    total (Table.set tally member number) + tally.count member = tally.total + number := by
  induction tally with
  | nil => simp [Table.set, total, count]
  | cons first rest ih =>
      obtain ⟨listed, former⟩ := first
      by_cases hfound : member = listed
      · simp only [Table.set, hfound, if_true, total, List.map_cons, List.sum_cons, count,
          Table.get?, Option.getD_some]
        omega
      · simp only [total, count] at ih
        simp only [Table.set, hfound, if_false, total, List.map_cons, List.sum_cons, count,
          Table.get?]
        omega

theorem total_add (tally : Tally α) (member : α) : (tally.add member).total = tally.total + 1 := by
  have htotal := total_set tally member (tally.count member + 1)
  rw [add]
  omega

/-- Whether a tally has counted the members of a list, and nothing else. -/
structure IsOf (tally : Tally α) (members : List α) : Prop where
  nodup : tally.keys.Nodup
  mem_keys : ∀ member, member ∈ tally.keys ↔ member ∈ members
  count : ∀ member, tally.count member = members.count member
  total : tally.total = members.length

namespace IsOf

theorem nil : IsOf ([] : Tally α) [] :=
  ⟨List.nodup_nil, fun _ => Iff.rfl, fun _ => rfl, rfl⟩

/-- One more member is counted. -/
theorem add (hof : tally.IsOf members) (member : α) :
    (tally.add member).IsOf (members ++ [member]) where
  nodup := Table.nodup_keys_set hof.nodup member _
  mem_keys counted := by
    rw [Tally.add, Table.mem_keys_set, hof.mem_keys, List.mem_append, List.mem_singleton]
  count counted := by
    rw [count_add, hof.count, List.count_append, List.count_singleton]
    simp only [beq_iff_eq, eq_comm (a := counted)]
  total := by
    rw [total_add, hof.total, List.length_append, List.length_singleton]

theorem count_of_mem (hof : tally.IsOf members) {entry : α × Nat} (hentry : entry ∈ tally) :
    entry.2 = members.count entry.1 := by
  rw [← hof.count, Tally.count, (Table.mem_iff_get? hof.nodup).mp hentry]
  rfl

theorem pos_of_mem (hof : tally.IsOf members) {entry : α × Nat} (hentry : entry ∈ tally) :
    0 < entry.2 := by
  rw [hof.count_of_mem hentry, List.count_pos_iff, ← hof.mem_keys]
  exact List.mem_map_of_mem hentry

/-- There are as many entries as distinct members. -/
theorem length_eq_card (hof : tally.IsOf members) : tally.length = members.toFinset.card := by
  have hkeys : tally.keys.toFinset = members.toFinset := by
    ext member
    rw [List.mem_toFinset, List.mem_toFinset, hof.mem_keys]
  rw [← hkeys, List.toFinset_card_of_nodup hof.nodup, Table.keys, List.length_map]

/-- The order of the entries makes no difference. -/
theorem perm (hof : tally.IsOf members) (hperm : List.Perm other tally) : other.IsOf members := by
  have hkeys : List.Perm (Table.keys other) (Table.keys tally) := hperm.map Prod.fst
  have hnodup : (Table.keys other).Nodup := hkeys.nodup_iff.mpr hof.nodup
  refine ⟨hnodup, ?_, ?_, ?_⟩
  · intro member
    rw [hkeys.mem_iff, hof.mem_keys]
  · intro member
    have hget : Table.get? other member = Table.get? tally member := by
      apply Option.ext
      intro number
      rw [← Table.mem_iff_get? hnodup, ← Table.mem_iff_get? hof.nodup, hperm.mem_iff]
    rw [← hof.count, Tally.count, Tally.count, hget]
  · rw [← hof.total, Tally.total, Tally.total, (hperm.map Prod.snd).sum_eq]

end IsOf

end Tally

end HypervisorTrace
