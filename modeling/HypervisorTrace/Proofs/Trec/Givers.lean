import HypervisorTrace.Proofs.Trec.Stamping

/-!
Where counters come from, and what that says of their order. Every row has its
counter from one row of the stream, its giver, unless the stream carries no
counter at all. The giver of a row is on the row's own processor, or on another
one; in the second case the row borrows its counter.

Two rows of one processor have the same giver, or the later one has its giver
from between them. So the counters of two rows are in order as soon as those
that are carried are: all of them, or those of one processor if the first of
the two rows does not borrow.
-/

namespace HypervisorTrace.Wire.Trec

/-- The rows that carry a counter, in order. -/
def carriers (rows : List (Row (Option UInt64))) : List (Row (Option UInt64)) :=
  rows.filter (·.item.head.isSome)

/-- The row that a row has its counter from: the last one of its processor up
to the row itself that carries one; failing that the last one before it;
failing that the first one after it. -/
def giver (before : List (Row (Option UInt64))) (row : Row (Option UInt64))
    (after : List (Row (Option UInt64))) : Option (Row (Option UInt64)) :=
  (carriers (onCpu row.cpu (before ++ [row]))).getLast?.or
    ((carriers before).getLast?.or (carriers after).head?)

/-- Whether a row has its counter from a row of another processor. -/
def Borrows (before : List (Row (Option UInt64))) (row : Row (Option UInt64))
    (after : List (Row (Option UInt64))) : Prop :=
  ∃ other ∈ giver before row after, other.cpu ≠ row.cpu

instance (before : List (Row (Option UInt64))) (row : Row (Option UInt64))
    (after : List (Row (Option UInt64))) : Decidable (Borrows before row after) :=
  inferInstanceAs (Decidable (∃ other ∈ giver before row after, other.cpu ≠ row.cpu))

variable {before between after : List (Row (Option UInt64))}
  {row next other : Row (Option UInt64)}

@[simp] theorem carriers_append (first second : List (Row (Option UInt64))) :
    carriers (first ++ second) = carriers first ++ carriers second :=
  List.filter_append ..

theorem carried_eq (rows : List (Row (Option UInt64))) :
    carried rows = (carriers rows).map (·.item.head.getD 0) := by
  induction rows with
  | nil => rfl
  | cons row rest ih =>
      rw [carried] at ih ⊢
      rw [carriers, List.filterMap_cons, List.filter_cons, ih]
      cases hhead : row.item.head with
      | none => rfl
      | some counter => simp [carriers, hhead]

theorem mem_carriers_onCpu {cpu : UInt16} {rows : List (Row (Option UInt64))} :
    other ∈ carriers (onCpu cpu rows) ↔ other ∈ carriers rows ∧ other.cpu = cpu := by
  simp only [carriers, onCpu, List.mem_filter, decide_eq_true_eq]
  tauto

/-- The counter of a row is the one that its giver carries, zero if it has no
giver. -/
theorem stamp_eq (before : List (Row (Option UInt64))) (row : Row (Option UInt64))
    (after : List (Row (Option UInt64))) :
    stamp before row after = ((giver before row after).map (·.item.head.getD 0)).getD 0 := by
  rw [stamp, giver, Option.map_or, Option.map_or, ← List.getLast?_map, ← List.getLast?_map,
    ← List.head?_map, ← carried_eq, ← carried_eq, ← carried_eq, onCpu_append, carried_append,
    onCpu_singleton_of_eq rfl, List.getLast?_append]
  cases hhead : row.item.head <;> simp [carried, hhead]

theorem giver_of_own (hown : (carriers (onCpu row.cpu (before ++ [row]))).getLast? = some other) :
    giver before row after = some other := by
  rw [giver, hown, Option.some_or]

theorem giver_of_none (hown : carriers (onCpu row.cpu (before ++ [row])) = []) :
    giver before row after = (carriers before).getLast?.or (carriers after).head? := by
  rw [giver, hown, List.getLast?_nil, Option.none_or]

/-- A processor without a carrier up to one of its rows has none in that
row. -/
theorem carriers_singleton (hown : carriers (onCpu row.cpu (before ++ [row])) = []) :
    carriers [row] = [] := by
  rw [onCpu_append, onCpu_singleton_of_eq rfl, carriers_append, List.append_eq_nil_iff] at hown
  exact hown.2

theorem onCpu_between (hcpu : next.cpu = row.cpu) :
    onCpu next.cpu (before ++ row :: between ++ [next]) =
      onCpu row.cpu (before ++ [row]) ++ onCpu next.cpu (between ++ [next]) := by
  rw [List.append_cons before, List.append_assoc, onCpu_append, hcpu]

/-- A row without a giver of its own processor before or in it has the giver
of an earlier such row, if no carrier stands between the two. -/
theorem giver_of_between (hrow : carriers [row] = []) (hnext : carriers [next] = [])
    (hbetween : carriers between = []) :
    (carriers (before ++ row :: between)).getLast?.or (carriers after).head? =
      (carriers before).getLast?.or (carriers (between ++ next :: after)).head? := by
  rw [List.append_cons, carriers_append, carriers_append, hrow, hbetween,
    List.append_cons between, carriers_append, carriers_append, hnext, hbetween]
  simp

variable (before between after) in
/-- Of two rows of one processor the later one has the same giver as the
earlier one, or has its giver from after the earlier one. -/
theorem giver_eq_or_mem (hcpu : next.cpu = row.cpu) :
    giver (before ++ row :: between) next after = giver before row (between ++ next :: after) ∨
      ∃ other ∈ carriers (between ++ [next]),
        giver (before ++ row :: between) next after = some other := by
  cases hlate : (carriers (onCpu next.cpu (between ++ [next]))).getLast? with
  | some other =>
      right
      refine ⟨other, (mem_carriers_onCpu.mp (List.mem_of_getLast? hlate)).1, ?_⟩
      apply giver_of_own
      rw [onCpu_between hcpu, carriers_append, List.getLast?_append, hlate, Option.some_or]
  | none =>
      rw [List.getLast?_eq_none_iff] at hlate
      have hown : carriers (onCpu next.cpu (before ++ row :: between ++ [next])) =
          carriers (onCpu row.cpu (before ++ [row])) := by
        rw [onCpu_between hcpu, carriers_append, hlate, List.append_nil]
      cases hearly : (carriers (onCpu row.cpu (before ++ [row]))).getLast? with
      | some other =>
          left
          rw [giver_of_own hearly]
          apply giver_of_own
          rw [hown, hearly]
      | none =>
          -- Neither row knows a counter of its processor: both look elsewhere.
          rw [List.getLast?_eq_none_iff] at hearly
          rw [giver_of_none (hown.trans hearly), giver_of_none hearly]
          cases hbetween : (carriers between).getLast? with
          | some other =>
              right
              refine ⟨other, ?_, ?_⟩
              · rw [carriers_append]
                exact List.mem_append_left _ (List.mem_of_getLast? hbetween)
              · rw [List.append_cons, carriers_append, List.getLast?_append, hbetween,
                  Option.some_or, Option.some_or]
          | none =>
              left
              exact giver_of_between (carriers_singleton hearly) (carriers_singleton hlate)
                (List.getLast?_eq_none_iff.mp hbetween)

/-- A row that borrows knows no counter of its own processor. -/
theorem carriers_of_borrows (hborrows : Borrows before row after) :
    carriers (onCpu row.cpu (before ++ [row])) = [] := by
  obtain ⟨other, hother, hforeign⟩ := hborrows
  cases hown : (carriers (onCpu row.cpu (before ++ [row]))).getLast? with
  | none => exact List.getLast?_eq_none_iff.mp hown
  | some own =>
      rw [giver_of_own hown, Option.mem_some_iff] at hother
      subst hother
      exact absurd (mem_carriers_onCpu.mp (List.mem_of_getLast? hown)).2 hforeign

/-- A processor borrows only at first: after a row that does not borrow no
later row of its processor does. -/
theorem not_borrows_of_earlier (hcpu : next.cpu = row.cpu)
    (howns : ¬ Borrows before row (between ++ next :: after)) :
    ¬ Borrows (before ++ row :: between) next after := by
  rintro ⟨other, hother, hforeign⟩
  apply howns
  rcases giver_eq_or_mem before between after hcpu with
    hsame | ⟨late, hlate, hgiver⟩
  · rw [hsame] at hother
    exact ⟨other, hother, hcpu ▸ hforeign⟩
  · -- No row of the processor up to the later row carries a counter, or the
    -- later row would not borrow. So the earlier row borrows too, from any
    -- carrier that it is given.
    have hnone := carriers_of_borrows ⟨other, hother, hforeign⟩
    have hforeigners : ∀ found ∈ carriers (before ++ row :: between ++ [next]),
        found.cpu ≠ row.cpu := by
      intro found hfound hown
      have hmem := mem_carriers_onCpu.mpr ⟨hfound, hown.trans hcpu.symm⟩
      rw [hnone] at hmem
      cases hmem
    have hearly : carriers (onCpu row.cpu (before ++ [row])) = [] := by
      rw [onCpu_between hcpu, carriers_append, List.append_eq_nil_iff] at hnone
      exact hnone.1
    rw [Borrows, giver_of_none hearly, List.append_cons between, carriers_append,
      List.head?_append_of_ne_nil _ (List.ne_nil_of_mem hlate)]
    cases hbefore : (carriers before).getLast? with
    | some found =>
        refine ⟨found, by rw [Option.some_or]; rfl, hforeigners found ?_⟩
        have hfound := List.mem_of_getLast? hbefore
        simp only [carriers_append, List.mem_append]
        exact Or.inl (Or.inl hfound)
    | none =>
        obtain ⟨found, hfound⟩ := Option.isSome_iff_exists.mp
          (List.isSome_head?.mpr (List.ne_nil_of_mem hlate))
        refine ⟨found, by rw [Option.none_or, hfound]; rfl, hforeigners found ?_⟩
        have hmem := List.mem_of_head? hfound
        rw [List.append_assoc, List.cons_append, List.append_cons, carriers_append]
        exact List.mem_append_right _ hmem

/-- A giver stands before its row, or is the row itself, or is the first
carrier after it. -/
theorem giver_cases (hgiver : giver before row after = some other) :
    other ∈ carriers (before ++ [row]) ∨ (carriers after).head? = some other := by
  cases hown : (carriers (onCpu row.cpu (before ++ [row]))).getLast? with
  | some own =>
      rw [giver_of_own hown, Option.some_inj] at hgiver
      subst hgiver
      exact Or.inl (mem_carriers_onCpu.mp (List.mem_of_getLast? hown)).1
  | none =>
      rw [giver_of_none (List.getLast?_eq_none_iff.mp hown), Option.or_eq_some_iff] at hgiver
      rcases hgiver with hbefore | ⟨-, hafter⟩
      · rw [carriers_append]
        exact Or.inl (List.mem_append_left _ (List.mem_of_getLast? hbefore))
      · exact Or.inr hafter

theorem carried_filter (keep : Row (Option UInt64) → Bool) (rows : List (Row (Option UInt64))) :
    carried (rows.filter keep) = ((carriers rows).filter keep).map (·.item.head.getD 0) := by
  rw [carried_eq, carriers, carriers, List.filter_comm]

/-- The counter of a row is at most every counter that is carried after it
among rows of some kind, if the counters of that kind ascend and the row has
its own from a row of that kind. -/
theorem stamp_le_of_mem_later (keep : Row (Option UInt64) → Bool)
    (hascending : (carried ((before ++ row :: after).filter keep)).Pairwise (· ≤ ·))
    (hkeep : ∀ found ∈ giver before row after, keep found) {counter : UInt64}
    (hcounter : counter ∈ carried (after.filter keep)) : stamp before row after ≤ counter := by
  rw [stamp_eq]
  cases hgiver : giver before row after with
  | none => exact UInt64.zero_le
  | some found =>
      change found.item.head.getD 0 ≤ counter
      have hkept : keep found := hkeep found hgiver
      rw [List.append_cons, List.filter_append, carried_append] at hascending
      rcases giver_cases hgiver with hbefore | hfirst
      · have hmem : found.item.head.getD 0 ∈ carried ((before ++ [row]).filter keep) := by
          rw [carried_filter]
          exact List.mem_map_of_mem (List.mem_filter.mpr ⟨hbefore, hkept⟩)
        exact (List.pairwise_append.mp hascending).2.2 _ hmem _ hcounter
      · obtain ⟨rest, hrest⟩ := List.head?_eq_some_iff.mp hfirst
        have hlater := (List.pairwise_append.mp hascending).2.1
        rw [carried_filter, hrest, List.filter_cons_of_pos hkept, List.map_cons] at hcounter hlater
        rcases List.mem_cons.mp hcounter with hsame | hrest
        · exact hsame ▸ UInt64.le_refl _
        · exact (List.pairwise_cons.mp hlater).1 counter hrest

/-- Counters of one processor ascend from the first row on that does not
borrow, if those that the processor's rows carry do. -/
theorem stamp_le_of_cpu (hcpu : next.cpu = row.cpu)
    (hascending :
      (carried (onCpu row.cpu (before ++ row :: (between ++ next :: after)))).Pairwise (· ≤ ·))
    (howns : ¬ Borrows before row (between ++ next :: after)) :
    stamp before row (between ++ next :: after) ≤ stamp (before ++ row :: between) next after := by
  have hown : ∀ found ∈ giver before row (between ++ next :: after),
      decide (found.cpu = row.cpu) = true := by
    intro found hfound
    rw [decide_eq_true_eq]
    by_contra hforeign
    exact howns ⟨found, hfound, hforeign⟩
  rcases giver_eq_or_mem before between after hcpu with
    hsame | ⟨late, hlate, hgiver⟩
  · rw [stamp_eq, stamp_eq, hsame]
    exact UInt64.le_refl _
  · have hlateCpu : late.cpu = row.cpu := by
      by_contra hforeign
      exact not_borrows_of_earlier hcpu howns ⟨late, hgiver, hcpu.symm ▸ hforeign⟩
    rw [stamp_eq (before ++ row :: between), hgiver]
    apply stamp_le_of_mem_later _ hascending hown
    rw [carried_filter, List.append_cons, carriers_append, List.filter_append, List.map_append]
    exact List.mem_append_left _
      (List.mem_map_of_mem (List.mem_filter.mpr ⟨hlate, decide_eq_true hlateCpu⟩))

/-- If all counters of a stream ascend, the counter of a row is at most that of
every later row that carries one or comes from the same processor. -/
theorem stamp_le_of_ascending
    (hascending : (carried (before ++ row :: (between ++ next :: after))).Pairwise (· ≤ ·))
    (hlater : next.item.head.isSome ∨ next.cpu = row.cpu) :
    stamp before row (between ++ next :: after) ≤ stamp (before ++ row :: between) next after := by
  have hall : (carried ((before ++ row :: (between ++ next :: after)).filter
      fun _ => true)).Pairwise (· ≤ ·) := by
    rw [List.filter_true]
    exact hascending
  have hbound (late : Row (Option UInt64)) (hlate : late ∈ carriers (between ++ [next])) :
      stamp before row (between ++ next :: after) ≤ late.item.head.getD 0 := by
    apply stamp_le_of_mem_later _ hall (fun _ _ => rfl)
    rw [List.filter_true, carried_eq, List.append_cons, carriers_append]
    exact List.mem_map_of_mem (List.mem_append_left _ hlate)
  rcases hlater with hcarries | hcpu
  · have hnext : next ∈ carriers (between ++ [next]) := by
      rw [carriers, List.mem_filter]
      exact ⟨List.mem_append_right _ (List.mem_singleton_self next), hcarries⟩
    have hstamp : stamp (before ++ row :: between) next after = next.item.head.getD 0 := by
      obtain ⟨counter, hcounter⟩ := Option.isSome_iff_exists.mp hcarries
      rw [stamp, hcounter]
      rfl
    rw [hstamp]
    exact hbound next hnext
  · rcases giver_eq_or_mem before between after hcpu with
      hsame | ⟨late, hlate, hgiver⟩
    · rw [stamp_eq, stamp_eq, hsame]
      exact UInt64.le_refl _
    · rw [stamp_eq (before ++ row :: between), hgiver]
      exact hbound late hlate

theorem carriers_of_giver_none (hgiver : giver before row after = none) :
    carriers (before ++ row :: after) = [] := by
  rw [giver, Option.or_eq_none_iff, Option.or_eq_none_iff, List.getLast?_eq_none_iff,
    List.getLast?_eq_none_iff, List.head?_eq_none_iff] at hgiver
  obtain ⟨hown, hbefore, hafter⟩ := hgiver
  rw [List.append_cons, carriers_append, carriers_append, hbefore, carriers_singleton hown, hafter]
  rfl

/-- The first row of a stream has the first counter of it. -/
theorem stamp_first (row : Row (Option UInt64)) (after : List (Row (Option UInt64))) :
    stamp [] row after = (carried (row :: after)).head?.getD 0 := by
  rw [stamp]
  cases hhead : row.item.head <;> simp [carried, onCpu, hhead]

/-- If all counters of a stream ascend, no row has one below the first. -/
theorem first_le_stamp (hascending : (carried (before ++ row :: after)).Pairwise (· ≤ ·)) :
    (carried (before ++ row :: after)).head?.getD 0 ≤ stamp before row after := by
  rw [stamp_eq]
  cases hgiver : giver before row after with
  | none =>
      rw [carried_eq, carriers_of_giver_none hgiver]
      exact UInt64.le_refl _
  | some found =>
      have hfound : found ∈ carriers (before ++ row :: after) := by
        rw [List.append_cons, carriers_append, List.mem_append]
        exact (giver_cases hgiver).imp id List.mem_of_head?
      have hmem : found.item.head.getD 0 ∈ carried (before ++ row :: after) := by
        rw [carried_eq]
        exact List.mem_map_of_mem hfound
      change _ ≤ found.item.head.getD 0
      cases hcarried : carried (before ++ row :: after) with
      | nil => exact UInt64.zero_le
      | cons first rest =>
          rw [hcarried] at hascending hmem
          rcases List.mem_cons.mp hmem with hsame | hrest
          · exact hsame ▸ UInt64.le_refl _
          · exact (List.pairwise_cons.mp hascending).1 _ hrest

end HypervisorTrace.Wire.Trec
