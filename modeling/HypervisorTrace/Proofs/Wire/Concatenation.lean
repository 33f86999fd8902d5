import HypervisorTrace.Proofs.Wire.Coding

/-!
Streams one after the other. If a stream splits, then what follows it splits
as it would by itself, only later: the items and the errors are those of the
second stream, their offsets are larger by the length of the first one. How
the first stream splits does not depend on what follows.

Rows know one thing more, the processor. The rows of the second stream that
stand before its first change of processor belong to the processor on which
the first stream ends, all others to the same processor as before.
-/

namespace HypervisorTrace.Wire

variable {Head Code : Type} {framing : Framing Head}

def Truncation.later (length : Nat) (truncation : Truncation) : Truncation :=
  ⟨length + truncation.offset, truncation.needed⟩

def Frame.later (length : Nat) (frame : Frame Head) : Frame Head :=
  ⟨length + frame.offset, frame.item⟩

def Row.later (length : Nat) (row : Row Head) : Row Head :=
  ⟨length + row.offset, row.cpu, row.item⟩

/-- Where a stream starts makes no difference but to the offsets. -/
theorem Framing.splitFrom_add (framing : Framing Head) (length offset : Nat)
    (bytes : List UInt8) :
    framing.splitFrom (length + offset) bytes =
      ((framing.splitFrom offset bytes).map (List.map (Frame.later length))).mapError
        (Truncation.later length) := by
  induction bytes using framing.streamInduction generalizing offset with
  | nil =>
      rw [Framing.splitFrom_nil, Framing.splitFrom_nil]
      rfl
  | cut bytes missing hne hnext =>
      rw [Framing.splitFrom_of_error hne hnext, Framing.splitFrom_of_error hne hnext]
      rfl
  | item bytes taken rest hnext ih =>
      rw [Framing.splitFrom_of_next hnext, Framing.splitFrom_of_next hnext, Nat.add_assoc, ih]
      cases framing.splitFrom (offset + framing.size taken) rest <;> rfl

namespace Coding

variable (coding : Coding framing Code)

theorem framesFrom_append (offset : Nat) (first second : List Code) :
    coding.framesFrom offset (first ++ second) =
      coding.framesFrom offset first ++
        coding.framesFrom (offset + (coding.encodeAll first).length) second := by
  induction first generalizing offset with
  | nil => rfl
  | cons code rest ih =>
      rw [List.cons_append, framesFrom, ih, framesFrom, List.cons_append, encodeAll_cons,
        List.length_append, Nat.add_assoc]

theorem map_item_framesFrom (offset : Nat) (codes : List Code) :
    (coding.framesFrom offset codes).map (·.item) = codes.map coding.item := by
  induction codes generalizing offset with
  | nil => rfl
  | cons code rest ih => rw [framesFrom, List.map_cons, ih, List.map_cons]

theorem framesFrom_add (length offset : Nat) (codes : List Code) :
    coding.framesFrom (length + offset) codes =
      (coding.framesFrom offset codes).map (Frame.later length) := by
  induction codes generalizing offset with
  | nil => rfl
  | cons code rest ih =>
      rw [framesFrom, framesFrom, Nat.add_assoc, ih, List.map_cons, Frame.later]

theorem split_encodeAll_append (codes : List Code) (rest : List UInt8) :
    framing.split (coding.encodeAll codes ++ rest) =
      ((framing.split rest).map fun frames => coding.framesFrom 0 codes ++
        frames.map (Frame.later (coding.encodeAll codes).length)).mapError
          (Truncation.later (coding.encodeAll codes).length) := by
  have hrest := framing.splitFrom_add (coding.encodeAll codes).length 0 rest
  rw [Nat.add_zero] at hrest
  rw [Framing.split, splitFrom_encodeAll_append, Nat.zero_add, hrest, Framing.split]
  cases framing.splitFrom 0 rest <;> rfl

end Coding

theorem rowsFrom_later (length : Nat) (cpu : UInt16) (frames : List (Frame Head)) :
    rowsFrom cpu (frames.map (Frame.later length)) =
      (rowsFrom cpu frames).map (Row.later length) := by
  induction frames generalizing cpu with
  | nil => rfl
  | cons frame rest ih =>
      rw [List.map_cons, Frame.later, rowsFrom, rowsFrom]
      split
      · exact ih frame.item.newCpu
      · rw [ih, List.map_cons, Row.later]

/-- The rows of a second part start on the processor that the items before it
leave. The induction is on the first part; the items before it determine the
processor on which it starts itself. -/
theorem rowsFrom_append (before : List (Item Head)) (first second : List (Frame Head)) :
    rowsFrom (cpuAfter before) (first ++ second) =
      rowsFrom (cpuAfter before) first ++
        rowsFrom (cpuAfter (before ++ first.map (·.item))) second := by
  induction first generalizing before with
  | nil => rw [List.map_nil, List.append_nil, List.nil_append, rowsFrom, List.nil_append]
  | cons frame rest ih =>
      have hrest := ih (before ++ [frame.item])
      rw [cpuAfter_append_singleton, List.append_assoc, List.singleton_append] at hrest
      rw [List.cons_append, List.map_cons, rowsFrom, rowsFrom, isCpuChange_eq]
      by_cases hnames : NamesCpu frame.item
      · simp only [hnames, decide_true, if_true] at hrest ⊢
        exact hrest
      · simp only [hnames, decide_false, if_false, Bool.false_eq_true] at hrest ⊢
        rw [hrest, List.cons_append]

theorem rows_append (first second : List (Frame Head)) :
    rows (first ++ second) =
      rows first ++ rowsFrom (cpuAfter (first.map (·.item))) second :=
  rowsFrom_append [] first second

/-- The number of items before the first change of processor. -/
def itemsBeforeChange (items : List (Item Head)) : Nat :=
  (items.takeWhile (¬ NamesCpu ·)).length

/-- Rows that start on another processor differ only up to the first change of
processor, and there only in their processor. -/
theorem rowsFrom_cpu (cpu other : UInt16) (frames : List (Frame Head)) :
    rowsFrom cpu frames =
      ((rowsFrom other frames).take (itemsBeforeChange (frames.map (·.item)))).map
          (fun row => { row with cpu := cpu }) ++
        (rowsFrom other frames).drop (itemsBeforeChange (frames.map (·.item))) := by
  induction frames with
  | nil => rfl
  | cons frame rest ih =>
      rw [rowsFrom, rowsFrom, List.map_cons, itemsBeforeChange, List.takeWhile_cons, isCpuChange_eq]
      by_cases hnames : NamesCpu frame.item
      · simp [hnames]
      · simp only [hnames, decide_false, if_false, Bool.false_eq_true, not_false_eq_true,
          decide_true, if_true, List.length_cons, List.take_succ_cons, List.map_cons,
          List.drop_succ_cons, List.cons_append]
        exact congrArg _ ih

/-- The rows of a stream after another one of some length: later by that
length, and the first of them, up to a count, on the processor on which that
other one ends. -/
def continued (length : Nat) (cpu : UInt16) (count : Nat) (rows : List (Row Head)) :
    List (Row Head) :=
  (rows.take count).map (fun row => { row.later length with cpu := cpu }) ++
    (rows.drop count).map (Row.later length)

theorem map_item_continued (length : Nat) (cpu : UInt16) (count : Nat) (rows : List (Row Head)) :
    (continued length cpu count rows).map (·.item) = rows.map (·.item) := by
  rw [continued, List.map_append, List.map_map, List.map_map]
  change (rows.take count).map (·.item) ++ (rows.drop count).map (·.item) = rows.map (·.item)
  rw [← List.map_append, List.take_append_drop]

/-- The events of some stored forms that stand after others. -/
def Coding.eventsAfter (coding : Coding framing Code) (first second : List Code) :
    List (Row Head) :=
  continued (coding.encodeAll first).length (cpuAfter (first.map coding.item))
    (itemsBeforeChange (second.map coding.item)) (coding.events second)

/-- The events of two streams read as one are those of the first and, continued
from its end, those of the second. -/
theorem Coding.events_append (coding : Coding framing Code) (first second : List Code) :
    coding.events (first ++ second) =
      coding.events first ++ coding.eventsAfter first second := by
  have hframes := coding.framesFrom_add (coding.encodeAll first).length 0 second
  have hcpu := rowsFrom_cpu (cpuAfter (first.map coding.item)) 0 (coding.framesFrom 0 second)
  rw [coding.map_item_framesFrom] at hcpu
  rw [Nat.add_zero] at hframes
  rw [← coding.rows_framesFrom (first ++ second), coding.framesFrom_append, rows_append,
    coding.map_item_framesFrom, Nat.zero_add, hframes, rowsFrom_later, hcpu, List.map_append,
    List.map_map, coding.rows_framesFrom, eventsAfter, ← coding.rows_framesFrom second, continued]
  rfl

end HypervisorTrace.Wire
