import HypervisorTrace.Proofs.Wire.Splitting

/-!
What a framing stores, byte for byte. A coding names the stored forms of a
framing's items and says that the framing reads exactly these: a stored form
is taken off the front of any stream as its item, and whatever is taken off
is a stored form. From these two laws about the first item this module proves
that the streams which split are the concatenations of stored forms, and the
others such concatenations with a part of another form at the end, and gives
the events of a concatenation in closed form.

The closed form does not follow the stream item by item. It says of each item
by itself where it starts and which processor it comes from, in terms of the
list of all items before it.
-/

namespace HypervisorTrace.Wire

variable {Head Code : Type} {framing : Framing Head}

/-- The stored forms of a framing's items. A form may hold bits that its item
does not, so the forms have a type of their own. -/
structure Coding (framing : Framing Head) (Code : Type) where
  /-- The bytes of a stored form. -/
  encode : Code → List UInt8
  /-- The item that a form stores. -/
  item : Code → Item Head
  next_encode : ∀ (code : Code) (rest : List UInt8),
    framing.next (encode code ++ rest) = .ok (item code, rest)
  exists_code : ∀ {bytes rest : List UInt8} {taken : Item Head},
    framing.next bytes = .ok (taken, rest) →
    ∃ code, item code = taken ∧ encode code ++ rest = bytes

/-- Whether an item is the record 0x0001f003, which names the processor of
those that follow it. -/
def NamesCpu (item : Item Head) : Prop :=
  item.id = 0x0001f003

instance (item : Item Head) : Decidable (NamesCpu item) :=
  inferInstanceAs (Decidable (item.id = 0x0001f003))

/-- The processor after some items: the low sixteen bits of the first extra
word of the last item that names one, zero if that word is missing or no item
names one. -/
def cpuAfter (items : List (Item Head)) : UInt16 :=
  match (items.filter (NamesCpu ·)).getLast? with
  | some change => UInt32.toUInt16 (change.extra.headD 0)
  | none => 0

theorem isCpuChange_eq (item : Item Head) :
    item.isCpuChange = decide (NamesCpu item) := by
  unfold Item.isCpuChange NamesCpu Event.Id.cpuChange
  rfl

theorem newCpu_eq (item : Item Head) :
    item.newCpu = UInt32.toUInt16 (item.extra.headD 0) := by
  have hword : item.extra.word 0 = item.extra.headD 0 := by
    cases hextra : item.extra <;> rfl
  rw [Item.newCpu, hword]
  apply UInt16.toNat_inj.mp
  simp [Word.lower]

theorem cpuAfter_append_singleton (before : List (Item Head)) (item : Item Head) :
    cpuAfter (before ++ [item]) =
      if NamesCpu item then item.newCpu else cpuAfter before := by
  unfold cpuAfter
  rw [List.filter_append]
  by_cases hnames : NamesCpu item
  · simp [hnames, newCpu_eq]
  · simp [hnames]

namespace Coding

variable (coding : Coding framing Code)

/-- The bytes of some stored forms, one after the other. -/
def encodeAll (codes : List Code) : List UInt8 :=
  codes.flatMap coding.encode

/-- The items of some stored forms, with the places at which they start when
the first of them starts at an offset. -/
def framesFrom (offset : Nat) : List Code → List (Frame Head)
  | [] => []
  | code :: rest =>
      ⟨offset, coding.item code⟩ :: framesFrom (offset + (coding.encode code).length) rest

/-- The event at an index among some stored forms, if the form there is one of
an event. It starts where the forms before it end. -/
def eventAt (codes : List Code) (code : Code) (index : Nat) : Option (Row Head) :=
  if NamesCpu (coding.item code) then none
  else some ⟨(coding.encodeAll (codes.take index)).length,
    cpuAfter ((codes.take index).map coding.item), coding.item code⟩

/-- The events among some stored forms, in order. -/
def events (codes : List Code) : List (Row Head) :=
  codes.zipIdx.filterMap fun (code, index) => coding.eventAt codes code index

/-- Every event is one of the stored forms. -/
theorem exists_code_of_mem_events {codes : List Code} {row : Row Head}
    (hrow : row ∈ coding.events codes) : ∃ code ∈ codes, row.item = coding.item code := by
  rw [events, List.mem_filterMap] at hrow
  obtain ⟨⟨code, index⟩, hmem, hevent⟩ := hrow
  have hcode : code ∈ codes := by
    obtain ⟨-, -, hget⟩ := List.mem_zipIdx hmem
    rw [hget]
    exact List.getElem_mem _
  dsimp only [eventAt] at hevent
  split at hevent
  · cases hevent
  · cases hevent
    exact ⟨code, hcode, rfl⟩

@[simp] theorem encodeAll_nil : coding.encodeAll [] = [] := rfl

@[simp] theorem encodeAll_cons (code : Code) (rest : List Code) :
    coding.encodeAll (code :: rest) = coding.encode code ++ coding.encodeAll rest := by
  simp [encodeAll]

@[simp] theorem encodeAll_append (first second : List Code) :
    coding.encodeAll (first ++ second) = coding.encodeAll first ++ coding.encodeAll second := by
  simp [encodeAll]

theorem length_encode (code : Code) :
    (coding.encode code).length = framing.size (coding.item code) := by
  have hnext := coding.next_encode code []
  have hlength := framing.length_of_next hnext
  simpa using hlength

theorem encode_ne_nil (code : Code) : coding.encode code ≠ [] := by
  intro hnil
  have hlength := coding.length_encode code
  have hpos := framing.size_pos (coding.item code)
  rw [hnil, List.length_nil] at hlength
  omega

/-- Stored forms are taken off any stream that starts with them, and the rest
is split by itself. -/
theorem splitFrom_encodeAll_append (codes : List Code) (offset : Nat) (rest : List UInt8) :
    framing.splitFrom offset (coding.encodeAll codes ++ rest) =
      (framing.splitFrom (offset + (coding.encodeAll codes).length) rest).map
        (coding.framesFrom offset codes ++ ·) := by
  induction codes generalizing offset with
  | nil =>
      rw [encodeAll_nil, List.nil_append, List.length_nil, Nat.add_zero]
      cases framing.splitFrom offset rest <;> rfl
  | cons code others ih =>
      have hnext := coding.next_encode code (coding.encodeAll others ++ rest)
      rw [encodeAll_cons, List.append_assoc, Framing.splitFrom_of_next hnext,
        ← coding.length_encode code, ih, List.length_append, Nat.add_assoc]
      cases framing.splitFrom
        (offset + ((coding.encode code).length + (coding.encodeAll others).length)) rest <;> rfl

/-- Concatenations of stored forms split into the items of the forms. -/
theorem splitFrom_encodeAll (codes : List Code) (offset : Nat) :
    framing.splitFrom offset (coding.encodeAll codes) =
      .ok (coding.framesFrom offset codes) := by
  have hsplit := coding.splitFrom_encodeAll_append codes offset []
  rw [List.append_nil, Framing.splitFrom_nil] at hsplit
  rw [hsplit, Except.map, List.append_nil]

/-- Every stream is some stored forms, and after them nothing or the beginning
of an item that lacks bytes. -/
theorem exists_codes (bytes : List UInt8) :
    ∃ codes rest, coding.encodeAll codes ++ rest = bytes ∧
      (rest = [] ∨ rest ≠ [] ∧ ∃ missing, framing.next rest = .error missing) := by
  induction bytes using framing.streamInduction with
  | nil => exact ⟨[], [], rfl, Or.inl rfl⟩
  | cut bytes missing hne hnext => exact ⟨[], bytes, rfl, Or.inr ⟨hne, missing, hnext⟩⟩
  | item bytes taken rest hnext ih =>
      obtain ⟨code, -, hcode⟩ := coding.exists_code hnext
      obtain ⟨codes, left, hcodes, hleft⟩ := ih
      refine ⟨code :: codes, left, ?_, hleft⟩
      rw [encodeAll_cons, List.append_assoc, hcodes, hcode]

/-- A stream that splits is a concatenation of stored forms. -/
theorem exists_codes_of_splitFrom {offset : Nat} {bytes : List UInt8}
    {frames : List (Frame Head)} (hsplit : framing.splitFrom offset bytes = .ok frames) :
    ∃ codes, coding.encodeAll codes = bytes ∧ coding.framesFrom offset codes = frames := by
  obtain ⟨codes, rest, rfl, rfl | ⟨hne, missing, hnext⟩⟩ := coding.exists_codes bytes
  · rw [List.append_nil, splitFrom_encodeAll] at hsplit
    injection hsplit with hframes
    exact ⟨codes, (List.append_nil _).symm, hframes⟩
  · rw [splitFrom_encodeAll_append, Framing.splitFrom_of_error hne hnext] at hsplit
    cases hsplit

/-- A stream that fails to split is some stored forms and the beginning of
another item, whose place and missing bytes are reported. -/
theorem exists_codes_of_splitFrom_error {offset : Nat} {bytes : List UInt8}
    {report : Truncation} (hsplit : framing.splitFrom offset bytes = .error report) :
    ∃ codes rest, coding.encodeAll codes ++ rest = bytes ∧ rest ≠ [] ∧
      report.offset = offset + (coding.encodeAll codes).length ∧
      framing.next rest = .error report.needed := by
  obtain ⟨codes, rest, rfl, rfl | ⟨hne, missing, hnext⟩⟩ := coding.exists_codes bytes
  · rw [List.append_nil, splitFrom_encodeAll] at hsplit
    cases hsplit
  · rw [splitFrom_encodeAll_append, Framing.splitFrom_of_error hne hnext] at hsplit
    cases hsplit
    exact ⟨codes, rest, rfl, hne, rfl, hnext⟩

/-- The same bytes are not stored by two lists of forms, if no two forms have
the same bytes. -/
theorem encodeAll_injective (hencode : Function.Injective coding.encode) :
    Function.Injective coding.encodeAll := by
  intro first second hbytes
  induction first generalizing second with
  | nil =>
      cases second with
      | nil => rfl
      | cons code rest =>
          rw [encodeAll_nil, encodeAll_cons] at hbytes
          have hnil := (List.append_eq_nil_iff.mp hbytes.symm).1
          exact absurd hnil (coding.encode_ne_nil code)
  | cons code rest ih =>
      cases second with
      | nil =>
          rw [encodeAll_nil, encodeAll_cons] at hbytes
          have hnil := (List.append_eq_nil_iff.mp hbytes).1
          exact absurd hnil (coding.encode_ne_nil code)
      | cons other more =>
          rw [encodeAll_cons, encodeAll_cons] at hbytes
          -- Both sides are one stream, so what is read first is the same.
          have hfirst := coding.next_encode code (coding.encodeAll rest)
          rw [hbytes, coding.next_encode other (coding.encodeAll more)] at hfirst
          have hrest : coding.encodeAll more = coding.encodeAll rest := by
            injection hfirst with hpair
            exact congrArg Prod.snd hpair
          rw [hrest] at hbytes
          have hcode := hencode (List.append_cancel_right hbytes)
          rw [hcode, ih hrest.symm]

/-- Going through the items of a stream with the processor at hand gives the
events as the closed form has them. The induction is on the forms still to
come; those that have been passed determine the offset and the processor. -/
theorem rowsFrom_framesFrom (before codes : List Code) :
    rowsFrom (cpuAfter (before.map coding.item))
        (coding.framesFrom (coding.encodeAll before).length codes) =
      (codes.zipIdx before.length).filterMap fun (code, index) =>
        coding.eventAt (before ++ codes) code index := by
  induction codes generalizing before with
  | nil => rfl
  | cons code rest ih =>
      have hrest := ih (before ++ [code])
      rw [List.map_append, List.map_singleton, cpuAfter_append_singleton, encodeAll_append,
        List.length_append, List.length_append, List.length_singleton,
        List.append_assoc, List.singleton_append] at hrest
      have hencode : (coding.encodeAll [code]).length = (coding.encode code).length := by
        rw [encodeAll_cons, encodeAll_nil, List.append_nil]
      rw [hencode] at hrest
      have htake : (before ++ code :: rest).take before.length = before := by simp
      rw [List.zipIdx_cons, List.filterMap_cons, framesFrom, rowsFrom, isCpuChange_eq]
      by_cases hnames : NamesCpu (coding.item code)
      · rw [if_pos hnames] at hrest
        simp only [hnames, decide_true, if_true, eventAt, htake]
        exact hrest
      · rw [if_neg hnames] at hrest
        simp only [hnames, decide_false, if_false, eventAt, htake, Bool.false_eq_true]
        exact congrArg _ hrest

/-- The rows of a concatenation of stored forms are its events. -/
theorem rows_framesFrom (codes : List Code) :
    rows (coding.framesFrom 0 codes) = coding.events codes :=
  coding.rowsFrom_framesFrom [] codes

/-- What is made of the rows of stored forms is made of their events. -/
theorem map_rows_split_encodeAll {α : Type} (f : List (Row Head) → α) (codes : List Code) :
    ((framing.split (coding.encodeAll codes)).map fun frames => f (rows frames)) =
      .ok (f (coding.events codes)) := by
  rw [Framing.split, splitFrom_encodeAll, ← rows_framesFrom]
  rfl

/-- What is made of the rows of a stream that splits is made of the events of
stored forms. -/
theorem exists_codes_of_map_rows_split {α : Type} {f : List (Row Head) → α}
    {bytes : List UInt8} {result : α}
    (hread : ((framing.split bytes).map fun frames => f (rows frames)) = .ok result) :
    ∃ codes, coding.encodeAll codes = bytes ∧ result = f (coding.events codes) := by
  cases hsplit : framing.split bytes with
  | error report =>
      rw [hsplit] at hread
      cases hread
  | ok frames =>
      obtain ⟨codes, rfl, -⟩ := coding.exists_codes_of_splitFrom hsplit
      rw [map_rows_split_encodeAll] at hread
      injection hread with hresult
      exact ⟨codes, rfl, hresult.symm⟩

end Coding

end HypervisorTrace.Wire
