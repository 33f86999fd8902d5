import HypervisorTrace.Proofs.Format.Truncation
import HypervisorTrace.Proofs.Session.Opening
import HypervisorTrace.TraceFile

/-!
What comes of opening a stream. Its first word is looked at twice, once to tell
whether the stream is a trace at all and once by the reader, which has its own
reports. Here the outcome is told by the bytes and the framing alone, with one
case for each thing that can happen. The cases exclude each other, and one of
them always holds.
-/

namespace HypervisorTrace

namespace Wire

/-- Why bytes are not taken for a trace: there are none, they are fewer than a
word, or their first word does not have the id of a change of processor. -/
inductive Refusal (bytes : List UInt8) : StreamError → Prop where
  | empty (hbytes : bytes = []) : Refusal bytes .empty
  | short (hpos : 1 ≤ bytes.length) (hlength : bytes.length ≤ 3) :
      Refusal bytes (.truncated ⟨0, 4 - bytes.length⟩)
  | foreign (first : Word) (rest : List UInt8) (hbytes : Word.toBytes first ++ rest = bytes)
      (hid : first &&& 0x0fffffff ≠ 0x0001f003) : Refusal bytes (.badSignature first)

/-- Whether the first word of a stream has the id of a change of processor. -/
def StartsWithCpuChange (bytes : List UInt8) : Prop :=
  ∃ first rest, Word.toBytes first ++ rest = bytes ∧ first &&& 0x0fffffff = 0x0001f003

/-- Whether a stream is made of changes of processor and of nothing else. -/
def Format.HoldsCpuChangesOnly (format : Format) (bytes : List UInt8) : Prop :=
  match format with
  | .trec => ∃ items, Trec.coding.encodeAll items = bytes ∧ ∀ stored ∈ items, NamesCpu stored.item
  | .fixedHeader =>
    ∃ records, FixedHeader.coding.encodeAll records = bytes ∧
      ∀ stored ∈ records, NamesCpu stored.item

section Signature

variable {bytes : List UInt8}

/-- Bytes are empty, too few for a word, or start with one. -/
theorem checkSignature_cases (bytes : List UInt8) :
    (bytes = [] ∧ checkSignature bytes = .error .empty) ∨
      (1 ≤ bytes.length ∧ bytes.length ≤ 3 ∧
        checkSignature bytes = .error (.truncated ⟨0, 4 - bytes.length⟩)) ∨
      ∃ first rest, Word.toBytes first ++ rest = bytes := by
  by_cases hempty : bytes = []
  · subst hempty
    exact Or.inl ⟨rfl, rfl⟩
  · by_cases hshort : bytes.length < 4
    · refine Or.inr (Or.inl ⟨List.length_pos_iff.mpr hempty, by omega, ?_⟩)
      rw [checkSignature, if_neg (by simpa using hempty), takeWord_of_length_lt hshort]
    · obtain ⟨first, rest, htake⟩ := exists_takeWord (Nat.le_of_not_lt hshort)
      exact Or.inr (Or.inr ⟨first, rest, bytes_of_takeWord htake⟩)

theorem checkSignature_eq_error_iff {error : StreamError} :
    checkSignature bytes = .error error ↔ Refusal bytes error := by
  constructor
  · intro hcheck
    rcases checkSignature_cases bytes with ⟨hbytes, hempty⟩ | ⟨hpos, hlength, hshort⟩ |
      ⟨first, rest, rfl⟩
    · rw [hempty] at hcheck
      cases hcheck
      exact .empty hbytes
    · rw [hshort] at hcheck
      cases hcheck
      exact .short hpos hlength
    · rw [Session.checkSignature_toBytes_append] at hcheck
      split at hcheck
      · cases hcheck
      · rename_i hid
        cases hcheck
        exact .foreign first rest rfl hid
  · rintro (⟨rfl⟩ | ⟨hpos, hlength⟩ | ⟨first, rest, rfl, hid⟩)
    · rfl
    · rcases checkSignature_cases bytes with ⟨rfl, -⟩ | ⟨-, -, hshort⟩ | ⟨first, rest, rfl⟩
      · exact absurd hpos (Nat.not_succ_le_zero 0)
      · exact hshort
      · rw [List.length_append, Word.length_toBytes] at hlength
        omega
    · rw [Session.checkSignature_toBytes_append]
      exact if_neg hid

theorem checkSignature_eq_ok_iff : checkSignature bytes = .ok () ↔ StartsWithCpuChange bytes := by
  constructor
  · intro hcheck
    rcases checkSignature_cases bytes with ⟨-, hempty⟩ | ⟨-, -, hshort⟩ | ⟨first, rest, rfl⟩
    · rw [hempty] at hcheck
      cases hcheck
    · rw [hshort] at hcheck
      cases hcheck
    · rw [Session.checkSignature_toBytes_append] at hcheck
      split at hcheck
      · rename_i hid
        exact ⟨first, rest, rfl, hid⟩
      · cases hcheck
  · rintro ⟨first, rest, rfl, hid⟩
    exact Session.checkSignature_toBytes hid rest

theorem isTrace_eq_false_iff : isTrace bytes = false ↔ ∃ error, Refusal bytes error := by
  simp only [← checkSignature_eq_error_iff, isTrace]
  cases checkSignature bytes <;> simp

/-- The first four bytes tell whether a stream is a trace. -/
theorem isTrace_take (bytes : List UInt8) : isTrace (bytes.take 4) = isTrace bytes := by
  rcases checkSignature_cases bytes with ⟨rfl, -⟩ | ⟨-, hlength, -⟩ | ⟨first, rest, rfl⟩
  · rfl
  · rw [List.take_of_length_le (by omega)]
  · have htake : (Word.toBytes first ++ rest).take 4 = Word.toBytes first ++ [] := by
      rw [List.append_nil]
      exact List.take_left' (Word.length_toBytes first)
    rw [htake, isTrace, isTrace, Session.checkSignature_toBytes_append,
      Session.checkSignature_toBytes_append]

end Signature

theorem Coding.events_eq_nil_iff {Head Code : Type} {framing : Framing Head}
    (coding : Coding framing Code) {codes : List Code} :
    coding.events codes = [] ↔ ∀ code ∈ codes, NamesCpu (coding.item code) := by
  rw [Coding.events, List.filterMap_eq_nil_iff]
  constructor
  · intro hnone code hcode
    obtain ⟨index, hindex⟩ := List.getElem?_of_mem hcode
    have hevent := hnone (code, index) (List.mk_mem_zipIdx_iff_getElem?.mpr hindex)
    by_contra hnames
    simp [eventAt, hnames] at hevent
  · rintro hnames ⟨code, index⟩ hmem
    have hcode := List.mem_of_getElem? (List.mk_mem_zipIdx_iff_getElem?.mp hmem)
    exact if_pos (hnames code hcode)

/-- A stream is read as no records at all if it is made of changes of processor
only. -/
theorem Format.read_eq_ok_nil_iff {format : Format} {bytes : List UInt8} :
    format.read bytes = .ok [] ↔ format.HoldsCpuChangesOnly bytes := by
  cases format with
  | trec =>
      have hnone (items : List Trec.Stored) :
          Trec.complete (Trec.coding.events items) = [] ↔
            ∀ stored ∈ items, NamesCpu stored.item := by
        rw [← List.length_eq_zero_iff, Trec.complete, Trec.Tracker.length_records,
          List.length_eq_zero_iff]
        exact Trec.coding.events_eq_nil_iff
      constructor
      · intro hread
        obtain ⟨items, hbytes, hrecords⟩ := Trec.exists_items_of_read hread
        exact ⟨items, hbytes, (hnone items).mp hrecords.symm⟩
      · rintro ⟨items, rfl, hnames⟩
        rw [Trec.read_encodeAll, (hnone items).mpr hnames]
  | fixedHeader =>
      have hnone (records : List FixedHeader.Stored) :
          (FixedHeader.coding.events records).map FixedHeader.record = [] ↔
            ∀ stored ∈ records, NamesCpu stored.item := by
        rw [List.map_eq_nil_iff]
        exact FixedHeader.coding.events_eq_nil_iff
      constructor
      · intro hread
        obtain ⟨records, hbytes, hrecords⟩ := FixedHeader.exists_stored_of_read hread
        exact ⟨records, hbytes, (hnone records).mp hrecords.symm⟩
      · rintro ⟨records, rfl, hnames⟩
        rw [FixedHeader.read_encodeAll, (hnone records).mpr hnames]

end Wire

theorem nodup_eraseDups {α : Type} [DecidableEq α] (values : List α) :
    values.eraseDups.Nodup := by
  cases values with
  | nil => exact List.nodup_nil
  | cons first rest =>
      rw [List.eraseDups_cons, List.nodup_cons]
      refine ⟨?_, nodup_eraseDups _⟩
      simp
termination_by values.length
decreasing_by
  have hfilter := List.length_filter_le (fun other => !other == first) rest
  rw [List.length_cons]
  omega

theorem length_eraseDups {α : Type} [DecidableEq α] (values : List α) :
    values.eraseDups.length = values.toFinset.card := by
  have hsame : values.toFinset = values.eraseDups.toFinset := by
    ext value
    rw [List.mem_toFinset, List.mem_toFinset, List.mem_eraseDups]
  rw [hsame, List.toFinset_card_of_nodup (nodup_eraseDups values)]

/-- A property that tells the members of a list apart has as many values on it as
there are members. -/
theorem card_toFinset_map {α β : Type} [DecidableEq α] [DecidableEq β] {tell : α → β}
    {values : List α} (hinjective : Set.InjOn tell {value | value ∈ values}) :
    (values.map tell).toFinset.card = values.toFinset.card := by
  have himage : (values.map tell).toFinset = values.toFinset.image tell := by
    ext told
    simp
  rw [himage]
  apply Finset.card_image_of_injOn
  simpa using hinjective

namespace Session

open Wire

/-- A session as it is opened: it holds the records that the reader has found,
of which there is one at least, it counts the processors among them, and its
times start at zero or at the first record. -/
structure OpenedFrom (bytes : List UInt8) (options : Options) (session : Session) : Prop where
  read : options.format.read bytes = .ok session.records
  nonempty : session.records ≠ []
  chosen : session.options = options
  cpuCount : session.cpuCount = (session.records.map (·.cpu)).toFinset.card
  epoch : session.conversion.epoch =
    if options.clock.absolute then 0 else (session.records.head nonempty).counter

/-- What comes of opening a stream, by its bytes and its framing. -/
inductive Outcome (bytes : List UInt8) (options : Options) :
    Except StreamError Session → Prop where
  | refused {error : StreamError} (hrefusal : Refusal bytes error) :
      Outcome bytes options (.error error)
  | truncated {report : Truncation} (hstart : StartsWithCpuChange bytes)
      (hread : options.format.read bytes = .error report) :
      Outcome bytes options (.error (.truncated report))
  | noEvents (hstart : StartsWithCpuChange bytes)
      (honly : options.format.HoldsCpuChangesOnly bytes) :
      Outcome bytes options (.error .noEvents)
  | opened {session : Session} (hstart : StartsWithCpuChange bytes)
      (hopened : OpenedFrom bytes options session) :
      Outcome bytes options (.ok session)

/-- How opening a stream fails where it is a fault of its own to take a word
past the end of the bytes. -/
inductive OpenFault where
  | stream (error : StreamError)
  | pastEnd

/-- Opening a stream with a reader that checks lengths before it takes
words. -/
def ofBytesChecked (bytes : List UInt8) (options : Options) : Except OpenFault Session := do
  (checkSignature bytes).mapError .stream
  let records ← (options.format.readChecked bytes).mapError fun
    | .truncated report => .stream (.truncated report)
    | .pastEnd => .pastEnd
  if records.isEmpty then .error (.stream .noEvents) else .ok ⟨records, options⟩

variable {bytes : List UInt8} {options : Options}

/-- A session counts each of its processors once. -/
theorem cpuCount_eq_card (session : Session) :
    session.cpuCount = (session.records.map (·.cpu)).toFinset.card :=
  length_eraseDups _

theorem firstCounter_eq_head {session : Session} (hnonempty : session.records ≠ []) :
    session.firstCounter = (session.records.head hnonempty).counter := by
  rw [firstCounter, List.head?_eq_some_head hnonempty]
  rfl

theorem openedFrom_iff {session : Session} :
    OpenedFrom bytes options session ↔
      options.format.read bytes = .ok session.records ∧ session.records ≠ [] ∧
        session.options = options := by
  constructor
  · intro hopened
    exact ⟨hopened.read, hopened.nonempty, hopened.chosen⟩
  · rintro ⟨hread, hnonempty, rfl⟩
    refine ⟨hread, hnonempty, rfl, session.cpuCount_eq_card, ?_⟩
    rw [← firstCounter_eq_head hnonempty]
    rfl

/-- What comes of opening a stream is one of the cases. -/
theorem outcome_ofBytes (bytes : List UInt8) (options : Options) :
    Outcome bytes options (ofBytes bytes options) := by
  rw [ofBytes]
  cases hsignature : checkSignature bytes with
  | error error => exact .refused (checkSignature_eq_error_iff.mp hsignature)
  | ok =>
      have hstart := checkSignature_eq_ok_iff.mp hsignature
      cases hread : options.format.read bytes with
      | error report => exact .truncated hstart hread
      | ok records =>
          cases records with
          | nil => exact .noEvents hstart (Format.read_eq_ok_nil_iff.mp hread)
          | cons first rest =>
              apply Outcome.opened hstart
              exact openedFrom_iff.mpr ⟨hread, List.cons_ne_nil first rest, rfl⟩

/-- In each of the cases that is what comes of opening the stream. -/
theorem Outcome.ofBytes_eq {outcome : Except StreamError Session}
    (houtcome : Outcome bytes options outcome) : ofBytes bytes options = outcome := by
  cases houtcome with
  | refused hrefusal => rw [ofBytes, checkSignature_eq_error_iff.mpr hrefusal]
  | truncated hstart hread => rw [ofBytes, checkSignature_eq_ok_iff.mpr hstart, hread]
  | noEvents hstart honly =>
      rw [ofBytes, checkSignature_eq_ok_iff.mpr hstart, Format.read_eq_ok_nil_iff.mpr honly]
      rfl
  | opened hstart hopened =>
      exact ofBytes_eq_ok_iff.mpr
        ⟨checkSignature_eq_ok_iff.mpr hstart, openedFrom_iff.mp hopened⟩

theorem ofBytesChecked_eq (bytes : List UInt8) (options : Options) :
    ofBytesChecked bytes options = (ofBytes bytes options).mapError .stream := by
  rw [ofBytesChecked, ofBytes, Format.readChecked_eq]
  cases checkSignature bytes with
  | error error => rfl
  | ok =>
      cases options.format.read bytes with
      | error report => rfl
      | ok records => cases records <;> rfl

/-- Opening a stream has one outcome, told by its bytes and its framing. With
length checks the outcome is the same, and no word is ever taken past the end of
the bytes. A stream is no trace if it is refused for its first word, and for a
file only that word has to be read. -/
theorem ofBytes_decided (bytes : List UInt8) (options : Options) :
    (∀ outcome, ofBytes bytes options = outcome ↔ Outcome bytes options outcome) ∧
      ofBytesChecked bytes options = (ofBytes bytes options).mapError .stream ∧
      (isTrace bytes = false ↔
        ∃ error, Refusal bytes error ∧ ofBytes bytes options = .error error) ∧
      isTrace (bytes.take 4) = isTrace bytes ∧
      ∀ store path, checkFormat store path =
        ((store.read path).map isTrace).mapError .unreadable := by
  refine ⟨?_, ofBytesChecked_eq bytes options, ?_, isTrace_take bytes, ?_⟩
  · intro outcome
    constructor
    · rintro rfl
      exact outcome_ofBytes bytes options
    · exact Outcome.ofBytes_eq
  · rw [isTrace_eq_false_iff]
    constructor
    · rintro ⟨error, hrefusal⟩
      exact ⟨error, hrefusal, (Outcome.refused hrefusal).ofBytes_eq⟩
    · rintro ⟨error, hrefusal, -⟩
      exact ⟨error, hrefusal⟩
  · intro store path
    rw [checkFormat]
    cases store.read path with
    | error fault => rfl
    | ok content => exact congrArg Except.ok (isTrace_take content)

end Session

end HypervisorTrace
