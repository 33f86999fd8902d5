import HypervisorTrace.Proofs.Wire.Coding
import HypervisorTrace.Proofs.Wire.Words

/-!
Streams that end inside an item. In any framing that takes its items in two
parts, a header of a fixed size and a body whose size the header tells, the
bytes that are reported missing are exactly those that complete the part in
which the stream ends: with fewer of them the report is the same but for those
that are there, and with all of them the item is complete, or its body is
found to be missing.
-/

namespace HypervisorTrace.Wire

variable {Head Code : Type} {framing : Framing Head}

theorem takeWords_append {count : Nat} {bytes rest : List UInt8} {words : List Word}
    (htake : takeWords count bytes = .ok (words, rest)) (more : List UInt8) :
    takeWords count (bytes ++ more) = .ok (words, rest ++ more) := by
  have hwords := takeWords_encodeWords words (rest ++ more)
  rw [(length_of_takeWords htake).1] at hwords
  rw [← bytes_of_takeWords htake, List.append_assoc, hwords]

/-- How a framing takes an item in two parts. -/
structure Parts (framing : Framing Head) where
  headerWords : Nat
  /-- The number of words in the body after a header. -/
  bodyWords : List Word → Nat
  /-- The item with a header and a body. -/
  item : List Word → List Word → Item Head
  next_eq : ∀ bytes, framing.next bytes =
    match takeWords headerWords bytes with
    | .error missing => .error missing
    | .ok (header, rest) =>
      match takeWords (bodyWords header) rest with
      | .error missing => .error missing
      | .ok (body, rest) => .ok (item header body, rest)

namespace Parts

variable (parts : Parts framing)

theorem next_of_header_cut {bytes : List UInt8} (hcut : bytes.length < 4 * parts.headerWords) :
    framing.next bytes = .error (4 * parts.headerWords - bytes.length) := by
  rw [parts.next_eq, takeWords_of_length_lt hcut]

theorem next_of_body_cut {bytes rest : List UInt8} {header : List Word}
    (hheader : takeWords parts.headerWords bytes = .ok (header, rest))
    (hcut : rest.length < 4 * parts.bodyWords header) :
    framing.next bytes = .error (4 * parts.bodyWords header - rest.length) := by
  rw [parts.next_eq, hheader]
  dsimp only
  rw [takeWords_of_length_lt hcut]

/-- A stream that ends where the body of its first item ends is that item. -/
theorem next_of_body_filled {bytes rest : List UInt8} {header : List Word}
    (hheader : takeWords parts.headerWords bytes = .ok (header, rest))
    (hfilled : rest.length = 4 * parts.bodyWords header) :
    ∃ item, framing.next bytes = .ok (item, []) := by
  obtain ⟨body, tail, hbody⟩ := exists_takeWords (Nat.le_of_eq hfilled.symm)
  have htotal := (length_of_takeWords hbody).2
  have hnil : tail = [] := List.eq_nil_of_length_eq_zero (by omega)
  refine ⟨parts.item header body, ?_⟩
  rw [parts.next_eq, hheader]
  dsimp only
  rw [hbody, hnil]

/-- An item lacks bytes of its header, or its header is there and it lacks
bytes of its body. -/
theorem cut_of_next_error {bytes : List UInt8} {missing : Nat}
    (hnext : framing.next bytes = .error missing) :
    (bytes.length < 4 * parts.headerWords ∧
        missing = 4 * parts.headerWords - bytes.length) ∨
      ∃ header rest, takeWords parts.headerWords bytes = .ok (header, rest) ∧
        rest.length < 4 * parts.bodyWords header ∧
        missing = 4 * parts.bodyWords header - rest.length := by
  by_cases hheader : bytes.length < 4 * parts.headerWords
  · rw [parts.next_of_header_cut hheader] at hnext
    injection hnext with hmissing
    exact Or.inl ⟨hheader, hmissing.symm⟩
  · obtain ⟨header, rest, htake⟩ := exists_takeWords (Nat.le_of_not_lt hheader)
    by_cases hbody : rest.length < 4 * parts.bodyWords header
    · rw [parts.next_of_body_cut htake hbody] at hnext
      injection hnext with hmissing
      exact Or.inr ⟨header, rest, htake, hbody, hmissing.symm⟩
    · obtain ⟨body, tail, hwords⟩ := exists_takeWords (Nat.le_of_not_lt hbody)
      rw [parts.next_eq, htake] at hnext
      dsimp only at hnext
      rw [hwords] at hnext
      cases hnext

theorem missing_pos (parts : Parts framing) {bytes : List UInt8} {missing : Nat}
    (hnext : framing.next bytes = .error missing) : 0 < missing := by
  rcases parts.cut_of_next_error hnext with ⟨hcut, rfl⟩ | ⟨header, rest, -, hcut, rfl⟩ <;> omega

theorem next_append_of_lt (parts : Parts framing) {bytes more : List UInt8} {missing : Nat}
    (hnext : framing.next bytes = .error missing) (hmore : more.length < missing) :
    framing.next (bytes ++ more) = .error (missing - more.length) := by
  rcases parts.cut_of_next_error hnext with ⟨hcut, rfl⟩ | ⟨header, rest, htake, hcut, rfl⟩
  · rw [parts.next_of_header_cut (by rw [List.length_append]; omega), List.length_append,
      Nat.sub_add_eq]
  · rw [parts.next_of_body_cut (takeWords_append htake more) (by rw [List.length_append]; omega),
      List.length_append, Nat.sub_add_eq]

/-- With the bytes that it lacked an item is complete, unless these complete
its header only. -/
theorem next_append_of_eq {bytes more : List UInt8} {missing : Nat}
    (hnext : framing.next bytes = .error missing) (hmore : more.length = missing) :
    (∃ item, framing.next (bytes ++ more) = .ok (item, [])) ∨
      (∃ others, framing.next (bytes ++ more) = .error others) ∧
        bytes.length < 4 * parts.headerWords := by
  rcases parts.cut_of_next_error hnext with ⟨hcut, rfl⟩ | ⟨header, rest, htake, hcut, rfl⟩
  · have hlength : (bytes ++ more).length = 4 * parts.headerWords := by
      rw [List.length_append]
      omega
    obtain ⟨header, rest, htake⟩ := exists_takeWords (Nat.le_of_eq hlength.symm)
    have hrest := (length_of_takeWords htake).2
    by_cases hbody : rest.length < 4 * parts.bodyWords header
    · exact Or.inr ⟨⟨_, parts.next_of_body_cut htake hbody⟩, hcut⟩
    · exact Or.inl (parts.next_of_body_filled htake (by omega))
  · refine Or.inl (parts.next_of_body_filled (takeWords_append htake more) ?_)
    rw [List.length_append]
    omega

end Parts

/-- Stored forms and the beginning of another item fail at that item. -/
theorem Coding.split_of_cut (coding : Coding framing Code) (codes : List Code) {rest : List UInt8}
    {missing : Nat} (hrest : rest ≠ []) (hnext : framing.next rest = .error missing) :
    framing.split (coding.encodeAll codes ++ rest) =
      .error ⟨(coding.encodeAll codes).length, missing⟩ := by
  rw [Framing.split, coding.splitFrom_encodeAll_append, Nat.zero_add,
    Framing.splitFrom_of_error hrest hnext]
  rfl

/-- What makes a report of missing bytes exact. It blames an item of the stream
before which all can be read. With fewer bytes than it asks for, the report is
the same but for those that are there. With as many as it asks for, the stream
is read, or it ended in the header of the item and still lacks bytes of its
body. -/
structure ExactReport {α : Type} (read : List UInt8 → Except Truncation α) (headerSize : Nat)
    (bytes : List UInt8) (report : Truncation) : Prop where
  needed_pos : 1 ≤ report.needed
  offset_lt : report.offset < bytes.length
  before : ∃ result, read (bytes.take report.offset) = .ok result
  fewer : ∀ more : List UInt8, more.length < report.needed →
    read (bytes ++ more) = .error ⟨report.offset, report.needed - more.length⟩
  filled : ∀ more : List UInt8, more.length = report.needed →
    (∃ result, read (bytes ++ more) = .ok result) ∨
      (∃ needed, read (bytes ++ more) = .error ⟨report.offset, needed⟩) ∧
        bytes.length < report.offset + headerSize

theorem ExactReport.map {α β : Type} {read : List UInt8 → Except Truncation α} {headerSize : Nat}
    {bytes : List UInt8} {report : Truncation} (hreport : ExactReport read headerSize bytes report)
    (f : α → β) : ExactReport (fun bytes => (read bytes).map f) headerSize bytes report where
  needed_pos := hreport.needed_pos
  offset_lt := hreport.offset_lt
  before := by
    obtain ⟨result, hresult⟩ := hreport.before
    rw [hresult]
    exact ⟨f result, rfl⟩
  fewer := by
    intro more hmore
    rw [hreport.fewer more hmore]
    rfl
  filled := by
    intro more hmore
    rcases hreport.filled more hmore with ⟨result, hresult⟩ | ⟨⟨needed, hneeded⟩, hheader⟩
    · rw [hresult]
      exact Or.inl ⟨f result, rfl⟩
    · rw [hneeded]
      exact Or.inr ⟨⟨needed, rfl⟩, hheader⟩

/-- Splitting reports exactly. What has been split before the item that lacks
bytes stays as it is, so all depends on taking that one item off. -/
theorem Coding.split_exactReport (coding : Coding framing Code) (parts : Parts framing)
    {bytes : List UInt8} {report : Truncation} (hsplit : framing.split bytes = .error report) :
    ExactReport framing.split (4 * parts.headerWords) bytes report := by
  obtain ⟨codes, rest, rfl, hrest, hoffset, hnext⟩ :=
    coding.exists_codes_of_splitFrom_error hsplit
  obtain ⟨offset, needed⟩ := report
  obtain rfl : offset = (coding.encodeAll codes).length := by simpa using hoffset
  dsimp only at hnext
  have hpos := parts.missing_pos hnext
  have hlength := List.length_pos_iff.mpr hrest
  have hfail {more : List UInt8} {missing : Nat}
      (hmore : framing.next (rest ++ more) = .error missing) :
      framing.split (coding.encodeAll codes ++ rest ++ more) =
        .error ⟨(coding.encodeAll codes).length, missing⟩ := by
    rw [List.append_assoc]
    exact coding.split_of_cut codes (by simp [hrest]) hmore
  constructor
  case needed_pos => exact hpos
  case offset_lt =>
    rw [List.length_append]
    dsimp only
    omega
  case before =>
    rw [List.take_left]
    exact ⟨_, coding.splitFrom_encodeAll codes 0⟩
  case fewer =>
    intro more hmore
    exact hfail (parts.next_append_of_lt hnext hmore)
  case filled =>
    intro more hmore
    rcases parts.next_append_of_eq hnext hmore with ⟨item, hitem⟩ | ⟨⟨missing, hmissing⟩, hheader⟩
    · refine Or.inl ⟨coding.framesFrom 0 codes ++ [⟨(coding.encodeAll codes).length, item⟩], ?_⟩
      rw [List.append_assoc, Framing.split, coding.splitFrom_encodeAll_append, Nat.zero_add,
        Framing.splitFrom_of_next hitem, Framing.splitFrom_nil]
      rfl
    · refine Or.inr ⟨⟨missing, hfail hmissing⟩, ?_⟩
      rw [List.length_append]
      dsimp only
      omega

end HypervisorTrace.Wire
