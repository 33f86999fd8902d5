import HypervisorTrace.Proofs.Wire.Truncation

/-!
Reading with length checks. Here it is a fault of its own to take a word where
the bytes end, and the length of each part of an item is checked before its
words are taken. The checks suffice: no word is ever taken that is not there,
and what they report is what splitting reports, which finds the end of the
bytes while it takes words.
-/

namespace HypervisorTrace.Wire

variable {Head : Type} {framing : Framing Head}

/-- How reading fails: a check reports missing bytes, or a word is taken past
the end. -/
inductive ReadFault where
  | truncated (report : Truncation)
  | pastEnd
  deriving DecidableEq

/-- Checks that bytes suffice for a part of the item that starts at an
offset. -/
def checkLength (start size : Nat) (bytes : List UInt8) : Except ReadFault Unit :=
  if bytes.length < size then .error (.truncated ⟨start, size - bytes.length⟩) else .ok ()

def readWords : Nat → List UInt8 → Except ReadFault (List Word × List UInt8)
  | 0, bytes => .ok ([], bytes)
  | count + 1, a :: b :: c :: d :: rest =>
    (readWords count rest).map fun (words, left) => (Word.ofBytes a b c d :: words, left)
  | _ + 1, _ => .error .pastEnd

theorem readWords_of_takeWords {count : Nat} {bytes : List UInt8} {taken : List Word × List UInt8}
    (htake : takeWords count bytes = .ok taken) : readWords count bytes = .ok taken := by
  induction count generalizing bytes taken with
  | zero =>
      cases htake
      rfl
  | succ count ih =>
      rcases bytes with _ | ⟨a, _ | ⟨b, _ | ⟨c, _ | ⟨d, left⟩⟩⟩⟩
      · cases htake
      · cases htake
      · cases htake
      · cases htake
      · rw [takeWords, takeWord] at htake
        dsimp only at htake
        cases hwords : takeWords count left with
        | error missing =>
            rw [hwords] at htake
            cases htake
        | ok others =>
            rw [hwords] at htake
            cases htake
            rw [readWords, ih hwords]
            rfl

/-- A part of the item that starts at an offset, read after its length has been
checked. -/
def readPart (start count : Nat) (bytes : List UInt8) :
    Except ReadFault (List Word × List UInt8) := do
  checkLength start (4 * count) bytes
  readWords count bytes

/-- With the check before it, reading words does what taking them does. -/
theorem readPart_eq (start count : Nat) (bytes : List UInt8) :
    readPart start count bytes =
      (takeWords count bytes).mapError fun missing => .truncated ⟨start, missing⟩ := by
  by_cases hshort : bytes.length < 4 * count
  · rw [readPart, checkLength, if_pos hshort, takeWords_of_length_lt hshort]
    rfl
  · obtain ⟨words, rest, htake⟩ := exists_takeWords (Nat.le_of_not_lt hshort)
    rw [readPart, checkLength, if_neg hshort, htake]
    exact readWords_of_takeWords htake

namespace Parts

variable (parts : Parts framing)

/-- The first item of a stream, which starts at an offset. -/
def read (start : Nat) (bytes : List UInt8) : Except ReadFault (Item Head × List UInt8) := do
  let (header, rest) ← readPart start parts.headerWords bytes
  let (body, rest) ← readPart start (parts.bodyWords header) rest
  return (parts.item header body, rest)

theorem read_eq (start : Nat) (bytes : List UInt8) :
    parts.read start bytes =
      (framing.next bytes).mapError fun missing => .truncated ⟨start, missing⟩ := by
  rw [read, readPart_eq, parts.next_eq]
  cases takeWords parts.headerWords bytes with
  | error missing => rfl
  | ok taken =>
      obtain ⟨header, rest⟩ := taken
      have hbody := readPart_eq start (parts.bodyWords header) rest
      dsimp only [Except.mapError, bind, Except.bind]
      rw [hbody]
      cases takeWords (parts.bodyWords header) rest <;> rfl

theorem length_of_read {start : Nat} {bytes rest : List UInt8} {item : Item Head}
    (hread : parts.read start bytes = .ok (item, rest)) :
    bytes.length = framing.size item + rest.length := by
  rw [read_eq] at hread
  cases hnext : framing.next bytes with
  | error missing =>
      rw [hnext] at hread
      cases hread
  | ok taken =>
      rw [hnext] at hread
      cases hread
      exact framing.length_of_next hnext

/-- The items of a stream, read one after the other until nothing is left. -/
def readFrom (parts : Parts framing) (offset : Nat) (bytes : List UInt8) :
    Except ReadFault (List (Frame Head)) :=
  match bytes with
  | [] => .ok []
  | first :: others =>
    match _taken : parts.read offset (first :: others) with
    | .error fault => .error fault
    | .ok (item, rest) =>
      (parts.readFrom (offset + framing.size item) rest).map (⟨offset, item⟩ :: ·)
termination_by bytes.length
decreasing_by
  have total := parts.length_of_read _taken
  have progress := framing.size_pos item
  omega

theorem readFrom_of_ok {offset : Nat} {bytes rest : List UInt8} {item : Item Head}
    (hread : parts.read offset bytes = .ok (item, rest)) :
    parts.readFrom offset bytes =
      (parts.readFrom (offset + framing.size item) rest).map (⟨offset, item⟩ :: ·) := by
  have htotal := parts.length_of_read hread
  have hpos := framing.size_pos item
  cases bytes with
  | nil =>
      rw [List.length_nil] at htotal
      omega
  | cons first others =>
      rw [readFrom]
      split
      · rename_i fault hfault
        rw [hread] at hfault
        cases hfault
      · rename_i taken left htaken
        rw [hread] at htaken
        cases htaken
        rfl

theorem readFrom_of_error {offset : Nat} {bytes : List UInt8} {fault : ReadFault}
    (hne : bytes ≠ []) (hread : parts.read offset bytes = .error fault) :
    parts.readFrom offset bytes = .error fault := by
  cases bytes with
  | nil => exact absurd rfl hne
  | cons first others =>
      rw [readFrom]
      split
      · rename_i other hfault
        rw [hread] at hfault
        cases hfault
        rfl
      · rename_i taken left htaken
        rw [hread] at htaken
        cases htaken

/-- Reading with length checks fails only where a check fails, and there it
reports what splitting reports. -/
theorem readFrom_eq (offset : Nat) (bytes : List UInt8) :
    parts.readFrom offset bytes = (framing.splitFrom offset bytes).mapError .truncated := by
  induction bytes using framing.streamInduction generalizing offset with
  | nil =>
      rw [readFrom, Framing.splitFrom_nil]
      rfl
  | cut bytes missing hne hnext =>
      have hread := parts.read_eq offset bytes
      rw [hnext] at hread
      rw [parts.readFrom_of_error hne hread, Framing.splitFrom_of_error hne hnext]
      rfl
  | item bytes taken rest hnext ih =>
      have hread := parts.read_eq offset bytes
      rw [hnext] at hread
      rw [parts.readFrom_of_ok hread, ih, Framing.splitFrom_of_next hnext]
      cases framing.splitFrom (offset + framing.size taken) rest <;> rfl

end Parts

end HypervisorTrace.Wire
