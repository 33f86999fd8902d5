import HypervisorTrace.Event.Catalogue
import HypervisorTrace.Record
import HypervisorTrace.Wire.Framing
import HypervisorTrace.Wire.Words

/-!
The framing with a fixed header of four words: the id, the packed guest, and the two words of the
cycle counter. How many extra words follow is not stored: the catalogue tells, and an event that
it does not know has none.
-/

namespace HypervisorTrace.Wire.FixedHeader

structure Head where
  guest : Guest
  counter : UInt64
  deriving DecidableEq

def extraCount (id : Word) : Nat :=
  (Event.words? id).getD 0

def head (header : List Word) : Head :=
  ⟨Guest.ofPacked (header.getD 1 0), Word.wide (header.getD 3 0) (header.getD 2 0)⟩

def headerId (header : List Word) : Word :=
  Event.Id.number (header.getD 0 0)

def next (bytes : List UInt8) : Except Nat (Item Head × List UInt8) :=
  match takeWords 4 bytes with
  | .error missing => .error missing
  | .ok (header, rest) =>
    match takeWords (extraCount (headerId header)) rest with
    | .error missing => .error missing
    | .ok (extra, rest) => .ok (⟨headerId header, head header, extra⟩, rest)

def size (item : Item Head) : Nat :=
  16 + 4 * item.extra.length

theorem length_of_next {bytes rest : List UInt8} {item : Item Head}
    (h : next bytes = .ok (item, rest)) : bytes.length = size item + rest.length := by
  unfold next at h
  split at h
  · cases h
  · rename_i front
    split at h
    · cases h
    · rename_i tail
      cases h
      have first := length_of_takeWords front
      have others := length_of_takeWords tail
      simp only [size]
      omega

def framing : Framing Head where
  next := next
  size := size
  size_pos := fun item => by
    unfold size
    omega
  length_of_next := length_of_next

/-- The record of a row: everything but the processor is stored with it. -/
def record (row : Row Head) : Record where
  eventId := row.item.id
  cpu := row.cpu
  counter := row.item.head.counter
  guest := row.item.head.guest
  extra := row.item.extra
  offset := row.offset

end HypervisorTrace.Wire.FixedHeader
