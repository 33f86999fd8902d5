import HypervisorTrace.Event.Id
import HypervisorTrace.Event.Payload

/-!
Items are the records of a stream as they are stored, each by itself. Besides its id and its extra
words an item has a head, which differs from framing to framing. Which processor an item comes
from is not stored in it; a change of processor is an item of its own and holds for those after
it.

A framing says how the first item of a stream is told from what follows it; a stream is
split by taking items off its front until nothing is left. Splitting fails when the stream ends
inside an item, and says where that item starts and how many bytes it lacks.
-/

namespace HypervisorTrace.Wire

structure Item (Head : Type) where
  id : Word
  /-- What the framing stores besides the id and the extra words. -/
  head : Head
  extra : Event.Payload
  deriving DecidableEq

/-- An item and where it starts in the stream, in bytes. -/
structure Frame (Head : Type) where
  offset : Nat
  item : Item Head
  deriving DecidableEq

/-- An item that is an event, with its place in the stream and the processor it comes from. -/
structure Row (Head : Type) where
  offset : Nat
  cpu : UInt16
  item : Item Head
  deriving DecidableEq

section Rows

variable {Head : Type}

def Item.isCpuChange (item : Item Head) : Bool :=
  item.id == Event.Id.cpuChange

/-- The processor that a change of processor names: the lower half of its first extra word. -/
def Item.newCpu (item : Item Head) : UInt16 :=
  Word.lower (item.extra.word 0)

def rowsFrom (cpu : UInt16) : List (Frame Head) → List (Row Head)
  | [] => []
  | ⟨offset, item⟩ :: rest =>
    if item.isCpuChange then
      rowsFrom item.newCpu rest
    else
      ⟨offset, cpu, item⟩ :: rowsFrom cpu rest

/-- The events of a stream. A stream starts on processor zero. -/
def rows (frames : List (Frame Head)) : List (Row Head) :=
  rowsFrom 0 frames

end Rows

structure Framing (Head : Type) where
  /-- The first item and what follows it, or the number of bytes that are missing. -/
  next : List UInt8 → Except Nat (Item Head × List UInt8)
  size : Item Head → Nat
  size_pos : ∀ item, 0 < size item
  /-- Taking an item off leaves the rest of the bytes. -/
  length_of_next : ∀ {bytes item rest}, next bytes = .ok (item, rest) →
    bytes.length = size item + rest.length

structure Truncation where
  offset : Nat
  /-- The number of bytes that are known to be missing. -/
  needed : Nat
  deriving DecidableEq

def Framing.splitFrom {Head : Type} (framing : Framing Head) (offset : Nat) (bytes : List UInt8) :
    Except Truncation (List (Frame Head)) :=
  match bytes with
  | [] => .ok []
  | first :: others =>
    match _taken : framing.next (first :: others) with
    | .error needed => .error ⟨offset, needed⟩
    | .ok (item, rest) =>
      match framing.splitFrom (offset + framing.size item) rest with
      | .error truncation => .error truncation
      | .ok frames => .ok (⟨offset, item⟩ :: frames)
termination_by bytes.length
decreasing_by
  have total := framing.length_of_next _taken
  have progress := framing.size_pos item
  omega

def Framing.split {Head : Type} (framing : Framing Head) (bytes : List UInt8) :
    Except Truncation (List (Frame Head)) :=
  framing.splitFrom 0 bytes

end HypervisorTrace.Wire
