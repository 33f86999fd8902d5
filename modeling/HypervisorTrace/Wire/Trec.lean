import HypervisorTrace.Wire.Framing
import HypervisorTrace.Wire.Words

/-!
The framing of the tracing tool. The header word of an item holds its id, the number of its extra
words in bits 28 to 30, and in bit 31 whether a cycle counter stands between header and extra
words. The counter is the only head: an item does not name its guest, and need not name its time.
-/

namespace HypervisorTrace.Wire.Trec

def hasCounter (header : Word) : Bool :=
  header >>> 31 == 1

def extraCount (header : Word) : Nat :=
  ((header >>> 28) &&& 0x7).toNat

/-- The number of words that follow a header in its item. -/
def bodyCount (header : Word) : Nat :=
  (if hasCounter header then 2 else 0) + extraCount header

/-- The item with a header and the words that follow it. A counter is stored low word first. -/
def item (header : Word) (body : List Word) : Item (Option UInt64) :=
  if hasCounter header then
    ⟨Event.Id.number header, some (Word.wide (body.getD 1 0) (body.getD 0 0)), body.drop 2⟩
  else
    ⟨Event.Id.number header, none, body⟩

def next (bytes : List UInt8) : Except Nat (Item (Option UInt64) × List UInt8) :=
  match takeWord bytes with
  | .error missing => .error missing
  | .ok (header, rest) =>
    match takeWords (bodyCount header) rest with
    | .error missing => .error missing
    | .ok (body, rest) => .ok (item header body, rest)

def size (item : Item (Option UInt64)) : Nat :=
  4 + (if item.head.isSome then 8 else 0) + 4 * item.extra.length

theorem size_item {header : Word} {body : List Word} (h : body.length = bodyCount header) :
    size (item header body) = 4 + 4 * body.length := by
  unfold item
  split
  · rename_i counted
    simp only [bodyCount, counted, if_true] at h
    simp only [size, Option.isSome_some, if_true, List.length_drop]
    omega
  · simp [size]

theorem length_of_next {bytes rest : List UInt8} {item : Item (Option UInt64)}
    (h : next bytes = .ok (item, rest)) : bytes.length = size item + rest.length := by
  unfold next at h
  split at h
  · cases h
  · rename_i head
    split at h
    · cases h
    · rename_i tail
      cases h
      have first := length_of_takeWord head
      have others := length_of_takeWords tail
      rw [size_item others.1]
      omega

def framing : Framing (Option UInt64) where
  next := next
  size := size
  size_pos := fun item => by
    unfold size
    omega
  length_of_next := length_of_next

end HypervisorTrace.Wire.Trec
