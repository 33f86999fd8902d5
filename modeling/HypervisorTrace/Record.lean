import HypervisorTrace.Event.Class
import HypervisorTrace.Event.Payload

/-!
Guests, and trace records, which are complete: a record tells not only what the stream says of it,
but also the processor it was recorded on, the guest that was running there, and its time.

A guest is a virtual processor of a domain. One domain number is kept for the idle domain, whose
virtual processors stand for physical ones that have nothing to run.
-/

namespace HypervisorTrace

/-- A virtual processor of a domain. -/
structure Guest where
  domain : UInt16
  vcpu : UInt16
  deriving DecidableEq

namespace Guest

def idleDomain : UInt16 := 0x7fff

def idle (cpu : UInt16) : Guest :=
  ⟨idleDomain, cpu⟩

def isIdle (guest : Guest) : Bool :=
  guest.domain == idleDomain

/-- The guest as it is shown: `idle/vN`, or `dD/vN`. -/
def label (guest : Guest) : String :=
  if guest.isIdle then
    "idle/v" ++ toString guest.vcpu.toNat
  else
    "d" ++ toString guest.domain.toNat ++ "/v" ++ toString guest.vcpu.toNat

/-- The word that packs a guest, the domain in its upper half. -/
def packed (guest : Guest) : Word :=
  UInt32.ofNat (0x10000 * guest.domain.toNat + guest.vcpu.toNat)

def ofPacked (word : Word) : Guest :=
  ⟨Word.upper word, Word.lower word⟩

/-- The task number of a guest: zero for the idle domain, otherwise one more than its packed word
as a signed number. -/
def pid (guest : Guest) : Int :=
  if guest.isIdle then 0 else Word.toSigned guest.packed + 1

@[simp] theorem ofPacked_packed (guest : Guest) : ofPacked guest.packed = guest := by
  obtain ⟨domain, vcpu⟩ := guest
  have hd := domain.toNat_lt
  have hv := vcpu.toNat_lt
  simp only [ofPacked, packed, Word.upper, Word.lower, UInt32.toNat_ofNat', Guest.mk.injEq]
  constructor <;>
    · apply UInt16.toNat_inj.1
      simp only [UInt16.toNat_ofNat']
      omega

end Guest

structure Record where
  eventId : Word
  cpu : UInt16
  counter : UInt64
  guest : Guest
  extra : Event.Payload
  /-- Where the record starts in the stream, in bytes. -/
  offset : Nat
  deriving DecidableEq

def Record.eventClass (record : Record) : Event.Class :=
  Event.Class.ofId record.eventId

end HypervisorTrace
