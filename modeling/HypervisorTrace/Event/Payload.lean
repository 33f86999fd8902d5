import HypervisorTrace.Text
import HypervisorTrace.Word

/-!
The extra words of a record. A record may carry fewer words than its event asks for; the words that
are missing read as zero, so no reader of a payload has to count.
-/

namespace HypervisorTrace.Event

abbrev Payload := List Word

namespace Payload

/-- The word at an index, zero past the end. -/
def word (payload : Payload) (index : Nat) : Word :=
  payload.getD index 0

def signed (payload : Payload) (index : Nat) : Int :=
  Word.toSigned (payload.word index)

def wide (payload : Payload) (high low : Nat) : UInt64 :=
  Word.wide (payload.word high) (payload.word low)

def wideHex (payload : Payload) (high low : Nat) : String :=
  "0x" ++ Text.hex 16 (payload.wide high low).toNat

/-- The domain and the virtual processor at an index. They take two words, unless the first of them
is the last word of the payload: then that word packs both, the domain in its upper half. -/
def guestWords (payload : Payload) (index : Nat) : Word × Word :=
  if payload.length = index + 1 then
    (payload.word index >>> 16, payload.word index &&& 0xffff)
  else
    (payload.word index, payload.word (index + 1))

def guestHex (payload : Payload) (index : Nat) : String :=
  let (domain, vcpu) := payload.guestWords index
  "0x" ++ Text.hex 4 domain.toNat ++ Text.hex 4 vcpu.toNat

end Payload

end HypervisorTrace.Event
