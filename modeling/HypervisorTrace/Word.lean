/-!
Thirty-two-bit words and the bytes they are stored as. A trace stream is a sequence of words, each
written least significant byte first; a 64-bit counter takes two words, the low one first.
-/

namespace HypervisorTrace

abbrev Word := UInt32

namespace Word

/-- The word stored as the four given bytes, least significant first. -/
def ofBytes (a b c d : UInt8) : Word :=
  UInt32.ofNat (a.toNat + 0x100 * b.toNat + 0x10000 * c.toNat + 0x1000000 * d.toNat)

def toBytes (w : Word) : List UInt8 :=
  [UInt8.ofNat w.toNat, UInt8.ofNat (w.toNat / 0x100), UInt8.ofNat (w.toNat / 0x10000),
    UInt8.ofNat (w.toNat / 0x1000000)]

def wide (high low : Word) : UInt64 :=
  UInt64.ofNat (0x100000000 * high.toNat + low.toNat)

def high (value : UInt64) : Word :=
  UInt32.ofNat (value.toNat / 0x100000000)

def low (value : UInt64) : Word :=
  UInt32.ofNat value.toNat

/-- A word read as a two's complement number. -/
def toSigned (w : Word) : Int :=
  if w.toNat < 0x80000000 then w.toNat else (w.toNat : Int) - 0x100000000

def upper (w : Word) : UInt16 :=
  UInt16.ofNat (w.toNat / 0x10000)

def lower (w : Word) : UInt16 :=
  UInt16.ofNat w.toNat

@[simp] theorem length_toBytes (w : Word) : (toBytes w).length = 4 := rfl

theorem ofBytes_toBytes (w : Word) :
    ofBytes (UInt8.ofNat w.toNat) (UInt8.ofNat (w.toNat / 0x100))
      (UInt8.ofNat (w.toNat / 0x10000)) (UInt8.ofNat (w.toNat / 0x1000000)) = w := by
  apply UInt32.toNat_inj.1
  have bound := w.toNat_lt
  simp only [ofBytes, UInt32.toNat_ofNat', UInt8.toNat_ofNat']
  omega

theorem toBytes_ofBytes (a b c d : UInt8) : toBytes (ofBytes a b c d) = [a, b, c, d] := by
  have ha := a.toNat_lt
  have hb := b.toNat_lt
  have hc := c.toNat_lt
  have hd := d.toNat_lt
  simp only [toBytes, ofBytes, UInt32.toNat_ofNat', List.cons.injEq, and_true]
  refine ⟨?_, ?_, ?_, ?_⟩ <;>
    · apply UInt8.toNat_inj.1
      simp only [UInt8.toNat_ofNat']
      omega

theorem wide_high_low (value : UInt64) : wide (high value) (low value) = value := by
  apply UInt64.toNat_inj.1
  have bound := value.toNat_lt
  simp only [wide, high, low, UInt32.toNat_ofNat', UInt64.toNat_ofNat']
  omega

theorem low_wide (high low : Word) : Word.low (wide high low) = low := by
  have hhigh := high.toNat_lt
  have hlow := low.toNat_lt
  apply UInt32.toNat_inj.1
  simp only [wide, Word.low, UInt32.toNat_ofNat', UInt64.toNat_ofNat']
  omega

theorem high_wide (high low : Word) : Word.high (wide high low) = high := by
  have hhigh := high.toNat_lt
  have hlow := low.toNat_lt
  apply UInt32.toNat_inj.1
  simp only [wide, Word.high, UInt32.toNat_ofNat', UInt64.toNat_ofNat']
  omega

end Word

end HypervisorTrace
