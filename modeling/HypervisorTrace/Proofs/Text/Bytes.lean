import HypervisorTrace.Text
import Mathlib.Data.String.Basic
import Mathlib.Tactic

/-!
The bytes of a text. A text is kept as the bytes that encode it, so a character
of one byte is not in a text whose bytes do not have that one. Bytes are
computed much faster than characters, which matters for tables of texts.

The order of texts is the order of their bytes. A character with a higher number
is encoded by a first byte that is higher, because it announces more bytes or has
higher bits of the number in it, or by the same first byte and a later one that is
higher. So two texts differ in the same direction in characters and in bytes.
-/

namespace HypervisorTrace.Text

def bytes (text : String) : List UInt8 :=
  text.toByteArray.data.toList

theorem utf8_eq_bytes (text : String) : utf8 text = bytes text := by
  have hsame : (utf8 text).toByteArray = text.toByteArray := by
    conv_rhs => rw [← String.ofList_toList (s := text), String.toByteArray_ofList]
    rw [utf8, List.utf8Encode]
  rw [bytes, ← hsame, List.data_toByteArray]

theorem notMem_of_byte {text : String} {char : Char} {byte : UInt8}
    (hchar : String.utf8EncodeChar char = [byte]) (hbyte : byte ∉ bytes text) :
    char ∉ text.toList := by
  intro hmem
  apply hbyte
  rw [← utf8_eq_bytes, utf8, List.mem_flatMap]
  exact ⟨char, hmem, hchar ▸ List.mem_singleton_self byte⟩

/-- The first byte in which two characters differ is higher in the higher one,
whatever follows them. -/
theorem utf8EncodeChar_append_lt {low high : Char} (hlt : low < high) (rest others : List UInt8) :
    String.utf8EncodeChar low ++ rest < String.utf8EncodeChar high ++ others := by
  have hnumbers : low.val.toNat < high.val.toNat := hlt
  have hbound : high.val.toNat < 0x110000 := by
    rcases high.valid with hplane | ⟨-, hplane⟩
    · exact Nat.lt_trans hplane (by decide)
    · exact hplane
  -- Six bits of the number go into each byte but the first.
  have htwelve (number : Nat) : number / 4096 = number / 64 / 64 := by omega
  have heighteen (number : Nat) : number / 262144 = number / 64 / 64 / 64 := by omega
  rw [String.utf8EncodeChar.eq_1, String.utf8EncodeChar.eq_1]
  simp only [htwelve, heighteen]
  repeat' split
  all_goals
    simp only [List.cons_append, List.nil_append, List.cons_lt_cons_iff, UInt8.lt_iff_toNat_lt,
      ← UInt8.toNat_inj, UInt8.toNat_ofNat']
    omega

theorem flatMap_utf8EncodeChar_lt {low high : List Char} (hlt : low < high) :
    low.flatMap String.utf8EncodeChar < high.flatMap String.utf8EncodeChar := by
  induction hlt with
  | @nil first rest =>
      obtain ⟨byte, bytes, hbytes⟩ := List.exists_cons_of_ne_nil
        (@String.utf8EncodeChar_ne_nil first)
      simp [hbytes]
  | @rel first rest other others hfirst =>
      simp only [List.flatMap_cons]
      exact utf8EncodeChar_append_lt hfirst _ _
  | @cons first rest others hrest ih =>
      simp only [List.flatMap_cons]
      exact List.append_left_lt ih

/-- One text is before another exactly if its bytes are. -/
theorem utf8_lt_utf8_iff {low high : String} : utf8 low < utf8 high ↔ low < high := by
  rw [String.lt_iff_toList_lt]
  constructor
  · intro hbytes
    rcases lt_trichotomy low high with hlt | rfl | hgt
    · exact String.lt_iff_toList_lt.mp hlt
    · exact absurd hbytes (List.lt_irrefl _)
    · have hback := flatMap_utf8EncodeChar_lt (String.lt_iff_toList_lt.mp hgt)
      exact absurd hbytes (List.lt_asymm hback)
  · exact flatMap_utf8EncodeChar_lt

end HypervisorTrace.Text
