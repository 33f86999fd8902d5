import HypervisorTrace.Proofs.Wire.Truncation
import HypervisorTrace.Wire.FixedHeader

/-!
The encoder of the framing with a fixed header, and its coding. Unlike the
tracing tool's framing this one stores bits that no item has: the upper four
bits of the id word. A stored form therefore keeps the whole word, and two
forms that differ only there store the same item.

The length of a form is not stored in it. That the framing finds its end
again rests on the one condition of a form: it has as many extra words as the
catalogue gives its id.
-/

namespace HypervisorTrace.Wire.FixedHeader

/-- A record as it is stored. The id is the lower 28 bits of its first word. -/
structure Stored where
  word : Word
  packed : Word
  counter : UInt64
  extra : List Word
  extra_length : extra.length = extraCount (Event.Id.number word) := by decide

namespace Stored

def item (stored : Stored) : Item Head :=
  ⟨Event.Id.number stored.word, ⟨Guest.ofPacked stored.packed, stored.counter⟩, stored.extra⟩

/-- The four words of the header. The counter stands low word first. -/
def header (stored : Stored) : List Word :=
  [stored.word, stored.packed, Word.low stored.counter, Word.high stored.counter]

def encode (stored : Stored) : List UInt8 :=
  encodeWords (stored.header ++ stored.extra)

theorem length_encode (stored : Stored) :
    stored.encode.length = 16 + 4 * stored.extra.length := by
  rw [encode, length_encodeWords, header, List.length_append]
  simp only [List.length_cons, List.length_nil]
  omega

theorem next_encode (stored : Stored) (rest : List UInt8) :
    next (stored.encode ++ rest) = .ok (stored.item, rest) := by
  have hheader := takeWords_encodeWords stored.header (encodeWords stored.extra ++ rest)
  have hextra := takeWords_encodeWords stored.extra rest
  have hfour : stored.header.length = 4 := rfl
  have hid : headerId stored.header = Event.Id.number stored.word := rfl
  rw [hfour] at hheader
  rw [stored.extra_length, ← hid] at hextra
  rw [encode, encodeWords_append, List.append_assoc, next, hheader]
  dsimp only
  rw [hextra]
  dsimp only
  rw [item, header, headerId, head]
  simp only [List.getD_cons_zero, List.getD_cons_succ, Word.wide_high_low]

/-- Every header of four words with as many words after it as the catalogue
gives its id is written for some record. -/
theorem exists_of_words {first extra : List Word} (hfirst : first.length = 4)
    (hextra : extra.length = extraCount (headerId first)) :
    ∃ stored : Stored, stored.header = first ∧ stored.extra = extra ∧
      stored.item = ⟨headerId first, head first, extra⟩ := by
  rcases first with _ | ⟨word, _ | ⟨packed, _ | ⟨low, _ | ⟨high, rest⟩⟩⟩⟩
  · cases hfirst
  · cases hfirst
  · cases hfirst
  · cases hfirst
  · have hnil : rest = [] := by
      simpa using hfirst
    subst hnil
    refine ⟨⟨word, packed, Word.wide high low, extra, hextra⟩, ?_, rfl, rfl⟩
    rw [header, Word.low_wide, Word.high_wide]

theorem exists_of_next {bytes rest : List UInt8} {taken : Item Head}
    (hnext : next bytes = .ok (taken, rest)) :
    ∃ stored : Stored, stored.item = taken ∧ stored.encode ++ rest = bytes := by
  unfold next at hnext
  split at hnext
  · cases hnext
  · rename_i first left hfirst
    split at hnext
    · cases hnext
    · rename_i extra tail hextra
      cases hnext
      obtain ⟨stored, hheader, hwords, hitem⟩ :=
        exists_of_words (length_of_takeWords hfirst).1 (length_of_takeWords hextra).1
      refine ⟨stored, hitem, ?_⟩
      rw [encode, hheader, hwords, encodeWords_append, List.append_assoc,
        bytes_of_takeWords hextra, bytes_of_takeWords hfirst]

theorem encode_injective : Function.Injective encode := by
  intro first second hbytes
  have hwords := encodeWords_injective hbytes
  obtain ⟨word, packed, counter, extra, hextra⟩ := first
  obtain ⟨word', packed', counter', extra', hextra'⟩ := second
  simp only [header, List.cons_append, List.nil_append, List.cons.injEq] at hwords
  obtain ⟨rfl, rfl, hlow, hhigh, rfl⟩ := hwords
  have hcounter : counter = counter' := by
    rw [← Word.wide_high_low counter, hlow, hhigh, Word.wide_high_low]
  rw [hcounter]

end Stored

/-- The coding of the framing with a fixed header. -/
def coding : Coding framing Stored where
  encode := Stored.encode
  item := Stored.item
  next_encode := Stored.next_encode
  exists_code := Stored.exists_of_next

/-- A header of four words, and a body of as many as the catalogue tells. -/
def parts : Parts framing where
  headerWords := 4
  bodyWords := fun header => extraCount (headerId header)
  item := fun header body => ⟨headerId header, head header, body⟩
  next_eq := fun _ => rfl

end HypervisorTrace.Wire.FixedHeader
