import HypervisorTrace.Proofs.Wire.Truncation
import HypervisorTrace.Proofs.Word.Fields
import HypervisorTrace.Wire.Trec

/-!
The encoder of the tracing tool's framing, and its coding: the framing takes
off exactly what the encoder writes. The header word of an item is put
together from three bit fields. Both directions rest on the same view of it,
as a sum in which each field has its own range of digits.
-/

namespace HypervisorTrace.Wire.Trec

/-- What the framing can store of one record: an id of 28 bits, a counter or
none, and at most seven extra words. -/
structure Stored where
  id : Word
  counter : Option UInt64
  extra : List Word
  id_lt : id.toNat < 0x10000000 := by decide
  extra_le : extra.length ≤ 7 := by decide

namespace Stored

def item (stored : Stored) : Item (Option UInt64) :=
  ⟨stored.id, stored.counter, stored.extra⟩

def header (stored : Stored) : Word :=
  stored.id ||| UInt32.ofNat stored.extra.length <<< 28 |||
    (if stored.counter.isSome then (1 : Word) <<< 31 else 0)

/-- The words after the header: the counter, low word first, and the extra
words. -/
def body (stored : Stored) : List Word :=
  match stored.counter with
  | some counter => Word.low counter :: Word.high counter :: stored.extra
  | none => stored.extra

def encode (stored : Stored) : List UInt8 :=
  encodeWords (stored.header :: stored.body)

theorem toNat_header (stored : Stored) :
    stored.header.toNat = stored.id.toNat + 0x10000000 * stored.extra.length +
      (if stored.counter.isSome then 0x80000000 else 0) := by
  have hid := stored.id_lt
  have hextra := stored.extra_le
  have hcount : (UInt32.ofNat stored.extra.length <<< 28).toNat =
      2 ^ 28 * stored.extra.length := by
    rw [UInt32.toNat_shiftLeft, UInt32.toNat_ofNat', Nat.shiftLeft_eq]
    have hshift : (28 : UInt32).toNat % 32 = 28 := rfl
    rw [hshift]
    omega
  have hlow : (stored.id ||| UInt32.ofNat stored.extra.length <<< 28).toNat =
      2 ^ 28 * stored.extra.length + stored.id.toNat := by
    rw [UInt32.toNat_or, hcount, Nat.or_comm, Nat.two_pow_add_eq_or_of_lt hid]
  unfold header
  cases stored.counter with
  | none =>
      simp only [Option.isSome_none, Bool.false_eq_true, if_false, UInt32.or_zero, hlow]
      omega
  | some counter =>
      simp only [Option.isSome_some, if_true, UInt32.toNat_or, hlow]
      have hflag : ((1 : UInt32) <<< 31).toNat = 2 ^ 31 * 1 := by decide
      have hbound : 2 ^ 28 * stored.extra.length + stored.id.toNat < 2 ^ 31 := by omega
      rw [hflag, Nat.or_comm, ← Nat.two_pow_add_eq_or_of_lt hbound]
      omega

end Stored

theorem extraCount_eq (header : Word) :
    extraCount header = header.toNat / 0x10000000 % 8 := by
  rw [extraCount, Word.toNat_and_eq_mod _ _ 3 rfl, Word.toNat_shiftRight_eq_div _ _ 28 rfl]
  rfl

theorem hasCounter_eq (header : Word) :
    hasCounter header = decide (0x80000000 ≤ header.toNat) := by
  have hbound := header.toNat_lt
  have hone : (1 : UInt32).toNat = 1 := rfl
  rw [hasCounter, beq_eq_decide, decide_eq_decide, ← UInt32.toNat_inj,
    Word.toNat_shiftRight_eq_div _ _ 31 rfl, hone]
  omega

namespace Stored

theorem number_header (stored : Stored) : Event.Id.number stored.header = stored.id := by
  have hid := stored.id_lt
  apply UInt32.toNat_inj.mp
  rw [Event.Id.toNat_number, toNat_header]
  split <;> omega

theorem extraCount_header (stored : Stored) :
    extraCount stored.header = stored.extra.length := by
  have hid := stored.id_lt
  have hextra := stored.extra_le
  rw [extraCount_eq, toNat_header]
  split <;> omega

theorem hasCounter_header (stored : Stored) :
    hasCounter stored.header = stored.counter.isSome := by
  have hid := stored.id_lt
  have hextra := stored.extra_le
  rw [hasCounter_eq, toNat_header]
  cases stored.counter with
  | none =>
      simp only [Option.isSome_none, Bool.false_eq_true, if_false, decide_eq_false_iff_not]
      omega
  | some counter =>
      simp only [Option.isSome_some, if_true, decide_eq_true_eq]
      omega

theorem bodyCount_header (stored : Stored) :
    bodyCount stored.header = stored.body.length := by
  rw [bodyCount, hasCounter_header, extraCount_header]
  unfold body
  cases stored.counter with
  | none => simp
  | some counter =>
      simp only [Option.isSome_some, if_true, List.length_cons]
      omega

theorem item_header (stored : Stored) :
    Trec.item stored.header stored.body = stored.item := by
  rw [Trec.item, hasCounter_header, number_header]
  unfold body item
  cases stored.counter with
  | none => rfl
  | some counter => simp [Word.wide_high_low]

theorem next_encode (stored : Stored) (rest : List UInt8) :
    next (stored.encode ++ rest) = .ok (stored.item, rest) := by
  rw [encode, encodeWords_cons, List.append_assoc, next, takeWord_toBytes]
  dsimp only
  rw [bodyCount_header, takeWords_encodeWords]
  dsimp only
  rw [item_header]

/-- Every header with as many words after it as it announces is written for
some item. -/
theorem exists_of_words (header : Word) (words : List Word)
    (hlength : words.length = bodyCount header) :
    ∃ stored : Stored, stored.header = header ∧ stored.body = words := by
  have hbound := header.toNat_lt
  have hid : (Event.Id.number header).toNat < 0x10000000 := Event.Id.number_lt header
  rw [bodyCount, extraCount_eq, hasCounter_eq] at hlength
  by_cases hcounter : 0x80000000 ≤ header.toNat
  · simp only [hcounter, decide_true, if_true] at hlength
    rcases words with _ | ⟨low, _ | ⟨high, extra⟩⟩
    · rw [List.length_nil] at hlength
      omega
    · rw [List.length_singleton] at hlength
      omega
    · have hextra : extra.length = header.toNat / 0x10000000 % 8 := by
        rw [List.length_cons, List.length_cons] at hlength
        omega
      let stored : Stored := ⟨Event.Id.number header, some (Word.wide high low), extra,
        hid, by omega⟩
      refine ⟨stored, ?_, ?_⟩
      · apply UInt32.toNat_inj.mp
        rw [toNat_header]
        simp only [stored, Option.isSome_some, if_true, Event.Id.toNat_number, hextra]
        omega
      · simp only [stored, body, Word.low_wide, Word.high_wide]
  · simp only [hcounter, decide_false, Bool.false_eq_true, if_false, Nat.zero_add] at hlength
    let stored : Stored := ⟨Event.Id.number header, none, words, hid, by omega⟩
    refine ⟨stored, ?_, rfl⟩
    apply UInt32.toNat_inj.mp
    rw [toNat_header]
    simp only [stored, Option.isSome_none, Bool.false_eq_true, if_false, Event.Id.toNat_number,
      hlength]
    omega

theorem exists_of_next {bytes rest : List UInt8} {taken : Item (Option UInt64)}
    (hnext : next bytes = .ok (taken, rest)) :
    ∃ stored : Stored, stored.item = taken ∧ stored.encode ++ rest = bytes := by
  unfold next at hnext
  split at hnext
  · cases hnext
  · rename_i header left hheader
    split at hnext
    · cases hnext
    · rename_i words tail hwords
      cases hnext
      have hlength := (length_of_takeWords hwords).1
      obtain ⟨stored, rfl, rfl⟩ := exists_of_words header words hlength
      refine ⟨stored, stored.item_header.symm, ?_⟩
      rw [encode, encodeWords_cons, List.append_assoc, bytes_of_takeWords hwords,
        bytes_of_takeWord hheader]

/-- An item determines the form in which it is stored. -/
theorem item_injective : Function.Injective item := by
  intro first second hitem
  obtain ⟨id, counter, extra, _, _⟩ := first
  obtain ⟨id', counter', extra', _, _⟩ := second
  simp only [item, Item.mk.injEq] at hitem
  obtain ⟨rfl, rfl, rfl⟩ := hitem
  rfl

theorem encode_injective : Function.Injective encode := by
  intro first second hbytes
  have hfirst := first.next_encode []
  rw [hbytes, second.next_encode []] at hfirst
  injection hfirst with hpair
  exact item_injective (congrArg Prod.fst hpair).symm

end Stored

/-- The coding of the tracing tool's framing. -/
def coding : Coding framing Stored where
  encode := Stored.encode
  item := Stored.item
  next_encode := Stored.next_encode
  exists_code := Stored.exists_of_next

/-- A header of one word, and a body of as many as its bits announce. -/
def parts : Parts framing where
  headerWords := 1
  bodyWords := fun header => bodyCount (header.getD 0 0)
  item := fun header body => Trec.item (header.getD 0 0) body
  next_eq := by
    intro bytes
    change next bytes = _
    rw [next, takeWords]
    cases takeWord bytes <;> rfl

end HypervisorTrace.Wire.Trec
