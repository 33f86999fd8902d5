import HypervisorTrace.Proofs.Event.Description
import HypervisorTrace.Proofs.Word.Fields

/-!
Narrow and wide variants of an event. An event with addresses of 64 bits has
the id of the one with addresses of 32 bits, and the wide flag besides. Each
address takes two words there, the lower half first, so that the words after it
move up by one.

The layout of a wide variant is that of the narrow one with all indices moved,
addresses shown in full, and in events of paravirtualized guests the other name
of the instruction pointer. This is checked pair by pair; what the descriptions
have to do with each other follows for all payloads at once.
-/

namespace HypervisorTrace.Event

namespace Catalogue

/-- The tables with events that come in two variants. -/
def variants : List Definition :=
  Hvm.transitions ++ Hvm.handlers ++ Paravirtual.entries ++ Shadow.pairs.flatten

/-- Which words of a narrow payload are addresses, with the events that have
them there. -/
def addressTable : List (List Nat × List String) :=
  [ ([1], ["VMEXIT", "nVMEXIT", "PF_INJECT", "CR_READ", "CR_WRITE", "INVLPG"]),
    ([0], ["PF_XEN", "LMSW"]),
    ([0], ["hypercall", "trap", "forced_invalid_op", "emulate_privop", "emulate_4G"]),
    ([0, 1], ["page_fault", "paging_fixup", "gdt_ldt_mapping_fault"]),
    ([2, 3], ["ptwr_emulation", "ptwr_emulation_pae"]),
    ([], ["math_state_restore"]),
    ([2], ["shadow_not_shadow"]),
    ([0], ["shadow_fast_propagate", "shadow_fast_mmio", "shadow_false_fast_path", "shadow_mmio",
      "shadow_domf_dying"]),
    ([0], ["shadow_emulate_wrmap_bf", "shadow_emulate_prealloc_unpin",
      "shadow_emulate_resync_full", "shadow_emulate_resync_only"]),
    ([0, 1], ["shadow_fixup", "shadow_emulate_unshadow_user", "shadow_emulate_unshadow_evtinj",
      "shadow_emulate_unshadow_unhandled"]),
    ([0, 1, 2], ["shadow_emulate"]) ]

theorem mem_all_of_mem_variants {definition : Definition} (hmem : definition ∈ variants) :
    definition ∈ all := by
  simp only [variants, List.mem_append] at hmem
  simp only [all, List.mem_append]
  tauto

end Catalogue

/-- The words of a narrow payload that are addresses. -/
def Definition.addresses (definition : Definition) : List Nat :=
  ((Catalogue.addressTable.find? fun entry => definition.name ∈ entry.2).map (·.1)).getD []

/-- The instruction pointer by the name it has on a processor of 64 bits. -/
def renamePointer : List Char → List Char
  | 'e' :: 'i' :: 'p' :: rest => 'r' :: 'i' :: 'p' :: renamePointer rest
  | char :: rest => char :: renamePointer rest
  | [] => []

/-- A text between two numbers, as it stands in the wide variant. -/
def Definition.relabel (definition : Definition) (content : String) : String :=
  if definition.eventClass = .paravirtual then String.ofList (renamePointer content.toList)
  else content

/-- What an event shows if each field of its layout is shown as a text. -/
def Definition.infoBy (definition : Definition) (shown : Field → String) : Info :=
  match definition.layout with
  | none => .empty
  | some layout => .text (String.join (layout.map shown))

section Payload

variable (addresses : List Nat) (high : Nat → Word)

/-- A narrow payload with the upper half of each address put right after the
address. -/
def Payload.widen (payload : Payload) : Payload :=
  payload.zipIdx.flatMap fun (word, index) =>
    if index ∈ addresses then [word, high index] else [word]

/-- Where a word of a narrow payload is in the wide one. -/
def Payload.place : Nat → Nat
  | 0 => 0
  | index + 1 => place index + if index ∈ addresses then 2 else 1

namespace Payload

theorem widen_append_singleton (front : Payload) (last : Word) :
    widen addresses high (front ++ [last]) =
      front.widen addresses high ++
        if front.length ∈ addresses then [last, high front.length] else [last] := by
  simp [widen, List.zipIdx_append]

theorem length_widen (payload : Payload) :
    (payload.widen addresses high).length = place addresses payload.length := by
  induction payload using List.reverseRecOn with
  | nil => rfl
  | append_singleton front last ih =>
      rw [widen_append_singleton, List.length_append, ih, List.length_append,
        List.length_singleton, place]
      split <;> rfl

/-- A wide payload is cut at the place of a word: the words before it come
first, then the word, and its upper half if it is an address. -/
theorem exists_widen_eq_append {payload : Payload} {index : Nat} (hindex : index < payload.length) :
    ∃ front rest : Payload, front.length = place addresses index ∧
      payload.widen addresses high = front ++
        ((if index ∈ addresses then [payload.word index, high index]
          else [payload.word index]) ++ rest) := by
  -- From the last word backwards, since the indices of the words before it do not
  -- depend on it.
  induction payload using List.reverseRecOn with
  | nil => exact absurd hindex (Nat.not_lt_zero index)
  | append_singleton front last ih =>
      rw [widen_append_singleton]
      by_cases hfront : index < front.length
      · obtain ⟨before, rest, hbefore, hwiden⟩ := ih hfront
        refine ⟨before, rest ++ if front.length ∈ addresses then [last, high front.length]
          else [last], hbefore, ?_⟩
        rw [hwiden, word_append_left hfront, List.append_assoc, List.append_assoc]
      · have hlast : index = front.length := by
          rw [List.length_append, List.length_singleton] at hindex
          omega
        subst hlast
        refine ⟨widen addresses high front, [], length_widen addresses high front, ?_⟩
        simp [word]

theorem word_widen {payload : Payload} {index : Nat} (hindex : index < payload.length) :
    (payload.widen addresses high).word (place addresses index) = payload.word index := by
  obtain ⟨front, rest, hfront, hwiden⟩ := exists_widen_eq_append addresses high hindex
  rw [hwiden, ← hfront]
  split <;> simp [word]

theorem word_widen_address {payload : Payload} {index : Nat} (hindex : index < payload.length)
    (haddress : index ∈ addresses) :
    (payload.widen addresses high).word (place addresses index + 1) = high index := by
  obtain ⟨front, rest, hfront, hwiden⟩ := exists_widen_eq_append addresses high hindex
  rw [hwiden, ← hfront, if_pos haddress]
  simp [word]

end Payload

end Payload

namespace Definition

variable (narrow : Definition)

/-- A field of a narrow variant as the wide variant shows it: an address of 32
bits becomes one of 64 with the given upper half, a text is relabelled, and
every other field is shown as in the narrow variant. -/
def renderWide (payload : Payload) (high : Nat → Word) : Field → String
  | .text content => narrow.relabel content
  | .hex digits index =>
    if digits = 8 ∧ index ∈ narrow.addresses then
      "0x" ++ Text.hex 16
        ((high index).toUInt64 <<< 32 ||| (payload.word index).toUInt64).toNat
    else
      (Field.hex digits index).render payload
  | field => field.render payload

/-- The field of the wide variant in the place of one of the narrow variant. -/
def widenField : Field → Field
  | .text content => .text (narrow.relabel content)
  | .hex digits index =>
    if digits = 8 ∧ index ∈ narrow.addresses then
      .wide (Payload.place narrow.addresses index + 1) (Payload.place narrow.addresses index)
    else
      .hex digits (Payload.place narrow.addresses index)
  | .bare digits index => .bare digits (Payload.place narrow.addresses index)
  | .signed index => .signed (Payload.place narrow.addresses index)
  | .wide high low =>
    .wide (Payload.place narrow.addresses high) (Payload.place narrow.addresses low)
  | .guest index => .guest (Payload.place narrow.addresses index)

/-- Whether a definition is the wide variant of another, field by field. -/
structure Widens (wide : Definition) : Prop where
  name : wide.name = narrow.name
  words : wide.words = Payload.place narrow.addresses narrow.words
  layout : wide.layout = narrow.layout.map (·.map narrow.widenField)
  noGuest : ∀ field ∈ narrow.fields, ∀ index < narrow.words, field ≠ .guest index
  shown : ∀ index ∈ narrow.addresses, .hex 8 index ∈ narrow.fields

instance (narrow wide : Definition) : Decidable (narrow.Widens wide) :=
  decidable_of_iff
    (wide.name = narrow.name ∧ wide.words = Payload.place narrow.addresses narrow.words ∧
      wide.layout = narrow.layout.map (·.map narrow.widenField) ∧
      (∀ field ∈ narrow.fields, ∀ index < narrow.words, field ≠ .guest index) ∧
      ∀ index ∈ narrow.addresses, .hex 8 index ∈ narrow.fields)
    ⟨fun ⟨name, words, layout, noGuest, shown⟩ => ⟨name, words, layout, noGuest, shown⟩,
      fun ⟨name, words, layout, noGuest, shown⟩ => ⟨name, words, layout, noGuest, shown⟩⟩

variable {narrow}

theorem Widens.render_widenField {wide : Definition} (hwidens : narrow.Widens wide)
    {payload : Payload} (hlength : payload.length = narrow.words)
    (hfits : narrow.fields.Fits narrow.words) (high : Nat → Word) {field : Field}
    (hfield : field ∈ narrow.fields) :
    (narrow.widenField field).render (payload.widen narrow.addresses high) =
      narrow.renderWide payload high field := by
  have hwithin : ∀ index ∈ field.words, index < payload.length := by
    intro index hindex
    rw [hlength]
    exact hfits.within field hfield index hindex
  cases field with
  | text content => rfl
  | hex digits index =>
      have hindex := hwithin index (by simp [Field.words])
      have hword := Payload.word_widen narrow.addresses high hindex
      by_cases haddress : digits = 8 ∧ index ∈ narrow.addresses
      · obtain ⟨rfl, haddress⟩ := haddress
        have hhigh := Payload.word_widen_address narrow.addresses high hindex haddress
        simp only [widenField, renderWide, haddress, and_self, if_true, Field.render,
          Payload.wideHex, Payload.wide, hword, hhigh, Word.wide_eq_shiftLeft_or]
      · simp only [widenField, renderWide, haddress, if_false, Field.render, hword]
  | bare digits index =>
      have hword := Payload.word_widen narrow.addresses high
        (hwithin index (by simp [Field.words]))
      simp only [widenField, renderWide, Field.render, hword]
  | signed index =>
      have hword := Payload.word_widen narrow.addresses high
        (hwithin index (by simp [Field.words]))
      simp only [widenField, renderWide, Field.render, Payload.signed, hword]
  | wide upper lower =>
      have hupper := Payload.word_widen narrow.addresses high
        (hwithin upper (by simp [Field.words]))
      have hlower := Payload.word_widen narrow.addresses high
        (hwithin lower (by simp [Field.words]))
      simp only [widenField, renderWide, Field.render, Payload.wideHex, Payload.wide, hupper,
        hlower]
  | guest index =>
      have hindex := hfits.within _ hfield index (by simp [Field.words])
      exact absurd rfl (hwidens.noGuest _ hfield index hindex)

theorem info_eq_infoBy (definition : Definition) (payload : Payload) :
    definition.info payload = definition.infoBy (Field.render payload) := by
  cases hlayout : definition.layout with
  | none => simp only [info, infoBy, hlayout]
  | some layout => simp only [info, infoBy, hlayout, Layout.render_eq_join]

/-- The wide variant shows of a widened payload what the narrow one shows of
the payload, field by field. -/
theorem Widens.info_of_widen {wide : Definition} (hwidens : narrow.Widens wide)
    {payload : Payload} (hlength : payload.length = narrow.words)
    (hfits : narrow.fields.Fits narrow.words) (high : Nat → Word) :
    wide.info (payload.widen narrow.addresses high) =
      narrow.infoBy (narrow.renderWide payload high) := by
  rw [info_eq_infoBy, infoBy, hwidens.layout, infoBy]
  cases hlayout : narrow.layout with
  | none => rfl
  | some layout =>
      have hfields : narrow.fields = layout := by rw [fields, hlayout, Option.getD_some]
      simp only [Option.map_some, List.map_map]
      congr 2
      apply List.map_congr_left
      intro field hfield
      exact hwidens.render_widenField hlength hfits high (hfields ▸ hfield)

end Definition

/-- In the tables with two variants, a definition with an id and one with the
wide flag added to it are variants of each other. -/
theorem Catalogue.widens_of_mem_variants :
    ∀ narrow ∈ variants, ∀ wide ∈ variants, narrow.id &&& Id.wideFlag = 0 →
      wide.id = narrow.id ||| Id.wideFlag → narrow.Widens wide := by
  decide +kernel

/-- The two variants of an event have the same name. With the upper half of
each address put after the lower, a payload of the narrow variant is one of the
wide variant, and its description is that of the narrow payload with each
address shown in full, and with the instruction pointer renamed in events of
paravirtualized guests. All other fields and the order of the fields are the
same. -/
theorem variants_agree {narrow wide : Definition} (hnarrow : narrow ∈ Catalogue.variants)
    (hwide : wide ∈ Catalogue.variants) (hclear : narrow.id &&& 0x100 = 0)
    (hid : wide.id = narrow.id ||| 0x100) {payload : Payload}
    (hlength : payload.length = narrow.words) (high : Nat → Word) :
    name wide.id = name narrow.id ∧
      words? wide.id = some (payload.widen narrow.addresses high).length ∧
      (∀ index ∈ narrow.addresses, .hex 8 index ∈ narrow.fields) ∧
      info narrow.id payload = narrow.infoBy (Field.render payload) ∧
      info wide.id (payload.widen narrow.addresses high) =
        narrow.infoBy (narrow.renderWide payload high) := by
  have hwidens := Catalogue.widens_of_mem_variants narrow hnarrow wide hwide hclear hid
  have hlisted := Catalogue.mem_all_of_mem_variants hnarrow
  have hfind := Catalogue.lookup_of_mem_all hlisted
  have hfindWide := Catalogue.lookup_of_mem_all (Catalogue.mem_all_of_mem_variants hwide)
  refine ⟨?_, ?_, hwidens.shown, ?_, ?_⟩
  · simp only [name, name?, hfind, hfindWide, Option.map_some, Option.getD_some, hwidens.name]
  · rw [words?, hfindWide, Option.map_some, hwidens.words, Payload.length_widen, hlength]
  · rw [info_of_lookup hfind, Definition.info_eq_infoBy]
  · rw [info_of_lookup hfindWide]
    exact hwidens.info_of_widen hlength (Catalogue.fits_of_mem_all narrow hlisted) high

/-- The emulation of a write to a page table: the address and the instruction
pointer take two words each in the wide variant, and the new entry before them
stays where it is. -/
theorem variants_agree_ptwr_emulation :
    name 0x0020110b = name 0x0020100b ∧
      info 0x0020100b [0x25, 1, 0x7000, 0x1000] =
        .text "addr = 0x00007000, eip = 0x00001000, npte = 0x0000000100000025" ∧
      info 0x0020110b [0x25, 1, 0x7000, 0xffff8002, 0x1000, 0xffff8003] =
        .text "addr = 0xffff800200007000, rip = 0xffff800300001000, npte = 0x0000000100000025" := by
  have hnarrow : event 0x0020100b "ptwr_emulation" 4
      ["addr = ", .hex 8 2, ", eip = ", .hex 8 3, ", npte = ", .wide 1 0] ∈
        Catalogue.variants := by
    simp [Catalogue.variants, Catalogue.Paravirtual.entries]
  have hwide : event 0x0020110b "ptwr_emulation" 6
      ["addr = ", .wide 3 2, ", rip = ", .wide 5 4, ", npte = ", .wide 1 0] ∈
        Catalogue.variants := by
    simp [Catalogue.variants, Catalogue.Paravirtual.entries]
  have hlength : ([0x25, 1, 0x7000, 0x1000] : Payload).length = 4 := rfl
  obtain ⟨hname, -, -, hinfo, hinfoWide⟩ := variants_agree hnarrow hwide (by decide) (by decide)
    hlength fun index => 0xffff8000 + index.toUInt32
  refine ⟨hname, hinfo.trans ?_, hinfoWide.trans ?_⟩
  · decide +kernel
  · decide +kernel

end HypervisorTrace.Event
