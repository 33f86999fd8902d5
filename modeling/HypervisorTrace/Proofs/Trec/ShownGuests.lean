import HypervisorTrace.Proofs.Event.Catalogue
import HypervisorTrace.Proofs.Text.Hexadecimal
import HypervisorTrace.Proofs.Trec.Guests

/-!
The guest that an event shows beside the guest that it sets. An event that
sets a guest describes it after a label, in hexadecimal, and the tracker gives
a guest to the next record of the processor. Both are computed from the words
of the event, each in its own way. They agree but for one event, the switch to
the next guest: a description takes the only word of a payload for a packed
guest and shows two words in full, whereas the tracker always takes the low
halves of two words.
-/

namespace HypervisorTrace

/-- A guest in hexadecimal, the domain and the virtual processor joined to one
number. -/
def Guest.shown (guest : Guest) : String :=
  "0x" ++ Text.hex 4 guest.domain.toNat ++ Text.hex 4 guest.vcpu.toNat

/-- What a text says after a label, up to the next comma. -/
def Text.valueAfter (label text : String) : Option String :=
  (text.toList.dropInfix? label.toList).map fun (_, rest) =>
    String.ofList (rest.takeWhile (· ≠ ','))

namespace Text

theorem dropInfix?_of_head_not_mem {lead label rest : List Char} {mark : Char}
    (hmark : label.head? = some mark) (hlead : mark ∉ lead) :
    (lead ++ label ++ rest).dropInfix? label = some (lead, rest) := by
  rw [List.dropInfix?_eq_some_iff]
  refine ⟨⟨label, rfl, by simp⟩, ?_⟩
  intro earlier label' rest' hsplit hlabel
  obtain rfl := eq_of_beq hlabel
  -- An earlier place of the label would have its first character in the lead.
  by_contra hshort
  have hlt : earlier.length < lead.length := by omega
  have hhere := congrArg (·[earlier.length]?) hsplit
  simp only [List.append_assoc] at hhere
  rw [List.getElem?_append_left hlt, List.getElem?_append_right (Nat.le_refl _), Nat.sub_self,
    ← List.head?_eq_getElem?, List.head?_append, hmark] at hhere
  exact hlead (List.mem_of_getElem? hhere)

/-- The value after a label is what stands between the label and the tail, if
the tail is empty or starts at a comma. -/
theorem valueAfter_append {lead label value tail : String} {mark : Char}
    (hmark : label.toList.head? = some mark) (hlead : mark ∉ lead.toList)
    (hvalue : ',' ∉ value.toList) (htail : tail.toList.takeWhile (· ≠ ',') = []) :
    valueAfter label (lead ++ label ++ (value ++ tail)) = some value := by
  have hnoComma : ∀ char ∈ value.toList, decide (char ≠ ',') = true := by
    intro char hchar
    rw [decide_eq_true_eq]
    rintro rfl
    exact hvalue hchar
  rw [valueAfter, String.toList_append, String.toList_append,
    dropInfix?_of_head_not_mem hmark hlead, Option.map_some]
  dsimp only
  rw [String.toList_append, List.takeWhile_append_of_pos hnoComma, htail, List.append_nil,
    String.ofList_toList]

end Text

/-- The guest that a description shows. -/
def Event.Info.guestShown (info : Info) : Option String :=
  info.text?.bind (Text.valueAfter "dom:vcpu = ")

namespace Wire.Trec

/-- The description of the events that set a guest. -/
def guestLayout (id : Word) : Event.Layout :=
  if id = 0x0002800f then
    ["new_dom:vcpu = ", .guest 0, ", time = ", .signed 2, ", r_time = ", .signed 3]
  else
    ["dom:vcpu = ", .hex 8 0]

theorem layout_of_setsGuest :
    ∀ definition ∈ Event.Catalogue.all, SetsGuest definition.id →
      definition.layout = some (guestLayout definition.id) := by
  decide +kernel

theorem info_of_setsGuest {id : Word} (hid : Event.Id.number id = id) (hsets : SetsGuest id)
    (hknown : (Event.name? id).isSome) (payload : Event.Payload) :
    Event.info id payload = .text ((guestLayout id).render payload) := by
  rw [Event.name?, Option.isSome_map, Option.isSome_iff_exists] at hknown
  obtain ⟨definition, hlookup⟩ := hknown
  obtain ⟨hmem, hsame⟩ := Event.Catalogue.mem_all_of_lookup hlookup
  rw [hid] at hsame
  have hlayout := layout_of_setsGuest definition hmem (by rw [hsame]; exact hsets)
  rw [hsame] at hlayout
  rw [Event.info, hlookup]
  dsimp only
  rw [Event.Definition.info, hlayout]

theorem shown_eq_iff (first second : Nat) (guest : Guest) :
    "0x" ++ Text.hex 4 first ++ Text.hex 4 second = guest.shown ↔
      first = guest.domain.toNat ∧ second = guest.vcpu.toNat := by
  constructor
  · intro hshown
    rw [Guest.shown, String.append_assoc, String.append_assoc, String.append_right_inj] at hshown
    have hdomain : guest.domain.toNat < 16 ^ 4 := by
      have hbound := guest.domain.toNat_lt
      omega
    have hvcpu : guest.vcpu.toNat < 16 ^ 4 := by
      have hbound := guest.vcpu.toNat_lt
      omega
    exact Text.hex_append_hex_inj (by decide) hdomain hvcpu hshown
  · rintro ⟨rfl, rfl⟩
    rfl

theorem shown_ofPacked (word : Word) :
    (Guest.ofPacked word).shown = "0x" ++ Text.hex 8 word.toNat := by
  have hword : word.toNat < 16 ^ (4 + 4) := by
    have hbound := word.toNat_lt
    omega
  have hcut : Text.hex 8 word.toNat =
      Text.hex 4 (word.toNat / 16 ^ 4) ++ Text.hex 4 (word.toNat % 16 ^ 4) :=
    @Text.hex_add 4 4 word.toNat (by decide) (by decide) hword
  rw [hcut, ← String.append_assoc]
  apply Eq.symm
  rw [shown_eq_iff, Guest.ofPacked, Word.toNat_upper, Word.toNat_lower]
  constructor <;> norm_num

/-- Words shown as a guest show the guest that their low halves make if the
words fit into sixteen bits; a single word, shown as a packed guest, if it is
zero. -/
theorem guestHex_eq_shown_iff (payload : Event.Payload) :
    payload.guestHex 0 =
        (Guest.mk (payload.getD 0 0).toUInt16 (payload.getD 1 0).toUInt16).shown ↔
      (payload.length = 1 → payload.getD 0 0 = 0) ∧
      (2 ≤ payload.length →
        (payload.getD 0 0).toNat < 0x10000 ∧ (payload.getD 1 0).toNat < 0x10000) := by
  rw [Event.Payload.guestHex, shown_eq_iff, UInt32.toNat_toUInt16, UInt32.toNat_toUInt16]
  rcases payload with _ | ⟨first, _ | ⟨second, rest⟩⟩
  · exact iff_of_true ⟨rfl, rfl⟩ ⟨by intro; rfl, by intro; exact ⟨by decide, by decide⟩⟩
  · have hwords : Event.Payload.guestWords [first] 0 = (first >>> 16, first &&& 0xffff) := rfl
    have hfirst : ([first] : List Word).getD 0 0 = first := rfl
    have hsecond : (([first] : List Word).getD 1 0).toNat = 0 := rfl
    have hbound := first.toNat_lt
    have hzero : (0 : Word).toNat = 0 := rfl
    rw [hwords, hfirst, hsecond, Word.toNat_shiftRight_eq_div _ _ 16 rfl,
      Word.toNat_and_eq_mod _ _ 16 rfl, List.length_singleton, ← UInt32.toNat_inj, hzero]
    omega
  · have hwords : Event.Payload.guestWords (first :: second :: rest) 0 = (first, second) := by
      simp [Event.Payload.guestWords, Event.Payload.word]
    have hfirst : (first :: second :: rest).getD 0 0 = first := rfl
    have hsecond : (first :: second :: rest).getD 1 0 = second := rfl
    rw [hwords, hfirst, hsecond, List.length_cons, List.length_cons]
    dsimp only
    omega

theorem comma_not_mem_hexPair (first second : Nat) :
    ',' ∉ ("0x" ++ Text.hex 4 first ++ Text.hex 4 second).toList := by
  rw [String.toList_append, String.toList_append, List.mem_append, List.mem_append]
  rintro ((hlead | hfirst) | hsecond)
  · exact absurd hlead (by decide)
  · exact Text.comma_not_mem_hex _ _ hfirst
  · exact Text.comma_not_mem_hex _ _ hsecond

theorem guestShown_layout (id : Word) (payload : Event.Payload) :
    (Event.Info.text ((guestLayout id).render payload)).guestShown =
      some (if id = 0x0002800f then payload.guestHex 0
        else (Guest.ofPacked (payload.word 0)).shown) := by
  have hmark : "dom:vcpu = ".toList.head? = some 'd' := rfl
  rw [guestLayout, Event.Info.guestShown, Event.Info.text?, Option.bind_some]
  split
  · have hlabel : "new_dom:vcpu = " = "new_" ++ "dom:vcpu = " := rfl
    simp only [Event.Layout.render, Event.Field.render]
    rw [hlabel]
    apply Text.valueAfter_append hmark (by decide) (comma_not_mem_hexPair _ _)
    rw [String.toList_append]
    rfl
  · have hlabel : "dom:vcpu = " = "" ++ "dom:vcpu = " := rfl
    simp only [Event.Layout.render, Event.Field.render]
    rw [← shown_ofPacked, hlabel]
    exact Text.valueAfter_append hmark (by decide) (comma_not_mem_hexPair _ _) rfl

/-- When the guest that an event shows is the one that it sets: always, but
for a switch to the next guest. A switch must not have a single word other
than zero, and of two words or more the first two must fit into sixteen
bits. -/
def ShownAsSet (id : Word) (extra : List Word) : Prop :=
  id = 0x0002800f →
    (extra.length = 1 → extra.getD 0 0 = 0) ∧
    (2 ≤ extra.length →
      (extra.getD 0 0).toNat < 0x10000 ∧ (extra.getD 1 0).toNat < 0x10000)

theorem guestShown_layout_iff (id : Word) (extra : List Word) :
    (Event.Info.text ((guestLayout id).render extra)).guestShown =
        some (guestNamed id extra).shown ↔ ShownAsSet id extra := by
  rw [guestShown_layout, Option.some_inj, guestNamed, ShownAsSet]
  split
  · rename_i hswitch
    rw [guestHex_eq_shown_iff]
    exact ⟨fun hwords _ => hwords, fun hwords => hwords hswitch⟩
  · rename_i hpacked
    have hword : Event.Payload.word extra 0 = extra.getD 0 0 := rfl
    rw [hword, ofPacked_eq]
    exact iff_of_true rfl (fun hswitch => absurd hswitch hpacked)

/-- Of two records of one processor without another between them, the first
of an event that sets a guest and is recognized, the first shows the guest of
the second exactly if its words are shown as they are set. -/
theorem shown_guest_is_next_iff {bytes : List UInt8} {records : List Record}
    (hread : Format.trec.read bytes = .ok records)
    (before between after : List Record) (setter next : Record)
    (hrecords : records = before ++ setter :: (between ++ next :: after))
    (hcpu : next.cpu = setter.cpu) (hbetween : ∀ record ∈ between, record.cpu ≠ setter.cpu)
    (hsets : SetsGuest setter.eventId) (hknown : (Event.name? setter.eventId).isSome) :
    (Event.info setter.eventId setter.extra).guestShown = some next.guest.shown ↔
      ShownAsSet setter.eventId setter.extra := by
  obtain ⟨items, -, rfl⟩ := exists_items_of_read hread
  obtain ⟨earlier, row, rest, hrows, -, rfl, hrest⟩ := Tracker.exists_rows_of_records hrecords
  obtain ⟨middle, nextRow, later, rfl, rfl, rfl, -⟩ := Tracker.exists_rows_of_records hrest
  have hid : Event.Id.number row.item.id = row.item.id := by
    have hmem : row ∈ coding.events items := by
      rw [hrows]
      exact List.mem_append_right _ List.mem_cons_self
    obtain ⟨stored, -, hstored⟩ := coding.exists_code_of_mem_events hmem
    rw [hstored]
    exact Event.Id.number_of_lt stored.id_lt
  have hsame : nextRow.cpu = row.cpu := hcpu
  have hmiddle : ∀ other ∈ middle, other.cpu ≠ nextRow.cpu := by
    intro other hother
    have hmem : other.cpu ∈ middle.map (·.cpu) := List.mem_map_of_mem hother
    rw [← Tracker.map_cpu_records] at hmem
    obtain ⟨record, hrecord, hothercpu⟩ := List.mem_map.mp hmem
    rw [← hothercpu, hsame]
    exact hbetween record hrecord
  have hguest := run_guest_eq_guestAfter (coding.events items) (earlier ++ row :: middle)
    nextRow.cpu
  rw [guestAfter_of_setsGuest earlier middle hsame.symm hsets hmiddle, List.append_cons,
    Tracker.run_append] at hguest
  have hinfo := info_of_setsGuest hid hsets hknown row.item.extra
  have hiff := guestShown_layout_iff row.item.id row.item.extra
  rw [← hinfo, ← hguest] at hiff
  exact hiff

/-- A switch on the first processor shows the guest of the next record there,
after a switch on the second one. -/
theorem shown_guest_is_next_iff_two_cpus :
    let items : List Stored :=
      [.mk 0x0002800f (some 10) [5, 1, 100, 200],
        .mk 0x0001f003 none [1],
        .mk 0x0002800f (some 20) [7, 2, 100, 200],
        .mk 0x0001f003 none [0],
        .mk 0x00081001 (some 30) []]
    ∃ records switch other next, Format.trec.read (coding.encodeAll items) = .ok records ∧
      records = [switch, other, next] ∧
      (Event.info switch.eventId switch.extra).guestShown = some next.guest.shown := by
  intro items
  have hread := read_encodeAll items
  refine ⟨_, _, _, _, hread, rfl, ?_⟩
  have hshown := shown_guest_is_next_iff hread [] [_] [] _ _ rfl rfl (by decide) (by decide)
    (by decide)
  exact hshown.mpr (fun _ => by decide)

/-- A switch with a single word that packs a guest shows that guest, but the
next record of the processor is in another one. -/
theorem switch_with_packed_word_shows_other_guest :
    let items : List Stored :=
      [.mk 0x0001f003 none [0],
        .mk 0x0002800f (some 10) [0x00050001],
        .mk 0x00081001 (some 20) []]
    ∃ records switch next, Format.trec.read (coding.encodeAll items) = .ok records ∧
      records = [switch, next] ∧ next.cpu = switch.cpu ∧
      SetsGuest switch.eventId ∧ (Event.name? switch.eventId).isSome ∧
      switch.extra.length = 1 ∧
      (Event.info switch.eventId switch.extra).guestShown = some "0x00050001" ∧
      next.guest.shown = "0x00010000" := by
  intro items
  refine ⟨_, _, _, read_encodeAll items, rfl, rfl, ?_, ?_, rfl, ?_, ?_⟩
  · decide
  · decide
  · decide
  · decide

end Wire.Trec

end HypervisorTrace
