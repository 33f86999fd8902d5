import HypervisorTrace.Proofs.Event.Description

/-!
The canonical form of a payload. A record may carry more or fewer words than
its event declares, and a guest may be packed into one word or take two. The
canonical payload of an event has exactly the declared words, with zeros for
those that are missing and every guest in two words. The description of a
payload is that of its canonical form.
-/

namespace HypervisorTrace.Event

/-- The payload with its last word split in two if it is shown as a packed
guest: the domain in the upper half, the virtual processor in the lower. -/
def Layout.unpack (layout : Layout) (payload : Payload) : Payload :=
  match payload.getLast? with
  | some packed =>
    if Field.guest (payload.length - 1) ∈ layout then
      payload.dropLast ++ [packed >>> 16, packed &&& 0xffff]
    else
      payload
  | none => payload

/-- The payload with packed guests taken apart and then cut, or filled with
zeros, to the words that an event declares. -/
def Definition.canonical (definition : Definition) (payload : Payload) : Payload :=
  (definition.fields.unpack payload).takeD definition.words 0

theorem Payload.word_of_length_le {payload : Payload} {index : Nat}
    (hindex : payload.length ≤ index) : payload.word index = 0 := by
  simp only [word, List.getD_eq_getElem?_getD, List.getElem?_eq_none hindex, Option.getD_none]

theorem Payload.word_takeD {count index : Nat} (hindex : index < count) (payload : Payload) :
    Payload.word (payload.takeD count 0) index = payload.word index := by
  induction count generalizing index payload with
  | zero => omega
  | succ count ih =>
      cases index with
      | zero => cases payload <;> rfl
      | succ index =>
          have hrest := ih (Nat.lt_of_succ_lt_succ hindex) payload.tail
          cases payload with
          | nil => exact hrest
          | cons first rest => exact hrest

namespace Layout

variable {layout : Layout} {declared : Nat}

/-- The second word of a guest is declared too, so a payload with all declared
words does not end before it. -/
theorem Fits.not_endsPacked (hfits : layout.Fits declared) {payload : Payload}
    (hlength : declared ≤ payload.length) : ¬ layout.EndsPacked payload := by
  rintro ⟨index, hguest, hend⟩
  have hsecond := hfits.within _ hguest (index + 1) (by simp [Field.words])
  omega

theorem endsPacked_append_singleton {front : Payload} {last : Word} :
    layout.EndsPacked (front ++ [last]) ↔ Field.guest front.length ∈ layout := by
  constructor
  · rintro ⟨index, hguest, hlength⟩
    rw [List.length_append, List.length_singleton, Nat.add_right_cancel_iff] at hlength
    rwa [hlength]
  · intro hguest
    exact ⟨front.length, hguest, by simp⟩

theorem unpack_append_singleton (front : Payload) (last : Word) :
    layout.unpack (front ++ [last]) =
      if Field.guest front.length ∈ layout then front ++ [last >>> 16, last &&& 0xffff]
      else front ++ [last] := by
  simp [unpack]

/-- A guest is shown alike in one word and in two. -/
theorem Fits.render_split (hfits : layout.Fits declared) {front : Payload} (packed : Word)
    (hguest : Field.guest front.length ∈ layout) :
    layout.render (front ++ [packed >>> 16, packed &&& 0xffff]) =
      layout.render (front ++ [packed]) := by
  apply Layout.render_congr
  intro field hfield
  by_cases hsame : field = .guest front.length
  · subst hsame
    simp [Field.render, Payload.guestHex, Payload.guestWords, Payload.word]
  · -- Another field shows neither of the guest's words, and these are the only
    -- ones in which the payloads differ.
    have hapart := hfits.apart _ hguest field hfield (Ne.symm hsame)
    have hfirst : front.length ∉ field.words := hapart _ (by simp [Field.words])
    have hsecond : front.length + 1 ∉ field.words := hapart _ (by simp [Field.words])
    apply Field.render_congr
    · intro index hindex
      have hne : index ≠ front.length := fun heq => hfirst (heq ▸ hindex)
      have hne' : index ≠ front.length + 1 := fun heq => hsecond (heq ▸ hindex)
      by_cases hfront : index < front.length
      · rw [Payload.word_append_left hfront, Payload.word_append_left hfront]
      · rw [Payload.word_of_length_le (by simp; omega), Payload.word_of_length_le (by simp; omega)]
    · rintro index rfl hlength
      apply hsecond
      simp at hlength
      simp [Field.words, ← hlength]
    · rintro index rfl hlength
      simp at hlength
      exact hsame (by rw [hlength])

theorem Fits.render_unpack (hfits : layout.Fits declared) (payload : Payload) :
    layout.render (layout.unpack payload) = layout.render payload := by
  rcases payload.eq_nil_or_concat' with rfl | ⟨front, last, rfl⟩
  · rfl
  · rw [unpack_append_singleton]
    split
    · rename_i hguest
      exact hfits.render_split last hguest
    · rfl

theorem Fits.not_endsPacked_unpack (hfits : layout.Fits declared) (payload : Payload) :
    ¬ layout.EndsPacked (layout.unpack payload) := by
  rcases payload.eq_nil_or_concat' with rfl | ⟨front, last, rfl⟩
  · rintro ⟨index, -, hlength⟩
    simp [unpack] at hlength
  · rw [unpack_append_singleton]
    split
    · rename_i hguest
      -- A guest at the second of the two words would share it with the first
      -- guest.
      rw [List.append_cons, endsPacked_append_singleton]
      intro hother
      have hne : Field.guest front.length ≠ .guest (front ++ [last >>> 16]).length := by simp
      have hapart := hfits.apart _ hguest _ hother hne
      exact hapart (front.length + 1) (by simp [Field.words]) (by simp [Field.words])
    · rename_i hguest
      rwa [endsPacked_append_singleton]

end Layout

/-- The description of any payload is that of its canonical form. So words
beyond the declared ones are not shown, words that are missing are shown as
zeros in a payload that does not end in a packed guest, and a packed guest is
shown as the two words that it packs. -/
theorem info_canonical {word : Word} {definition : Definition}
    (hlookup : Catalogue.lookup word = some definition) (payload : Payload) :
    info word payload = info word (definition.canonical payload) ∧
      info word payload = info word (payload.take definition.words) ∧
      (¬ definition.fields.EndsPacked payload →
        info word payload = info word (payload.takeD definition.words 0)) ∧
      ∀ (front : Payload) (packed : Word), .guest front.length ∈ definition.fields →
        info word (front ++ [packed]) =
          info word (front ++ [packed >>> 16, packed &&& 0xffff]) := by
  have hfits := Catalogue.fits_of_mem_all definition (Catalogue.mem_all_of_lookup hlookup).1
  simp only [info_of_lookup hlookup]
  have hfill {whole : Payload} (hwhole : ¬ definition.fields.EndsPacked whole) :
      definition.fields.render whole =
        definition.fields.render (whole.takeD definition.words 0) := by
    apply hfits.render_congr
    · intro index hindex
      exact (Payload.word_takeD hindex whole).symm
    · exact hwhole
    · exact hfits.not_endsPacked (List.takeD_length _ _ _).ge
  refine ⟨?_, ?_, ?_, ?_⟩
  · apply Definition.info_congr
    rw [Definition.canonical, ← hfill (hfits.not_endsPacked_unpack payload),
      hfits.render_unpack]
  · apply Definition.info_congr
    by_cases hshort : payload.length ≤ definition.words
    · rw [List.take_of_length_le hshort]
    · have hlong : definition.words ≤ payload.length := Nat.le_of_not_le hshort
      rw [hfill (hfits.not_endsPacked hlong), List.takeD_eq_take _ hlong]
  · intro hunpacked
    apply Definition.info_congr
    exact hfill hunpacked
  · intro front packed hguest
    apply Definition.info_congr
    exact (hfits.render_split packed hguest).symm

/-- A guest that was stolen from the processor in the word before it: packed
into one word, missing, and with a word after it that is not declared. -/
theorem info_canonical_stolen_vcpu :
    info 0x00022004 [3, 0x00050001] = info 0x00022004 [3, 5, 1] ∧
      info 0x00022004 [3] = info 0x00022004 [3, 0, 0] ∧
      info 0x00022004 [3, 5, 1, 9] = info 0x00022004 [3, 5, 1] ∧
      info 0x00022004 [3, 0x00050001] = .text "dom:vcpu = 0x00050001, from = 3" := by
  have hlookup : Catalogue.lookup 0x00022004 = some _ := rfl
  refine ⟨(info_canonical hlookup _).1, ?_, (info_canonical hlookup _).2.1, by decide⟩
  apply (info_canonical hlookup [3]).2.2.1
  rintro ⟨index, hguest, hlength⟩
  have hindex : index = 1 := by simpa [Definition.fields, event] using hguest
  simp [hindex] at hlength

end HypervisorTrace.Event
