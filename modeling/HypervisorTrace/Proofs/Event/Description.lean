import HypervisorTrace.Proofs.Event.Catalogue

/-!
What a description depends on. A field shows some words of the payload and
nothing else of it, with one exception: a guest also depends on whether the
payload ends right after its first word. So two payloads are described alike
if they agree on the words that the fields show, and neither ends in a packed
guest.

In the catalogue every word that is shown is one that the event declares, and
no word is shown by two fields.
-/

namespace HypervisorTrace.Event

/-- The words that a field shows. A guest takes two, unless the payload ends
after the first of them. -/
def Field.words : Field → List Nat
  | text _ => []
  | hex _ index => [index]
  | bare _ index => [index]
  | signed index => [index]
  | wide high low => [high, low]
  | guest index => [index, index + 1]

/-- Whether the last word of a payload is shown as a packed guest. -/
def Layout.EndsPacked (layout : Layout) (payload : Payload) : Prop :=
  ∃ index, Field.guest index ∈ layout ∧ payload.length = index + 1

/-- Whether a layout shows only the first words of a payload, as many as are
declared, and none of them twice. -/
structure Layout.Fits (layout : Layout) (declared : Nat) : Prop where
  within : ∀ field ∈ layout, ∀ index ∈ field.words, index < declared
  apart : ∀ field ∈ layout, ∀ other ∈ layout, field ≠ other →
    ∀ index ∈ field.words, index ∉ other.words

instance (layout : Layout) (declared : Nat) : Decidable (layout.Fits declared) :=
  decidable_of_iff
    ((∀ field ∈ layout, ∀ index ∈ field.words, index < declared) ∧
      ∀ field ∈ layout, ∀ other ∈ layout, field ≠ other →
        ∀ index ∈ field.words, index ∉ other.words)
    ⟨fun ⟨within, apart⟩ => ⟨within, apart⟩, fun ⟨within, apart⟩ => ⟨within, apart⟩⟩

/-- The fields of an event, none if it is silent. -/
def Definition.fields (definition : Definition) : Layout :=
  definition.layout.getD []

theorem Catalogue.fits_of_mem_all :
    ∀ definition ∈ all, definition.fields.Fits definition.words := by
  decide +kernel

theorem Payload.word_append_left {front : Payload} {index : Nat} (hindex : index < front.length)
    (rest : Payload) : Payload.word (front ++ rest) index = front.word index := by
  simp only [word, List.getD_eq_getElem?_getD, List.getElem?_append_left hindex]

theorem Payload.guestWords_of_length_ne {payload : Payload} {index : Nat}
    (hlength : payload.length ≠ index + 1) :
    payload.guestWords index = (payload.word index, payload.word (index + 1)) := by
  rw [guestWords, if_neg hlength]

section Congruence

variable {first second : Payload}

/-- A field is shown alike in two payloads that agree on its words, if none of
them ends after the first word of a guest. -/
theorem Field.render_congr (field : Field)
    (hwords : ∀ index ∈ field.words, first.word index = second.word index)
    (hfirst : ∀ index, field = guest index → first.length ≠ index + 1)
    (hsecond : ∀ index, field = guest index → second.length ≠ index + 1) :
    field.render first = field.render second := by
  cases field with
  | text content => rfl
  | hex digits index =>
      have hword := hwords index (by simp [words])
      simp only [render, hword]
  | bare digits index =>
      have hword := hwords index (by simp [words])
      simp only [render, hword]
  | signed index =>
      have hword := hwords index (by simp [words])
      simp only [render, Payload.signed, hword]
  | wide high low =>
      have hhigh := hwords high (by simp [words])
      have hlow := hwords low (by simp [words])
      simp only [render, Payload.wideHex, Payload.wide, hhigh, hlow]
  | guest index =>
      have hdomain := hwords index (by simp [words])
      have hvcpu := hwords (index + 1) (by simp [words])
      simp only [render, Payload.guestHex, Payload.guestWords_of_length_ne (hfirst index rfl),
        Payload.guestWords_of_length_ne (hsecond index rfl), hdomain, hvcpu]

theorem Layout.render_congr {layout : Layout}
    (hfields : ∀ field ∈ layout, field.render first = field.render second) :
    layout.render first = layout.render second := by
  induction layout with
  | nil => rfl
  | cons field rest ih =>
      have hfield := hfields field List.mem_cons_self
      have hrest := ih fun other hother => hfields other (List.mem_cons_of_mem field hother)
      rw [render, render, hfield, hrest]

/-- The declared words decide, if none of two payloads ends in a packed
guest. -/
theorem Layout.Fits.render_congr {layout : Layout} {declared : Nat}
    (hfits : layout.Fits declared)
    (hwords : ∀ index < declared, first.word index = second.word index)
    (hfirst : ¬ layout.EndsPacked first) (hsecond : ¬ layout.EndsPacked second) :
    layout.render first = layout.render second := by
  apply Layout.render_congr
  intro field hfield
  apply Field.render_congr
  · intro index hindex
    exact hwords index (hfits.within field hfield index hindex)
  · rintro index rfl hlength
    exact hfirst ⟨index, hfield, hlength⟩
  · rintro index rfl hlength
    exact hsecond ⟨index, hfield, hlength⟩

theorem Definition.info_congr {definition : Definition}
    (hrender : definition.fields.render first = definition.fields.render second) :
    definition.info first = definition.info second := by
  rw [fields] at hrender
  cases hlayout : definition.layout with
  | none => simp only [info, hlayout]
  | some layout =>
      rw [hlayout, Option.getD_some] at hrender
      simp only [info, hlayout, hrender]

end Congruence

/-- A description is its fields in order, one after the other. -/
theorem Layout.render_eq_join (layout : Layout) (payload : Payload) :
    layout.render payload = String.join (layout.map (Field.render payload)) := by
  induction layout with
  | nil => rfl
  | cons field rest ih => rw [render, ih, List.map_cons, String.join_cons]

theorem info_of_lookup {word : Word} {definition : Definition}
    (hlookup : Catalogue.lookup word = some definition) (payload : Payload) :
    info word payload = definition.info payload := by
  rw [info, hlookup]

end HypervisorTrace.Event
