import HypervisorTrace.Proofs.Event.Description
import HypervisorTrace.Proofs.Text.Bytes
import HypervisorTrace.Proofs.Text.Digits

/-!
The wording of names and descriptions. Names, those of the catalogue and those
made up for unknown events, hold no opening bracket, and neither a name nor a
description holds a newline, whatever the payload is. So a line that shows them
is one line, and the bracket after the name is the first one on it.
-/

namespace HypervisorTrace.Event

def bracketByte : UInt8 := 0x5b

def newlineByte : UInt8 := 0x0a

theorem bracket_notMem {text : String} (hbyte : bracketByte ∉ Text.bytes text) :
    '[' ∉ text.toList :=
  Text.notMem_of_byte (by decide) hbyte

theorem newline_notMem {text : String} (hbyte : newlineByte ∉ Text.bytes text) :
    '\n' ∉ text.toList :=
  Text.notMem_of_byte (by decide) hbyte

/-- Whether the fixed text of a field, if it has any, is on one line. -/
def Field.OneLine : Field → Prop
  | text content => newlineByte ∉ Text.bytes content
  | _ => True

instance (field : Field) : Decidable field.OneLine :=
  match field with
  | .text content => inferInstanceAs (Decidable (newlineByte ∉ Text.bytes content))
  | .hex _ _ | .bare _ _ | .signed _ | .wide _ _ | .guest _ => inferInstanceAs (Decidable True)

theorem Catalogue.wording_of_mem_all :
    ∀ definition ∈ all, bracketByte ∉ Text.bytes definition.name ∧
      newlineByte ∉ Text.bytes definition.name ∧ ∀ field ∈ definition.fields, field.OneLine := by
  decide +kernel

theorem newline_notMem_hex (width number : Nat) : '\n' ∉ (Text.hex width number).toList := by
  intro hnewline
  exact absurd (Text.mem_hexDigits_of_mem_hex hnewline) (by decide)

theorem newline_notMem_hexAfterPrefix (width number : Nat) :
    '\n' ∉ ("0x" ++ Text.hex width number).toList := by
  rw [String.toList_append, List.mem_append, not_or]
  exact ⟨by decide, newline_notMem_hex width number⟩

section

variable {payload : Payload}

/-- A field is shown on one line, if its fixed text is on one line. -/
theorem Field.OneLine.newline_notMem_render {field : Field} (hfield : field.OneLine) :
    '\n' ∉ (field.render payload).toList := by
  cases field with
  | text content => exact newline_notMem hfield
  | hex digits index => exact newline_notMem_hexAfterPrefix digits _
  | bare digits index => exact newline_notMem_hex digits _
  | signed index =>
      intro hnewline
      exact absurd (Text.isDigit_or_eq_of_mem_toString hnewline) (by decide)
  | wide high low => exact newline_notMem_hexAfterPrefix 16 _
  | guest index =>
      rw [render, Payload.guestHex, String.toList_append, List.mem_append, not_or]
      exact ⟨newline_notMem_hexAfterPrefix 4 _, newline_notMem_hex 4 _⟩

theorem Layout.newline_notMem_render {layout : Layout} (hfields : ∀ field ∈ layout, field.OneLine) :
    '\n' ∉ (layout.render payload).toList := by
  induction layout with
  | nil => exact List.not_mem_nil
  | cons field rest ih =>
      have hrest := ih fun other hother => hfields other (List.mem_cons_of_mem field hother)
      rw [render, String.toList_append, List.mem_append, not_or]
      exact ⟨(hfields field List.mem_cons_self).newline_notMem_render, hrest⟩

/-- Nothing that is said about a payload holds a newline. -/
theorem newline_notMem_info (word : Word) :
    '\n' ∉ ((info word payload).text?.getD "").toList := by
  cases hlookup : Catalogue.lookup word with
  | none =>
      rw [info, hlookup]
      exact List.not_mem_nil
  | some definition =>
      obtain ⟨-, -, hfields⟩ :=
        Catalogue.wording_of_mem_all definition (Catalogue.mem_all_of_lookup hlookup).1
      rw [info_of_lookup hlookup, Definition.info]
      cases hlayout : definition.layout with
      | none => exact List.not_mem_nil
      | some layout =>
          rw [Definition.fields, hlayout, Option.getD_some] at hfields
          exact Layout.newline_notMem_render hfields

end

theorem mem_unknownName {word : Word} {char : Char} (hchar : char ∈ (unknownName word).toList) :
    char ∈ "unknown (0x)".toList ∨ char ∈ Text.hexDigits := by
  rw [unknownName, String.toList_append, String.toList_append] at hchar
  rcases List.mem_append.mp hchar with hopening | hclosing
  · rcases List.mem_append.mp hopening with hword | hdigit
    · have hsame : ∀ letter ∈ "unknown (0x".toList, letter ∈ "unknown (0x)".toList := by simp
      exact Or.inl (hsame char hword)
    · exact Or.inr (Text.mem_hexDigits_of_mem_hex hdigit)
  · rw [show char = ')' from List.mem_singleton.mp hclosing]
    decide

/-- A name holds neither an opening bracket nor a newline. -/
theorem notMem_name (word : Word) :
    '[' ∉ (name word).toList ∧ '\n' ∉ (name word).toList := by
  cases hlookup : Catalogue.lookup word with
  | none =>
      rw [name, name?, hlookup, Option.map_none, Option.getD_none]
      constructor <;> intro hchar <;> exact absurd (mem_unknownName hchar) (by decide)
  | some definition =>
      obtain ⟨hbracket, hnewline, -⟩ :=
        Catalogue.wording_of_mem_all definition (Catalogue.mem_all_of_lookup hlookup).1
      rw [name, name?, hlookup, Option.map_some, Option.getD_some]
      exact ⟨bracket_notMem hbracket, newline_notMem hnewline⟩

end HypervisorTrace.Event
