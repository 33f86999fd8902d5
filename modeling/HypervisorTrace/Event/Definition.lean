import HypervisorTrace.Event.Class
import HypervisorTrace.Event.Payload

/-!
What is known of one event: its id, its name, how many extra words it carries, and how they are
described. A layout is a list of fields, each either fixed text or a number taken from the payload;
describing a payload is rendering the fields one after the other. Layouts are data, so that which
words an event shows can be read off them. An event without a layout is silent: it is recognized
and has nothing to show.
-/

namespace HypervisorTrace.Event

/-- One piece of a description. Indices count the words of the payload from zero. -/
inductive Field where
  | text (content : String)
  /-- A word in hexadecimal after `0x`, with a least number of digits. -/
  | hex (digits index : Nat)
  | bare (digits index : Nat)
  | signed (index : Nat)
  | wide (high low : Nat)
  | guest (index : Nat)
  deriving DecidableEq

instance : Coe String Field := ⟨Field.text⟩

def Field.render (payload : Payload) : Field → String
  | text content => content
  | hex digits index => "0x" ++ Text.hex digits (payload.word index).toNat
  | bare digits index => Text.hex digits (payload.word index).toNat
  | signed index => toString (payload.signed index)
  | wide high low => payload.wideHex high low
  | guest index => payload.guestHex index

abbrev Layout := List Field

def Layout.render (payload : Payload) : Layout → String
  | [] => ""
  | field :: rest => field.render payload ++ Layout.render payload rest

structure Definition where
  id : Word
  name : String
  words : Nat
  layout : Option Layout

def event (id : Word) (name : String) (words : Nat) (layout : Layout) : Definition :=
  ⟨id, name, words, some layout⟩

def silent (id : Word) (name : String) : Definition :=
  ⟨id, name, 0, none⟩

/-- What there is to say about the payload of a record. -/
inductive Info where
  | unrecognized
  /-- The event is known and silent. -/
  | empty
  | text (content : String)
  deriving DecidableEq

/-- The description, empty for a silent event and absent for an unknown one. -/
def Info.text? : Info → Option String
  | unrecognized => none
  | empty => some ""
  | text content => some content

namespace Definition

def eventClass (definition : Definition) : Class :=
  Class.ofId definition.id

def info (definition : Definition) (payload : Payload) : Info :=
  match definition.layout with
  | none => .empty
  | some layout => .text (layout.render payload)

def describe (definition : Definition) : String :=
  "EventDef \x7b id: 0x" ++ Text.hex 8 definition.id.toNat ++ ", name: \"" ++ definition.name ++
    "\", words: " ++ toString definition.words ++ ", info: " ++
    toString definition.layout.isSome ++ " \x7d"

end Definition

end HypervisorTrace.Event
