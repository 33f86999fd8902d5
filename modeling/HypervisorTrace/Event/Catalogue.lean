import HypervisorTrace.Event.Catalogue.Hvm
import HypervisorTrace.Event.Catalogue.Scheduler

/-!
The catalogue of events. An id is looked up in the one table that its class and subclass select,
and in it by the whole id; what no table lists is not recognized. The tables of the scheduler and
of guests with hardware support stand in modules of their own.
-/

namespace HypervisorTrace.Event

namespace Catalogue

/-!
### Generic events

The state of the trace buffers, the processor that records come from, and the tracing of interrupts.
-/

namespace Generic

/-- The generic events. They have one subclass. -/
def events : List Definition :=
  [ event 0x0001f001 "lost_records" 1 [.hex 8 0],
    event 0x0001f002 "wrap_buffer" 1 [.hex 8 0],
    event 0x0001f003 "cpu_change" 2 [.hex 8 0],
    event 0x0001f004 "trace_irq" 4
        ["vector = ", .signed 0, ", count = ", .signed 1, ", tot_cycles = ", .hex 8 2,
         ", max_cycles = ", .hex 8 3] ]

end Generic

/-!
### Domain events

The control domain creates and destroys guests.
-/

namespace Domain

def operations : List Definition :=
  [ event 0x00041001 "domain_create" 1 ["dom = ", .hex 8 0],
    event 0x00041002 "domain_destroy" 1 ["dom = ", .hex 8 0] ]

def table (id : Word) : List Definition :=
  if Id.subclass id = 0x1 then operations else []

end Domain

/-!
### Memory events

Operations on the grant tables through which guests share pages.
-/

namespace Memory

/-- The memory events. They have one subclass. -/
def events : List Definition :=
  [ event 0x0010f001 "page_grant_map" 1 ["domid = ", .signed 0],
    event 0x0010f002 "page_grant_unmap" 1 ["domid = ", .signed 0],
    event 0x0010f003 "page_grant_transfer" 1 ["domid = ", .signed 0] ]

end Memory

/-!
### Events of paravirtualized guests

Hypercalls, traps, faults and emulated instructions. An id with the wide flag has addresses of 64
bits, and calls the instruction pointer rip instead of eip.
-/

namespace Paravirtual

def entries : List Definition :=
  [ event 0x00201001 "hypercall" 2 ["eip = ", .hex 8 0, ", eax = ", .hex 8 1],
    event 0x00201101 "hypercall" 3 ["rip = ", .wide 1 0, ", eax = ", .hex 8 2],
    event 0x00201003 "trap" 2 ["eip = ", .hex 8 0, ", trapnr:error = ", .hex 8 1],
    event 0x00201103 "trap" 3 ["rip = ", .wide 1 0, ", trapnr:error = ", .hex 8 2],
    event 0x00201004 "page_fault" 3
        ["eip = ", .hex 8 0, ", addr = ", .hex 8 1, ", error = ", .hex 8 2],
    event 0x00201104 "page_fault" 5
        ["rip = ", .wide 1 0, ", addr = ", .wide 3 2, ", error = ", .hex 8 4],
    event 0x00201005 "forced_invalid_op" 1 ["eip = ", .hex 8 0],
    event 0x00201105 "forced_invalid_op" 2 ["rip = ", .wide 1 0],
    event 0x00201006 "emulate_privop" 1 ["eip = ", .hex 8 0],
    event 0x00201106 "emulate_privop" 2 ["rip = ", .wide 1 0],
    event 0x00201007 "emulate_4G" 1 ["eip = ", .hex 8 0],
    event 0x00201107 "emulate_4G" 2 ["rip = ", .wide 1 0],
    silent 0x00201008 "math_state_restore",
    silent 0x00201108 "math_state_restore",
    event 0x00201009 "paging_fixup" 2 ["eip = ", .hex 8 0, ", addr = ", .hex 8 1],
    event 0x00201109 "paging_fixup" 4 ["rip = ", .wide 1 0, ", addr = ", .wide 3 2],
    event 0x0020100a "gdt_ldt_mapping_fault" 2 ["eip = ", .hex 8 0, ", offset = ", .hex 8 1],
    event 0x0020110a "gdt_ldt_mapping_fault" 4 ["rip = ", .wide 1 0, ", offset = ", .wide 3 2],
    event 0x0020100b "ptwr_emulation" 4
        ["addr = ", .hex 8 2, ", eip = ", .hex 8 3, ", npte = ", .wide 1 0],
    event 0x0020110b "ptwr_emulation" 6
        ["addr = ", .wide 3 2, ", rip = ", .wide 5 4, ", npte = ", .wide 1 0],
    event 0x0020100c "ptwr_emulation_pae" 4
        ["addr = ", .hex 8 2, ", eip = ", .hex 8 3, ", npte = ", .wide 1 0],
    event 0x0020110c "ptwr_emulation_pae" 6
        ["addr = ", .wide 3 2, ", rip = ", .wide 5 4, ", npte = ", .wide 1 0],
    event 0x0020100d "hypercall" 1 ["op = ", .hex 8 0] ]

def subcalls : List Definition :=
  [ event 0x0020200e "hypercall" 1 ["op = ", .hex 8 0] ]

def table (id : Word) : List Definition :=
  if Id.subclass id = 0x1 then entries
  else if Id.subclass id = 0x2 then subcalls
  else []

end Paravirtual

/-!
### Events of shadow page tables

Each has a narrow and a wide variant under the same name, next to each other in the table; the low
byte of the id numbers the pairs from one.
-/

namespace Shadow

/-- An event about one address, in both variants. -/
def addressPair (id : Word) (name label : String) : List Definition :=
  [ event id name 1 [.text (label ++ " = "), .hex 8 0],
    event (id ||| Id.wideFlag) name 2 [.text (label ++ " = "), .wide 1 0] ]

def unshadowPair (id : Word) (name : String) : List Definition :=
  [ event id name 2 ["va = ", .hex 8 0, ", gfn = ", .hex 8 1],
    event (id ||| Id.wideFlag) name 4 ["va = ", .wide 1 0, ", gfn = ", .wide 3 2] ]

/-- A fault on a page that is no shadow. -/
def notShadow : List Definition :=
  [ event 0x0040f001 "shadow_not_shadow" 4
        ["gl1e = ", .wide 1 0, ", va = ", .hex 8 2, ", flags = ", .hex 8 3],
    event 0x0040f101 "shadow_not_shadow" 5
        ["gl1e = ", .wide 1 0, ", va = ", .wide 3 2, ", flags = ", .hex 8 4] ]

/-- A fault that the shadow tables were brought up to date for. -/
def fixup : List Definition :=
  [ event 0x0040f006 "shadow_fixup" 3
        ["gl1e = ", .hex 8 0, ", va = ", .hex 8 1, ", flags = ", .hex 8 2],
    event 0x0040f106 "shadow_fixup" 5
        ["gl1e = ", .wide 1 0, ", va = ", .wide 3 2, ", flags = ", .hex 8 4] ]

def emulate : List Definition :=
  [ event 0x0040f008 "shadow_emulate" 4
        ["gl1e = ", .hex 8 0, ", write_val = ", .hex 8 1, ", va = ", .hex 8 2, ", flags = ",
         .hex 8 3],
    event 0x0040f108 "shadow_emulate" 7
        ["gl1e = ", .wide 1 0, ", write_val = ", .wide 3 2, ", va = ", .wide 5 4,
         ", flags = ", .hex 8 6] ]

/-- The pairs of variants, by the number of the event. -/
def pairs : List (List Definition) :=
  [ notShadow,
    addressPair 0x0040f002 "shadow_fast_propagate" "va",
    addressPair 0x0040f003 "shadow_fast_mmio" "va",
    addressPair 0x0040f004 "shadow_false_fast_path" "va",
    addressPair 0x0040f005 "shadow_mmio" "va",
    fixup,
    addressPair 0x0040f007 "shadow_domf_dying" "va",
    emulate,
    unshadowPair 0x0040f009 "shadow_emulate_unshadow_user",
    unshadowPair 0x0040f00a "shadow_emulate_unshadow_evtinj",
    unshadowPair 0x0040f00b "shadow_emulate_unshadow_unhandled",
    addressPair 0x0040f00c "shadow_emulate_wrmap_bf" "gfn",
    addressPair 0x0040f00d "shadow_emulate_prealloc_unpin" "gfn",
    addressPair 0x0040f00e "shadow_emulate_resync_full" "gfn",
    addressPair 0x0040f00f "shadow_emulate_resync_only" "gfn" ]

def table (id : Word) : List Definition :=
  match (id &&& 0xff).toNat with
  | 0 => []
  | number + 1 => pairs.getD number []

end Shadow

/-!
### Hardware events

Processor power states, and the life of an interrupt vector.
-/

namespace Hardware

def power : List Definition :=
  [ event 0x00801001 "cpu_freq_change" 2 [.signed 0, "MHz -> ", .signed 1, "MHz"],
    event 0x00801002 "cpu_idle_entry" 4
        ["C0 -> C", .signed 0, ", acpi_pm_tick = ", .signed 1, ", expected = ", .signed 2,
         "us, predicted = ", .signed 3, "us"],
    event 0x00801003 "cpu_idle_exit" 6
        ["C", .signed 0, " -> C0, acpi_pm_tick = ", .signed 1, ", irq = ", .signed 2, " ",
         .signed 3, " ", .signed 4, " ", .signed 5] ]

/-- Interrupt vectors: bound to a request, moved, cleaned up, and raised. -/
def interrupts : List Definition :=
  [ event 0x00802001 "cleanup_move_delayed" 3
        ["irq = ", .signed 0, ", vector ", .hex 1 1, " on CPU", .signed 2],
    event 0x00802002 "cleanup_move" 3
        ["irq = ", .signed 0, ", vector ", .hex 1 1, " on CPU", .signed 2],
    event 0x00802003 "bind_vector" 3
        ["irq = ", .signed 0, " = vector ", .hex 1 1, ", CPU mask: ", .hex 8 2],
    event 0x00802004 "clear_vector" 3
        ["irq = ", .signed 0, " = vector ", .hex 1 1, ", CPU mask: ", .hex 8 2],
    event 0x00802005 "move_vector" 3
        ["irq = ", .signed 0, " had vector ", .hex 1 1, " on CPU", .signed 2],
    event 0x00802006 "assign_vector" 3
        ["irq = ", .signed 0, " = vector ", .hex 1 1, ", CPU mask: ", .hex 8 2],
    event 0x00802007 "bogus_vector" 1 [.hex 1 0],
    event 0x00802008 "do_irq" 3
        ["irq = ", .signed 0, ", began = ", .signed 1, "us, ended = ", .signed 2, "us"] ]

def table (id : Word) : List Definition :=
  if Id.subclass id = 0x1 then power
  else if Id.subclass id = 0x2 then interrupts
  else []

end Hardware

/-! ### The whole catalogue -/

/-- The only table that can hold an id. -/
def table (id : Word) : List Definition :=
  match Class.ofId id with
  | .generic => Generic.events
  | .scheduler => Scheduler.table id
  | .domain => Domain.table id
  | .hvm => Hvm.table id
  | .memory => Memory.events
  | .paravirtual => Paravirtual.table id
  | .shadow => Shadow.table id
  | .hardware => Hardware.table id
  | .unknown => []

/-- The definition of an event. Bits above the id make no difference. -/
def lookup (word : Word) : Option Definition :=
  (table (Id.number word)).find? fun definition => definition.id == Id.number word

def all : List Definition :=
  Generic.events ++
    (Scheduler.runStates ++ Scheduler.core ++ Scheduler.credit ++ Scheduler.credit2 ++
      Scheduler.realTime ++ Scheduler.fixedPlacement) ++
    Domain.operations ++
    (Hvm.transitions ++ Hvm.handlers ++ Hvm.emulation) ++
    Memory.events ++
    (Paravirtual.entries ++ Paravirtual.subcalls) ++
    Shadow.pairs.flatten ++
    (Hardware.power ++ Hardware.interrupts)

def ofClass (eventClass : Class) : List Definition :=
  all.filter fun definition => definition.eventClass == eventClass

end Catalogue

def name? (word : Word) : Option String :=
  (Catalogue.lookup word).map (·.name)

/-- What an event that is not recognized is called: all 32 bits of the word are shown. -/
def unknownName (word : Word) : String :=
  "unknown (0x" ++ Text.hex 8 word.toNat ++ ")"

def name (word : Word) : String :=
  (name? word).getD (unknownName word)

def words? (word : Word) : Option Nat :=
  (Catalogue.lookup word).map (·.words)

def info (word : Word) (payload : Payload) : Info :=
  match Catalogue.lookup word with
  | none => .unrecognized
  | some definition => definition.info payload

end HypervisorTrace.Event
