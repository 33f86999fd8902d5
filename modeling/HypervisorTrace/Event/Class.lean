import HypervisorTrace.Event.Id

/-!
Event classes. Each class is one bit of the class field; every other field, two bits set or none
among them, belongs to no known class.
-/

namespace HypervisorTrace.Event

inductive Class where
  | generic
  | scheduler
  | domain
  | hvm
  | memory
  | paravirtual
  | shadow
  | hardware
  | unknown
  deriving DecidableEq

namespace Class

/-- The classes that have events, in the order in which reports list them. -/
def known : List Class :=
  [generic, scheduler, domain, hvm, memory, paravirtual, shadow, hardware]

def all : List Class :=
  known ++ [unknown]

/-- The place of a class in reports. -/
def rank (eventClass : Class) : Nat :=
  all.idxOf eventClass

def label : Class → String
  | generic => "gen"
  | scheduler => "sched"
  | domain => "dom0"
  | hvm => "hvm"
  | memory => "mem"
  | paravirtual => "pv"
  | shadow => "shadow"
  | hardware => "hw"
  | unknown => "unknown"

/-- The known class with a label, in whatever case its ASCII letters are. -/
def ofLabel? (text : String) : Option Class :=
  known.find? fun c => c.label == text.toLower

def ofField (field : Word) : Class :=
  if field = 0x001 then generic
  else if field = 0x002 then scheduler
  else if field = 0x004 then domain
  else if field = 0x008 then hvm
  else if field = 0x010 then memory
  else if field = 0x020 then paravirtual
  else if field = 0x040 then shadow
  else if field = 0x080 then hardware
  else unknown

def ofId (id : Word) : Class :=
  ofField (Id.classField id)

end Class

end HypervisorTrace.Event
