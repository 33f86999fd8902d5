import HypervisorTrace.Word

/-!
Event ids. An id is the lower 28 bits of a word: twelve bits of class, four of subclass, and twelve
that name the event. Some bits of the last twelve say more: the scheduling algorithm of a scheduler
event, whether address operands are 64 bits wide, and the old and new state of a run-state change.
-/

namespace HypervisorTrace.Event

namespace Id

/-- The id in a word whose upper four bits serve another purpose. -/
def number (word : Word) : Word :=
  word &&& 0x0fffffff

def classField (id : Word) : Word :=
  (id >>> 16) &&& 0xfff

def subclass (id : Word) : Word :=
  (id >>> 12) &&& 0xf

/-- The three bits of a scheduler event that select the scheduling algorithm. -/
def algorithm (id : Word) : Word :=
  (id >>> 9) &&& 0x7

/-- The bit that marks events whose address operands take two words. -/
def wideFlag : Word := 0x100

/-- The record that names the processor the following records come from. -/
def cpuChange : Word := 0x0001f003

def continueRunning : Word := 0x00021002

def switchNext : Word := 0x0002800f

/-- Whether an id is a change of run state, whatever the two states are. -/
def isRunStateChange (id : Word) : Bool :=
  id &&& 0x0ffff00f == 0x00021001

/-- The new state of a run-state change; 0 stands for running. -/
def newRunState (id : Word) : Word :=
  (id >>> 4) &&& 0xf

theorem toNat_number (word : Word) : (number word).toNat = word.toNat % 0x10000000 := by
  simp only [number, UInt32.toNat_and, UInt32.toNat_ofNat]
  exact Nat.and_two_pow_sub_one_eq_mod word.toNat 28

@[simp] theorem number_number (word : Word) : number (number word) = number word := by
  apply UInt32.toNat_inj.1
  simp only [toNat_number]
  omega

theorem number_lt (word : Word) : (number word).toNat < 0x10000000 := by
  rw [toNat_number]
  omega

theorem number_of_lt {word : Word} (hword : word.toNat < 0x10000000) : number word = word := by
  apply UInt32.toNat_inj.1
  rw [toNat_number, Nat.mod_eq_of_lt hword]

end Id

end HypervisorTrace.Event
