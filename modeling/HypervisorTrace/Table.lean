/-!
Tables: values by key, listed in the order in which the keys were first set. Setting a key that is
listed replaces its value, so a table never lists more keys than were set.

A tally is a table of how often each of the distinct members of a list occurs in it. Members are
counted one after the other, and one that has not been counted gets an entry of its own.
-/

namespace HypervisorTrace

abbrev Table (Key Value : Type) := List (Key × Value)

namespace Table

variable {Key Value : Type} [DecidableEq Key]

def get? : Table Key Value → Key → Option Value
  | [], _ => none
  | (other, value) :: rest, key => if key = other then some value else get? rest key

def set : Table Key Value → Key → Value → Table Key Value
  | [], key, value => [(key, value)]
  | (other, former) :: rest, key, value =>
    if key = other then (key, value) :: rest else (other, former) :: set rest key value

@[simp] theorem get?_nil (key : Key) : get? ([] : Table Key Value) key = none := rfl

/-- Setting a key changes its value alone. -/
@[simp] theorem get?_set (table : Table Key Value) (key other : Key) (value : Value) :
    get? (set table key value) other = if other = key then some value else get? table other := by
  induction table with
  | nil => rfl
  | cons first rest ih =>
    obtain ⟨listed, former⟩ := first
    by_cases found : key = listed
    · by_cases same : other = key <;> simp_all [set, get?]
    · by_cases here : other = listed
      · simp_all [set, get?, Ne.symm found]
      · simp_all [set, get?]

/-- Of two values that are set for a key one after the other, the second stays. -/
@[simp] theorem set_set (table : Table Key Value) (key : Key) (first second : Value) :
    set (set table key first) key second = set table key second := by
  induction table with
  | nil => simp only [set, if_true]
  | cons listed rest ih =>
    obtain ⟨other, former⟩ := listed
    by_cases found : key = other
    · simp only [set, found, if_true]
    · simp only [set, found, if_false, ih]

end Table

abbrev Tally (α : Type) := Table α Nat

namespace Tally

variable {α : Type} [DecidableEq α]

/-- How often a member has been counted. -/
def count (tally : Tally α) (member : α) : Nat :=
  (Table.get? tally member).getD 0

def add (tally : Tally α) (member : α) : Tally α :=
  Table.set tally member (count tally member + 1)

/-- Whether an entry ranks before another or is the same: the greater count is first, and of equal
counts the name that is first in the order of its characters. -/
def ranksBefore (a b : String × Nat) : Bool :=
  b.2 < a.2 || (a.2 == b.2 && a.1 ≤ b.1)

end Tally

end HypervisorTrace
