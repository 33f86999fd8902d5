import HypervisorTrace.Proofs.Guest.Labels
import HypervisorTrace.Proofs.Guest.Registers
import HypervisorTrace.Proofs.Session.Outcome

/-!
The list of tasks as an index of the guests. A guest outside the idle domain is
told from every other one by its number as well as by its label, so a list of the
distinct numbers has an entry for each guest that a session shows outside the
idle domain, and for nothing else.
-/

namespace HypervisorTrace

namespace Guest

/-- Outside the idle domain no two guests have the same number. -/
theorem pid_injOn : Set.InjOn pid {guest | ¬ guest.isIdle} := by
  intro first hfirst second hsecond hnumbers
  rw [pid_of_not_isIdle hfirst, pid_of_not_isIdle hsecond, Int.add_left_inj] at hnumbers
  exact packed_injective (Word.toSigned_injective hnumbers)

end Guest

namespace Session

variable {session : Session} {number : Int} {label : String}

/-- The guests of the records, but for those of the idle domain. -/
def busyGuests (session : Session) : List Guest :=
  (session.records.map (·.guest)).filter fun guest => !guest.isIdle

theorem mem_busyGuests_iff {guest : Guest} :
    guest ∈ session.busyGuests ↔
      ∃ index record, session.record? index = some record ∧ ¬ record.guest.isIdle ∧
        record.guest = guest := by
  simp only [busyGuests, List.mem_filter, List.mem_map, Bool.not_eq_true', Bool.not_eq_true]
  constructor
  · rintro ⟨⟨record, hrecord, rfl⟩, hidle⟩
    obtain ⟨index, hindex⟩ := List.mem_iff_getElem?.mp hrecord
    exact ⟨index, record, hindex, hidle, rfl⟩
  · rintro ⟨index, record, hindex, hidle, rfl⟩
    exact ⟨⟨record, List.mem_of_getElem? hindex, rfl⟩, hidle⟩

theorem not_isIdle_of_mem_busyGuests {guest : Guest} (hguest : guest ∈ session.busyGuests) :
    ¬ guest.isIdle := by
  obtain ⟨index, record, -, hidle, rfl⟩ := mem_busyGuests_iff.mp hguest
  exact hidle

/-- Whether some row that does not belong to the idle domain has a number and a
label. -/
def ShowsTask (session : Session) (number : Int) (label : String) : Prop :=
  ∃ index record, session.record? index = some record ∧ ¬ record.guest.isIdle ∧
    session.pid? index = some number ∧ session.task? index = some label

theorem showsTask_iff :
    session.ShowsTask number label ↔
      ∃ guest ∈ session.busyGuests, guest.pid = number ∧ guest.label = label := by
  simp only [mem_busyGuests_iff]
  constructor
  · rintro ⟨index, record, hindex, hidle, hnumber, hlabel⟩
    rw [pid?, hindex, Option.map_some, Option.some_inj] at hnumber
    rw [task?, hindex, Option.map_some, Option.some_inj] at hlabel
    exact ⟨record.guest, ⟨index, record, hindex, hidle, rfl⟩, hnumber, hlabel⟩
  · rintro ⟨-, ⟨index, record, hindex, hidle, rfl⟩, rfl, rfl⟩
    refine ⟨index, record, hindex, hidle, ?_, ?_⟩
    · rw [pid?, hindex, Option.map_some]
    · rw [task?, hindex, Option.map_some]

theorem mem_tasks_iff_busy :
    number ∈ session.tasks ↔ number ∈ session.busyGuests.map Guest.pid := by
  simp only [tasks, List.mem_mergeSort, List.mem_eraseDups, busyGuests]

theorem sortedLT_tasks (session : Session) : session.tasks.SortedLT := by
  have hsorted : session.tasks.SortedLE :=
    (List.pairwise_mergeSort' (· ≤ ·) (session.busyGuests.map Guest.pid).eraseDups).sortedLE
  apply hsorted.sortedLT_of_nodup
  apply (List.mergeSort_perm _ _).nodup_iff.mpr
  exact nodup_eraseDups _

theorem length_tasks (session : Session) :
    session.tasks.length = session.busyGuests.toFinset.card := by
  have hlength : session.tasks.length = (session.busyGuests.map Guest.pid).toFinset.card := by
    rw [tasks, List.length_mergeSort, length_eraseDups]
    rfl
  rw [hlength]
  apply card_toFinset_map
  exact Guest.pid_injOn.mono fun guest => not_isIdle_of_mem_busyGuests

theorem ncard_labels (session : Session) :
    {label | ∃ number, session.ShowsTask number label}.ncard =
      session.busyGuests.toFinset.card := by
  have hlabels : {label | ∃ number, session.ShowsTask number label} =
      ((session.busyGuests.map Guest.label).toFinset : Set String) := by
    ext label
    simp [showsTask_iff]
  rw [hlabels, Set.ncard_coe_finset]
  exact card_toFinset_map Guest.label_injective.injOn

/-- What the list of tasks has to be as an index of the guests. -/
structure IndexesGuests (session : Session) : Prop where
  ascending : session.tasks.SortedLT
  mem_tasks_iff : ∀ number, number ∈ session.tasks ↔ ∃ label, session.ShowsTask number label
  /-- There is one entry for each label. -/
  length_eq : session.tasks.length = {label | ∃ number, session.ShowsTask number label}.ncard
  /-- No two guests share an entry. -/
  unshared : ∀ number label other, session.ShowsTask number label →
    session.ShowsTask number other → label = other
  /-- Every guest, idle or not, gets its number without an overflow. -/
  computed : ∀ guest : Guest, ∃ register, guest.pid? = some register ∧ register.toInt = guest.pid

/-- The tasks of a session are listed by number, each of them once. They are
those of the rows outside the idle domain, each with a number of its own. -/
theorem tasks_index_guests (session : Session) : session.IndexesGuests where
  ascending := session.sortedLT_tasks
  mem_tasks_iff number := by
    rw [mem_tasks_iff_busy, List.mem_map]
    simp [showsTask_iff]
  length_eq := by
    rw [length_tasks, ncard_labels]
  unshared number label other hlabel hother := by
    obtain ⟨first, hfirst, rfl, rfl⟩ := showsTask_iff.mp hlabel
    obtain ⟨second, hsecond, hnumber, rfl⟩ := showsTask_iff.mp hother
    obtain rfl := Guest.pid_injOn (not_isIdle_of_mem_busyGuests hsecond)
      (not_isIdle_of_mem_busyGuests hfirst) hnumber
    rfl
  computed := Guest.exists_pid?

end Session

end HypervisorTrace
