import HypervisorTrace.Proofs.Guest.Labels
import HypervisorTrace.Proofs.Guest.Numbering
import HypervisorTrace.Proofs.Session.Opening

/-!
Tasks and their numbers in a session. Two records that show the same task have
the same number, and all records of the idle domain have number zero. The
other way round there is one collision: the last guest is not idle and has
number zero too, so its records cannot be told from idle ones by their number.
-/

namespace HypervisorTrace.Session

open Wire

variable {session : Session} {index other : Nat} {record another : Record}

theorem pid?_of_record (hrecord : session.record? index = some record) :
    session.pid? index = some record.guest.pid := by
  rw [pid?, hrecord, Option.map_some]

theorem task?_eq_task?_iff (hrecord : session.record? index = some record)
    (hanother : session.record? other = some another) :
    session.task? index = session.task? other ↔ record.guest = another.guest := by
  rw [task?, task?, hrecord, hanother, Option.map_some, Option.map_some, Option.some_inj]
  exact Guest.label_injective.eq_iff

/-- Two records of a session have the same task number if both are idle or they
show the same task, and otherwise only if one is idle and the other belongs to
the last guest. So number zero stands for the idle domain and that guest. -/
theorem pid_eq_iff_task_eq (hrecord : session.record? index = some record)
    (hanother : session.record? other = some another) :
    (session.pid? index = session.pid? other ↔
      (record.guest.isIdle ∧ another.guest.isIdle ∨
        session.task? index = session.task? other) ∨
      (record.guest.isIdle ∧ another.guest = .last ∨
        record.guest = .last ∧ another.guest.isIdle)) ∧
    (session.pid? index = some 0 ↔ record.guest.isIdle ∨ record.guest = .last) := by
  rw [pid?_of_record hrecord, pid?_of_record hanother, Option.some_inj, Option.some_inj,
    task?_eq_task?_iff hrecord hanother]
  exact ⟨Guest.pid_eq_iff record.guest another.guest, Guest.pid_eq_zero_iff record.guest⟩

/-- The first virtual processor of the first two domains: two tasks, two
numbers, and neither is zero. -/
theorem pid_eq_iff_task_eq_two_domains :
    let records : List FixedHeader.Stored :=
      [⟨0x0001f003, 0, 0, [0, 0], by decide⟩,
        ⟨0x00081001, 0x00000000, 10, [], by decide⟩,
        ⟨0x00081001, 0x00010000, 20, [], by decide⟩]
    ∃ session, ofBytes (FixedHeader.coding.encodeAll records)
        ⟨Clock.standard, .fixedHeader, 0⟩ = .ok session ∧
      session.task? 0 ≠ session.task? 1 ∧ session.pid? 0 ≠ session.pid? 1 ∧
      session.pid? 0 ≠ some 0 := by
  intro records
  have hopen : ofBytes (FixedHeader.coding.encodeAll records)
      ⟨Clock.standard, .fixedHeader, 0⟩ = .ok _ :=
    ofBytes_encodeAll_fixedHeader rfl rfl (by decide)
  refine ⟨_, hopen, ?_, ?_, ?_⟩
  · exact (task?_eq_task?_iff rfl rfl).not.mpr (by decide)
  · exact (pid_eq_iff_task_eq rfl rfl).1.not.mpr (by decide)
  · exact (@pid_eq_iff_task_eq _ 0 1 _ _ rfl rfl).2.not.mpr (by decide)

/-- The last guest runs after the idle domain did: two records with number zero
that show different tasks, in either framing. -/
theorem last_guest_shares_idle_pid :
    let items : List Trec.Stored :=
      [.mk 0x0001f003 none [0],
        .mk 0x00021101 (some 10) [0xffffffff],
        .mk 0x00081001 (some 20) []]
    let records : List FixedHeader.Stored :=
      [⟨0x0001f003, 0, 0, [0, 0], by decide⟩,
        ⟨0x00081001, 0x7fff0000, 10, [], by decide⟩,
        ⟨0x00081001, 0xffffffff, 20, [], by decide⟩]
    (∃ session, ofBytes (Trec.coding.encodeAll items) Options.standard = .ok session ∧
      session.pid? 0 = some 0 ∧ session.task? 0 = some "idle/v0" ∧
      session.pid? 1 = some 0 ∧ session.task? 1 = some "d65535/v65535") ∧
    ∃ session, ofBytes (FixedHeader.coding.encodeAll records)
        ⟨Clock.standard, .fixedHeader, 0⟩ = .ok session ∧
      session.pid? 0 = some 0 ∧ session.task? 0 = some "idle/v0" ∧
      session.pid? 1 = some 0 ∧ session.task? 1 = some "d65535/v65535" := by
  intro items records
  constructor
  · exact ⟨_, ofBytes_encodeAll rfl rfl (by decide), rfl, rfl, rfl, rfl⟩
  · exact ⟨_, ofBytes_encodeAll_fixedHeader rfl rfl (by decide), rfl, rfl, rfl, rfl⟩

end HypervisorTrace.Session
