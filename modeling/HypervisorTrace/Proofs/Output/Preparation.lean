import HypervisorTrace.Output
import HypervisorTrace.Proofs.Store.Paths

/-!
Paths that can be written at. Where writing to a path writes to some location,
every name on the way but the last is that of a directory. So the directory
that the file lies in is there, and preparing the path makes nothing and
refuses nothing.
-/

namespace HypervisorTrace

namespace Store

variable {store : Store} {path parent : String} {location last : Location}

/-- Names are followed in two parts: what some first names lead to is where the
others are followed from. -/
theorem exists_of_follow_append {front back : List String}
    (hfollow : store.follow location (front ++ back) = .ok last) :
    ∃ middle, store.follow location front = .ok middle ∧ store.follow middle back = .ok last := by
  induction front generalizing location with
  | nil => exact ⟨location, rfl, hfollow⟩
  | cons name rest ih =>
      rw [List.cons_append, follow] at hfollow
      split at hfollow
      · cases hfollow
      · rename_i hdirectory
        split at hfollow
        · cases hfollow
        · rename_i hlength
          obtain ⟨middle, hfront, hback⟩ := ih hfollow
          refine ⟨middle, ?_, hback⟩
          rw [follow, hdirectory]
          dsimp only
          rw [if_neg hlength, hfront]
      · cases hfollow

/-- A name is only followed from a directory. -/
theorem at?_of_follow_cons {name : String} {names : List String}
    (hfollow : store.follow location (name :: names) = .ok last) :
    store.at? location = some .directory := by
  rw [follow] at hfollow
  split at hfollow
  · cases hfollow
  · assumption
  · cases hfollow

theorem locate_eq_ok_iff :
    store.locate path = .ok location ↔ Path.fault? path = none ∧
      store.follow (if Path.isAbsolute path then .root else .start) (Path.names path) =
        .ok location := by
  rw [locate, followFrom]
  cases Path.fault? path with
  | none => exact (and_iff_right rfl).symm
  | some fault => exact iff_of_false nofun nofun

theorem target_eq_ok_iff :
    store.target path = .ok location ↔ Path.endsInSlash path = false ∧
      store.locate path = .ok location ∧ store.at? location ≠ some .directory := by
  unfold target
  cases hslash : Path.endsInSlash path with
  | true =>
      refine iff_of_false ?_ nofun
      rw [if_pos rfl]
      cases store.locateHolder path <;> exact nofun
  | false =>
      rw [if_neg Bool.false_ne_true]
      cases hlocate : store.locate path with
      | error fault => exact iff_of_false nofun nofun
      | ok reached =>
          dsimp only
          split
          · rename_i hdirectory
            refine iff_of_false nofun ?_
            rintro ⟨-, hreached, hentry⟩
            cases hreached
            exact hentry hdirectory
          · rename_i hentry
            rw [Except.ok.injEq]
            constructor
            · rintro rfl
              exact ⟨rfl, rfl, hentry⟩
            · exact fun hreached => hreached.2.1

/-- What a path that leads anywhere lies in is there. -/
theorem holds_parent (hlocate : store.locate path = .ok location)
    (hparent : Path.parent? path = some parent) (hsome : parent ≠ "") : store.holds parent := by
  obtain ⟨hfault, hfollow⟩ := locate_eq_ok_iff.mp hlocate
  obtain ⟨hsound, hstart, name, others, hnames⟩ := Path.names_of_parent? hparent hsome hfault
  rw [hnames] at hfollow
  obtain ⟨middle, hfront, hback⟩ := exists_of_follow_append hfollow
  have hmiddle : store.locate parent = .ok middle := by
    rw [locate_eq_ok_iff, hstart]
    exact ⟨hsound, hfront⟩
  rw [holds, find, hmiddle]
  dsimp only
  rw [at?_of_follow_cons hback]
  rfl

theorem isDirectory_of_target (htarget : store.target path = .ok location) :
    store.isDirectory path = false := by
  obtain ⟨hslash, hlocate, hentry⟩ := target_eq_ok_iff.mp htarget
  rw [isDirectory, find, hlocate, hslash]
  dsimp only
  cases hat : store.at? location with
  | none => rfl
  | some entry =>
      cases entry with
      | directory => exact absurd hat hentry
      | file content => rfl
      | full => rfl

end Store

/-- A path that can be written at needs no preparation. -/
theorem Output.prepare_of_target {store : Store} {path : String} {location : Location}
    (htarget : store.target path = .ok location) : prepare store path = (store, .ok ()) := by
  obtain ⟨-, hlocate, -⟩ := Store.target_eq_ok_iff.mp htarget
  have hsome := ((Path.fault?_eq_none_iff path).mp (Store.locate_eq_ok_iff.mp hlocate).1).2.1
  rw [prepare, if_neg hsome, Store.isDirectory_of_target htarget, if_neg Bool.false_ne_true]
  cases hparent : Path.parent? path with
  | none => rfl
  | some parent =>
      dsimp only
      rw [if_pos]
      by_cases hempty : parent = ""
      · exact Or.inl hempty
      · exact Or.inr (Store.holds_parent hlocate hparent hempty)

end HypervisorTrace
