import HypervisorTrace.Proofs.Event.Catalogue
import HypervisorTrace.Proofs.Session.Outcome
import HypervisorTrace.Proofs.Statistics.Tallying
import HypervisorTrace.Statistics

/-!
What statistics conserve. Every entry is counted once by its class, once on its
processor and once under its name, so each of these counts adds up to the number
of records. What is counted of an entry is what the session answers about the
row with its index, and an entry without a known class is not recognized.
-/

namespace HypervisorTrace

namespace Counts

/-- Whether some entries, and nothing else, have been counted. -/
structure AreOf (counts : Counts) (entries : List Entry) : Prop where
  byClass : counts.byClass.IsOf (entries.map fun entry => Event.Class.ofId entry.eventId)
  byCpu : counts.byCpu.IsOf (entries.map (·.cpu))
  byName : counts.byName.IsOf (entries.map fun entry => Event.name entry.eventId)
  unknownEvents : counts.unknownEvents =
    (entries.map (·.eventId)).countP fun id => (Event.name? id).isNone

theorem start_areOf : start.AreOf [] :=
  ⟨.nil, .nil, .nil, rfl⟩

theorem byName_add (counts : Counts) (entry : Entry) :
    (counts.add entry).byName = counts.byName.add (Event.name entry.eventId) := by
  unfold add Event.name
  cases Event.name? entry.eventId <;> rfl

theorem unknownEvents_add (counts : Counts) (entry : Entry) :
    (counts.add entry).unknownEvents =
      counts.unknownEvents + if (Event.name? entry.eventId).isNone then 1 else 0 := by
  unfold add
  cases Event.name? entry.eventId <;> rfl

theorem byClass_add (counts : Counts) (entry : Entry) :
    (counts.add entry).byClass = counts.byClass.add (Event.Class.ofId entry.eventId) := by
  unfold add
  cases Event.name? entry.eventId <;> rfl

theorem byCpu_add (counts : Counts) (entry : Entry) :
    (counts.add entry).byCpu = counts.byCpu.add entry.cpu := by
  unfold add
  cases Event.name? entry.eventId <;> rfl

variable {counts : Counts} {entries : List Entry}

/-- One more entry is counted in every tally. -/
theorem AreOf.add (hof : counts.AreOf entries) (entry : Entry) :
    (counts.add entry).AreOf (entries ++ [entry]) where
  byClass := by
    rw [byClass_add, List.map_append]
    exact hof.byClass.add _
  byCpu := by
    rw [byCpu_add, List.map_append]
    exact hof.byCpu.add _
  byName := by
    rw [byName_add, List.map_append]
    exact hof.byName.add _
  unknownEvents := by
    rw [unknownEvents_add, hof.unknownEvents, List.map_append, List.countP_append]
    exact congrArg _ List.countP_singleton.symm

theorem foldl_areOf (entries : List Entry) : (entries.foldl add start).AreOf entries := by
  induction entries using List.reverseRecOn with
  | nil => exact start_areOf
  | append_singleton entries entry ih =>
      rw [List.foldl_append]
      exact ih.add entry

end Counts

namespace Session

section Rows

variable {α : Type} (session : Session)

def cpu? (index : Nat) : Option UInt16 :=
  (session.record? index).map (·.cpu)

def eventClass? (index : Nat) : Option Event.Class :=
  (session.record? index).map (·.eventClass)

/-- The answers to a query about every row. -/
def answers (query : Nat → α) : List α :=
  (List.range session.length).map query

variable {session}

/-- A query that tells of a row what its record tells is answered record by
record. -/
theorem answers_eq_map {query : Nat → α} {tell : Record → α}
    (hquery : ∀ index record, session.record? index = some record → query index = tell record) :
    session.answers query = session.records.map tell := by
  apply List.ext_getElem
  · rw [answers, List.length_map, List.length_map, List.length_range, length]
  · intro index hrange hrecord
    rw [List.length_map] at hrecord
    simp only [answers, List.getElem_map, List.getElem_range]
    exact hquery index _ (List.getElem?_eq_getElem hrecord)

section Told

variable {β : Type} {query : Nat → Option β} {tell : Record → β}

theorem answers_eq_map_some
    (hquery : ∀ index, query index = (session.record? index).map tell) :
    session.answers query = (session.records.map tell).map some := by
  rw [List.map_map]
  apply answers_eq_map
  intro index record hrecord
  rw [hquery, hrecord]
  rfl

variable [DecidableEq β]

theorem count_answers (hquery : ∀ index, query index = (session.record? index).map tell)
    (answer : β) :
    (session.answers query).count (some answer) = (session.records.map tell).count answer := by
  rw [answers_eq_map_some hquery, List.count_map_of_injective _ _ (Option.some_injective β)]

theorem card_answers (hquery : ∀ index, query index = (session.record? index).map tell) :
    (session.answers query).toFinset.card = (session.records.map tell).toFinset.card := by
  rw [answers_eq_map_some hquery]
  exact card_toFinset_map (Option.some_injective β).injOn

end Told

theorem map_entries {read : Entry → α} {tell : Record → α}
    (hread : ∀ record index, read (session.entry record index) = tell record) :
    session.entries.map read = session.records.map tell := by
  rw [entries, List.map_map]
  have hpair : (read ∘ fun pair : Record × Nat => session.entry pair.1 pair.2) =
      tell ∘ Prod.fst := by
    funext pair
    exact hread pair.1 pair.2
  rw [hpair, ← List.map_map, List.zipIdx_map_fst]

end Rows

section Statistics

variable (session : Session) (top : Nat)

theorem counts_areOf : session.counts.AreOf session.entries :=
  Counts.foldl_areOf session.entries

theorem byClass_isOf :
    (session.statistics top).byClass.IsOf (session.records.map (·.eventClass)) := by
  have hentries : session.entries.map (fun entry => Event.Class.ofId entry.eventId) =
      session.records.map (·.eventClass) := map_entries fun _ _ => rfl
  rw [← hentries]
  exact session.counts_areOf.byClass.perm (List.mergeSort_perm _ _)

theorem byCpu_isOf : (session.statistics top).byCpu.IsOf (session.records.map (·.cpu)) := by
  have hentries : session.entries.map (·.cpu) = session.records.map (·.cpu) :=
    map_entries fun _ _ => rfl
  rw [← hentries]
  exact session.counts_areOf.byCpu.perm (List.mergeSort_perm _ _)

/-- All the names by rank, of which the statistics list the first. -/
def ranking : Tally String :=
  session.counts.byName.mergeSort Tally.ranksBefore

theorem ranking_isOf :
    session.ranking.IsOf (session.records.map fun record => Event.name record.eventId) := by
  have hentries : session.entries.map (fun entry => Event.name entry.eventId) =
      session.records.map fun record => Event.name record.eventId := map_entries fun _ _ => rfl
  rw [← hentries]
  exact session.counts_areOf.byName.perm (List.mergeSort_perm _ _)

theorem answers_eventInfo :
    session.answers session.eventInfo =
      session.records.map fun record => Event.info record.eventId record.extra := by
  apply answers_eq_map
  intro index record hrecord
  rw [eventInfo, hrecord]

theorem unknownEvents_eq_countP :
    (session.statistics top).unknownEvents =
      (session.records.map (·.eventId)).countP fun id => (Event.name? id).isNone := by
  have hentries : session.entries.map (·.eventId) = session.records.map (·.eventId) :=
    map_entries fun _ _ => rfl
  rw [← hentries]
  exact session.counts_areOf.unknownEvents

theorem unknownEvents_eq_count :
    (session.statistics top).unknownEvents =
      (session.answers session.eventInfo).count .unrecognized := by
  rw [unknownEvents_eq_countP, answers_eventInfo, List.count, List.countP_map, List.countP_map]
  apply List.countP_congr
  intro record _
  rw [Function.comp_apply, Function.comp_apply, beq_iff_eq]
  exact Event.Catalogue.isNone_name?_iff record.extra

/-- A row of the unknown class is not recognized. -/
theorem count_unknown_le :
    (session.records.map (·.eventClass)).count .unknown ≤
      (session.answers session.eventInfo).count .unrecognized := by
  rw [answers_eventInfo, List.count, List.count, List.countP_map, List.countP_map]
  apply List.countP_mono_left
  intro record _ hclass
  rw [Function.comp_apply, beq_iff_eq] at hclass ⊢
  rw [Event.info, Event.Catalogue.lookup_of_unknown hclass]

end Statistics

end Session

/-- What statistics of a session and its queries have to say to each other. -/
structure Statistics.AgreesWith (statistics : Statistics) (session : Session) (top : Nat) :
    Prop where
  recordCount : statistics.recordCount = session.length
  total_byClass : statistics.byClass.total = statistics.recordCount
  total_byCpu : statistics.byCpu.total = statistics.recordCount
  pos_byClass : ∀ bucket ∈ statistics.byClass, 0 < bucket.2
  pos_byCpu : ∀ bucket ∈ statistics.byCpu, 0 < bucket.2
  pos_topEvents : ∀ bucket ∈ statistics.topEvents, 0 < bucket.2
  classes_distinct : statistics.byClass.keys.Nodup
  cpus_distinct : statistics.byCpu.keys.Nodup
  cpuCount : statistics.cpuCount = session.cpuCount
  length_byCpu : statistics.byCpu.length = statistics.cpuCount
  byClass : ∀ eventClass, statistics.byClass.count eventClass =
    (session.answers session.eventClass?).count (some eventClass)
  byCpu : ∀ cpu, statistics.byCpu.count cpu = (session.answers session.cpu?).count (some cpu)
  unknownEvents :
    statistics.unknownEvents = (session.answers session.eventInfo).count .unrecognized
  unknownClass_le : statistics.byClass.count .unknown ≤ statistics.unknownEvents
  topEvents : ∀ event ∈ statistics.topEvents,
    event.2 = (session.answers session.eventName?).count (some event.1)
  /-- With room for every name, no record is left out. -/
  total_topEvents : (session.answers session.eventName?).toFinset.card ≤ top →
    statistics.topEvents.total = statistics.recordCount

namespace Session

theorem statistics_agree (session : Session) (top : Nat) :
    (session.statistics top).AgreesWith session top where
  recordCount := rfl
  total_byClass := by
    rw [(session.byClass_isOf top).total, List.length_map]
    rfl
  total_byCpu := by
    rw [(session.byCpu_isOf top).total, List.length_map]
    rfl
  pos_byClass _ hbucket := (session.byClass_isOf top).pos_of_mem hbucket
  pos_byCpu _ hbucket := (session.byCpu_isOf top).pos_of_mem hbucket
  pos_topEvents _ hbucket := session.ranking_isOf.pos_of_mem (List.mem_of_mem_take hbucket)
  classes_distinct := (session.byClass_isOf top).nodup
  cpus_distinct := (session.byCpu_isOf top).nodup
  cpuCount := rfl
  length_byCpu := by
    rw [(session.byCpu_isOf top).length_eq_card, ← cpuCount_eq_card]
    rfl
  byClass eventClass :=
    ((session.byClass_isOf top).count eventClass).trans (count_answers (fun _ => rfl) _).symm
  byCpu cpu :=
    ((session.byCpu_isOf top).count cpu).trans (count_answers (fun _ => rfl) _).symm
  unknownEvents := session.unknownEvents_eq_count top
  unknownClass_le := by
    rw [(session.byClass_isOf top).count, unknownEvents_eq_count]
    exact session.count_unknown_le
  topEvents _ hevent :=
    (session.ranking_isOf.count_of_mem (List.mem_of_mem_take hevent)).trans
      (count_answers (fun _ => rfl) _).symm
  total_topEvents hroom := by
    have hlength : session.ranking.length ≤ top := by
      rw [session.ranking_isOf.length_eq_card, ← card_answers (fun _ => rfl)]
      exact hroom
    have hall : (session.statistics top).topEvents = session.ranking :=
      List.take_of_length_le hlength
    rw [hall, session.ranking_isOf.total, List.length_map]
    rfl

end Session

end HypervisorTrace
