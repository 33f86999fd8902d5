import HypervisorTrace.Proofs.Statistics.Conservation
import HypervisorTrace.Proofs.Text.Bytes

/-!
The ranking of events. Entries are ordered by their count and, where counts are
equal, by the bytes of their names, so of two entries with different names one
always outranks the other. A tally has one entry for each name; there is then one
way only to list it by rank, whatever the order was in which its entries were
found. The same goes for the other tallies, which are listed by their keys.
-/

namespace HypervisorTrace

namespace Tally

section Order

variable {first second third : String × Nat}

/-- Whether an entry has a greater count than another, or the same count and a
name that is before the other one by its bytes. -/
def Outranks (first second : String × Nat) : Prop :=
  second.2 < first.2 ∨ first.2 = second.2 ∧ Text.utf8 first.1 < Text.utf8 second.1

theorem ranksBefore_iff :
    ranksBefore first second ↔
      second.2 < first.2 ∨ first.2 = second.2 ∧ first.1 ≤ second.1 := by
  simp [ranksBefore]

theorem ranksBefore_trans (hfirst : ranksBefore first second) (hsecond : ranksBefore second third) :
    ranksBefore first third := by
  rw [ranksBefore_iff] at *
  rcases hfirst with hmore | ⟨hsame, hname⟩
  · rcases hsecond with hmore' | ⟨hsame', -⟩ <;> left <;> omega
  · rcases hsecond with hmore' | ⟨hsame', hname'⟩
    · left
      omega
    · exact Or.inr ⟨hsame.trans hsame', hname.trans hname'⟩

theorem ranksBefore_total (first second : String × Nat) :
    ranksBefore first second || ranksBefore second first := by
  rw [Bool.or_eq_true, ranksBefore_iff, ranksBefore_iff]
  rcases lt_trichotomy first.2 second.2 with hless | hsame | hmore
  · exact Or.inr (Or.inl hless)
  · rcases le_total first.1 second.1 with hname | hname
    · exact Or.inl (Or.inr ⟨hsame, hname⟩)
    · exact Or.inr (Or.inr ⟨hsame.symm, hname⟩)
  · exact Or.inl (Or.inl hmore)

theorem outranks_of_ranksBefore (hbefore : ranksBefore first second)
    (hnames : first.1 ≠ second.1) : Outranks first second := by
  rcases ranksBefore_iff.mp hbefore with hmore | ⟨hsame, hname⟩
  · exact Or.inl hmore
  · exact Or.inr ⟨hsame, Text.utf8_lt_utf8_iff.mpr (lt_of_le_of_ne hname hnames)⟩

theorem Outranks.not_symm (hfirst : Outranks first second) : ¬ Outranks second first := by
  rintro (hmore | ⟨hsame, hname⟩)
  · rcases hfirst with hmore' | ⟨hsame', -⟩ <;> omega
  · rcases hfirst with hmore' | ⟨-, hname'⟩
    · omega
    · exact List.lt_asymm hname hname'

end Order

section Listing

variable {α : Type} [DecidableEq α] {tally other : Tally α} {members others : List α}

theorem IsOf.mem_iff (hof : tally.IsOf members) {entry : α × Nat} :
    entry ∈ tally ↔ entry.1 ∈ members ∧ entry.2 = members.count entry.1 := by
  constructor
  · intro hentry
    refine ⟨?_, hof.count_of_mem hentry⟩
    rw [← hof.mem_keys]
    exact List.mem_map_of_mem hentry
  · rintro ⟨hmember, hcount⟩
    obtain ⟨listed, hlisted, hkey⟩ := List.mem_map.mp ((hof.mem_keys entry.1).mpr hmember)
    have hsame : listed.2 = entry.2 := by
      rw [hof.count_of_mem hlisted, hcount, hkey]
    rwa [← Prod.ext hkey hsame]

/-- Two tallies of the same members have the same entries. -/
theorem IsOf.perm_of (hof : tally.IsOf members) (hother : other.IsOf others)
    (hmembers : members.Perm others) : List.Perm tally other := by
  apply (List.perm_ext_iff_of_nodup hof.nodup.of_map hother.nodup.of_map).mpr
  intro entry
  rw [hof.mem_iff, hother.mem_iff, hmembers.mem_iff, hmembers.count_eq]

/-- If an order tells entries apart by their keys, there is one way only to list a
tally in that order. -/
theorem IsOf.eq_of_pairwise {order : α × Nat → α × Nat → Prop} (hof : tally.IsOf members)
    (hother : other.IsOf others) (hmembers : members.Perm others)
    (hkeys : ∀ first second, order first second → order second first → first.1 = second.1)
    (htally : tally.Pairwise order) (hlisted : other.Pairwise order) : tally = other := by
  apply List.Perm.eq_of_pairwise _ htally hlisted (hof.perm_of hother hmembers)
  intro first second hfirst hsecond hbefore hafter
  have hkey := hkeys first second hbefore hafter
  apply Prod.ext hkey
  rw [hof.count_of_mem hfirst, hother.count_of_mem hsecond, hkey, hmembers.count_eq]

end Listing

theorem pairwise_mergeSort_key {α : Type} (key : α → Nat) (tally : Tally α) :
    (tally.mergeSort fun first second => key first.1 ≤ key second.1).Pairwise
      fun first second => key first.1 ≤ key second.1 := by
  have hsorted := @List.pairwise_mergeSort (α × Nat)
    (fun first second => key first.1 ≤ key second.1)
    (fun _ _ _ => by simpa using Nat.le_trans) (fun _ _ => by simpa using Nat.le_total _ _) tally
  simpa using hsorted

theorem IsOf.pairwise_outranks {tally : Tally String} {names : List String}
    (hof : tally.IsOf names) : (tally.mergeSort ranksBefore).Pairwise Outranks := by
  have hsorted := @List.pairwise_mergeSort _ ranksBefore (fun _ _ _ => ranksBefore_trans)
    ranksBefore_total tally
  have hdistinct := List.pairwise_map.mp (hof.perm (List.mergeSort_perm tally ranksBefore)).nodup
  apply (hsorted.and hdistinct).imp
  intro first second hboth
  exact outranks_of_ranksBefore hboth.1 hboth.2

end Tally

namespace Event.Class

theorem mem_all (eventClass : Class) : eventClass ∈ all := by
  cases eventClass <;> decide

theorem rank_injective : Function.Injective rank := by
  intro first second hrank
  exact (List.idxOf_inj (mem_all first)).mp hrank

end Event.Class

namespace Session

open Tally

variable {session other : Session}

/-- Two sessions in which the same events occurred equally often on each processor,
in whatever order. -/
def SameEvents (session other : Session) : Prop :=
  (session.records.map fun record => (record.eventId, record.cpu)).Perm
    (other.records.map fun record => (record.eventId, record.cpu))

/-- What the ids and the processors of the records tell occurs equally often. -/
theorem SameEvents.map (hsame : session.SameEvents other) {α : Type} (tell : Word × UInt16 → α) :
    (session.records.map fun record => tell (record.eventId, record.cpu)).Perm
      (other.records.map fun record => tell (record.eventId, record.cpu)) := by
  have htold := List.Perm.map tell hsame
  rwa [List.map_map, List.map_map] at htold

theorem ranking_outranks (session : Session) : session.ranking.Pairwise Outranks :=
  session.counts_areOf.byName.pairwise_outranks

/-- There is one way only to list the names by rank. -/
theorem eq_ranking {listing : Tally String} {names : List String} (hof : listing.IsOf names)
    (hnames : names.Perm (session.records.map fun record => Event.name record.eventId))
    (hordered : listing.Pairwise Outranks) : listing = session.ranking := by
  apply hof.eq_of_pairwise session.ranking_isOf hnames _ hordered session.ranking_outranks
  intro first second hfirst hsecond
  exact absurd hsecond hfirst.not_symm

section SameEvents

variable (hsame : session.SameEvents other) (top : Nat)

include hsame

theorem SameEvents.ranking : session.ranking = other.ranking :=
  eq_ranking session.ranking_isOf (hsame.map fun told => Event.name told.1) session.ranking_outranks

theorem SameEvents.byClass : (session.statistics top).byClass = (other.statistics top).byClass := by
  have hordered (counted : Session) :=
    pairwise_mergeSort_key Event.Class.rank counted.counts.byClass
  apply (session.byClass_isOf top).eq_of_pairwise (other.byClass_isOf top)
    (hsame.map fun told => Event.Class.ofId told.1) _ (hordered session) (hordered other)
  intro first second hfirst hsecond
  exact Event.Class.rank_injective (Nat.le_antisymm hfirst hsecond)

theorem SameEvents.byCpu : (session.statistics top).byCpu = (other.statistics top).byCpu := by
  have hordered (counted : Session) := pairwise_mergeSort_key UInt16.toNat counted.counts.byCpu
  apply (session.byCpu_isOf top).eq_of_pairwise (other.byCpu_isOf top)
    (hsame.map Prod.snd) _ (hordered session) (hordered other)
  intro first second hfirst hsecond
  exact UInt16.toNat_inj.mp (Nat.le_antisymm hfirst hsecond)

theorem SameEvents.unknownEvents :
    (session.statistics top).unknownEvents = (other.statistics top).unknownEvents := by
  rw [unknownEvents_eq_countP, unknownEvents_eq_countP]
  exact (hsame.map Prod.fst).countP_eq _

end SameEvents

/-- The names of the events of all records. -/
def eventNames (session : Session) : List String :=
  session.records.map fun record => Event.name record.eventId

theorem length_ranking (session : Session) :
    session.ranking.length = (session.answers session.eventName?).toFinset.card := by
  rw [session.ranking_isOf.length_eq_card]
  exact (card_answers fun _ => rfl).symm

/-- A name that is not among the first is among the rest, with the number of its
records. -/
theorem mem_drop_ranking {top : Nat} {name : String}
    (hname : some name ∈ session.answers session.eventName?)
    (hleft : name ∉ Table.keys (session.ranking.take top)) :
    (name, (session.answers session.eventName?).count (some name)) ∈ session.ranking.drop top := by
  have hanswers : session.answers session.eventName? = session.eventNames.map some :=
    answers_eq_map_some fun _ => rfl
  rw [hanswers, List.count_map_of_injective _ _ (Option.some_injective String)]
  rw [hanswers, List.mem_map_of_injective (Option.some_injective String)] at hname
  have hlisted : (name, session.eventNames.count name) ∈ session.ranking :=
    session.ranking_isOf.mem_iff.mpr ⟨hname, rfl⟩
  rw [← List.take_append_drop top session.ranking, List.mem_append] at hlisted
  rcases hlisted with hkept | hrest
  · exact absurd (List.mem_map_of_mem hkept) hleft
  · exact hrest

/-- What the ranking of the events of a session has to be. -/
structure RanksCanonically (session : Session) (top : Nat) : Prop where
  length_eq : (session.statistics top).topEvents.length =
    min top (session.answers session.eventName?).toFinset.card
  names_distinct : (session.statistics top).topEvents.keys.Nodup
  ordered : (session.statistics top).topEvents.Pairwise Outranks
  /-- A name that is left out is outranked by every one that is kept. -/
  left_out : ∀ kept ∈ (session.statistics top).topEvents, ∀ name,
    some name ∈ session.answers session.eventName? →
      name ∉ (session.statistics top).topEvents.keys →
        Outranks kept (name, (session.answers session.eventName?).count (some name))
  grows : ∀ more, top ≤ more →
    (session.statistics top).topEvents <+: (session.statistics more).topEvents
  /-- The order in which the names are counted and listed makes no difference. -/
  any_listing : ∀ listing : Tally String, listing.IsOf session.eventNames →
    (listing.mergeSort ranksBefore).take top = (session.statistics top).topEvents
  unique : ∀ listing : Tally String, listing.IsOf session.eventNames →
    listing.Pairwise Outranks → listing.take top = (session.statistics top).topEvents
  /-- Nor does the order of the records. -/
  same_events : ∀ other : Session, session.SameEvents other →
    (session.statistics top).topEvents = (other.statistics top).topEvents ∧
      (session.statistics top).byClass = (other.statistics top).byClass ∧
      (session.statistics top).byCpu = (other.statistics top).byCpu ∧
      (session.statistics top).unknownEvents = (other.statistics top).unknownEvents

/-- The statistics list as many names as they are asked for, if there are as many,
each once, by count and then by bytes, and none of the others comes before them.
The list depends on nothing but how often each event occurred, and neither do the
other counts on anything but that and the processors. -/
theorem top_events_canonical (session : Session) (top : Nat) : session.RanksCanonically top where
  length_eq := by
    rw [← length_ranking, ← List.length_take]
    rfl
  names_distinct := by
    have hsublist := (List.take_sublist top session.ranking).map Prod.fst
    exact hsublist.nodup session.ranking_isOf.nodup
  ordered := session.ranking_outranks.sublist (List.take_sublist top session.ranking)
  left_out kept hkept name hname hleft := by
    have hordered := session.ranking_outranks
    rw [← List.take_append_drop top session.ranking, List.pairwise_append] at hordered
    exact hordered.2.2 kept hkept _ (mem_drop_ranking hname hleft)
  grows more hmore := List.take_prefix_take_left hmore
  any_listing listing hof := by
    rw [eq_ranking (hof.perm (List.mergeSort_perm _ _)) (List.Perm.refl _) hof.pairwise_outranks]
    rfl
  unique listing hof hordered := by
    rw [eq_ranking hof (List.Perm.refl _) hordered]
    rfl
  same_events other hsame := by
    refine ⟨?_, hsame.byClass top, hsame.byCpu top, hsame.unknownEvents top⟩
    exact congrArg (List.take top) hsame.ranking

end Session

end HypervisorTrace
