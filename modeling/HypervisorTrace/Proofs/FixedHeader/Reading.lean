import HypervisorTrace.Proofs.FixedHeader.Encoding
import HypervisorTrace.Proofs.Wire.Concatenation
import HypervisorTrace.Wire.Format

/-!
Reading a stream with fixed headers. Events are written one after the other,
each after a change of processor if it comes from another one than the event
before it. Reading gives back exactly the events, each at the place where its
own words start. The upper four bits of id words, and what a change of
processor holds besides the processor, make no difference.

The streams that are read are those that can be cut into records, and each can
be cut in one way only: no length is stored, but the catalogue gives one for
every id.
-/

namespace HypervisorTrace.Wire.FixedHeader

/-- The word with an id in its lower 28 bits and anything in the upper four. -/
def idWord (upper : Fin 16) (id : Word) : Word :=
  id ||| UInt32.ofNat upper.val <<< 28

theorem number_idWord (upper : Fin 16) {id : Word} (hid : id.toNat < 0x10000000) :
    Event.Id.number (idWord upper id) = id := by
  have hupper : (UInt32.ofNat upper.val <<< 28).toNat = 2 ^ 28 * upper.val := by
    have hbound := upper.isLt
    have hshift : (28 : UInt32).toNat % 32 = 28 := rfl
    rw [UInt32.toNat_shiftLeft, UInt32.toNat_ofNat', Nat.shiftLeft_eq, hshift]
    omega
  apply UInt32.toNat_inj.mp
  rw [Event.Id.toNat_number, idWord, UInt32.toNat_or, hupper, Nat.or_comm,
    ← Nat.two_pow_add_eq_or_of_lt hid]
  omega

/-- What a change of processor stores and no record tells. -/
structure Unread where
  upper : Fin 16
  packed : Word
  counter : UInt64
  /-- The upper half of the word that holds the processor. -/
  half : UInt16
  last : Word

/-- An event as it is logged: all that its record tells but the offset, and
the bits stored with it that are not read. -/
structure Logged where
  id : Word
  cpu : UInt16
  counter : UInt64
  guest : Guest
  extra : List Word
  upper : Fin 16
  /-- The other bits of the change of processor before the event, if one is
  needed. -/
  unread : Unread
  id_lt : id.toNat < 0x10000000 := by decide
  id_ne : id ≠ 0x0001f003 := by decide
  extra_length : extra.length = (Event.words? id).getD 0 := by decide

namespace Logged

def stored (logged : Logged) : Stored where
  word := idWord logged.upper logged.id
  packed := logged.guest.packed
  counter := logged.counter
  extra := logged.extra
  extra_length := by
    rw [number_idWord _ logged.id_lt]
    exact logged.extra_length

/-- The change to the processor of an event. -/
def change (logged : Logged) : Stored where
  word := idWord logged.unread.upper 0x0001f003
  packed := logged.unread.packed
  counter := logged.unread.counter
  extra :=
    [UInt32.ofNat (0x10000 * logged.unread.half.toNat + logged.cpu.toNat), logged.unread.last]
  extra_length := by
    rw [number_idWord _ (by decide)]
    rfl

def record (logged : Logged) (offset : Nat) : Record :=
  ⟨logged.id, logged.cpu, logged.counter, logged.guest, logged.extra, offset⟩

theorem not_namesCpu_stored (logged : Logged) : ¬ NamesCpu logged.stored.item := by
  have hid : logged.stored.item.id = logged.id := number_idWord _ logged.id_lt
  rw [NamesCpu, hid]
  exact logged.id_ne

theorem namesCpu_change (logged : Logged) : NamesCpu logged.change.item :=
  number_idWord _ (by decide)

theorem newCpu_change (logged : Logged) : logged.change.item.newCpu = logged.cpu := by
  have hcpu := logged.cpu.toNat_lt
  have hhalf := logged.unread.half.toNat_lt
  apply UInt16.toNat_inj.mp
  change (Word.lower (UInt32.ofNat (0x10000 * logged.unread.half.toNat + logged.cpu.toNat))).toNat =
    logged.cpu.toNat
  rw [Word.lower, UInt16.toNat_ofNat', UInt32.toNat_ofNat']
  omega

theorem record_stored (logged : Logged) (offset : Nat) :
    FixedHeader.record ⟨offset, logged.cpu, logged.stored.item⟩ = logged.record offset := by
  have hid : logged.stored.item.id = logged.id := number_idWord _ logged.id_lt
  have hguest : logged.stored.item.head.guest = logged.guest :=
    Guest.ofPacked_packed logged.guest
  rw [FixedHeader.record, record, hid, hguest]
  rfl

end Logged

/-- The processor after some events: that of the last one, at first zero. -/
def currentCpu (before : List Logged) : UInt16 :=
  (before.getLast?.map (·.cpu)).getD 0

/-- What is written for an event that comes after some others. -/
def Logged.written (logged : Logged) (before : List Logged) : List Stored :=
  if logged.cpu = currentCpu before then [logged.stored] else [logged.change, logged.stored]

def written (events : List Logged) : List Stored :=
  (events.mapIdx fun index logged => logged.written (events.take index)).flatten

def write (events : List Logged) : List UInt8 :=
  coding.encodeAll (written events)

/-- Where the words of an event start that comes after some others. A change of
processor takes 24 bytes. -/
def Logged.offset (logged : Logged) (before : List Logged) : Nat :=
  (write before).length + if logged.cpu = currentCpu before then 0 else 24

/-- The records of some events that are written one after the other. -/
def logRecords (events : List Logged) : List Record :=
  events.mapIdx fun index logged => logged.record (logged.offset (events.take index))

/-- What is made of each element and the elements before it is not changed by
an element at the end. -/
private theorem mapIdx_take_append_singleton {α β : Type} (f : List α → α → β) (before : List α)
    (last : α) :
    ((before ++ [last]).mapIdx fun index a => f ((before ++ [last]).take index) a) =
      (before.mapIdx fun index a => f (before.take index) a) ++ [f before last] := by
  rw [List.mapIdx_concat]
  congr 1
  · apply List.ext_getElem
    · simp
    · intro index hfirst hsecond
      have hindex : index ≤ before.length := by
        rw [List.length_mapIdx] at hsecond
        omega
      rw [List.getElem_mapIdx, List.getElem_mapIdx, List.take_append_of_le_length hindex]
  · rw [List.take_left]

theorem written_append_singleton (before : List Logged) (logged : Logged) :
    written (before ++ [logged]) = written before ++ logged.written before := by
  have hpieces : ((before ++ [logged]).mapIdx fun index event =>
      Logged.written event ((before ++ [logged]).take index)) =
        (before.mapIdx fun index event => event.written (before.take index)) ++
          [logged.written before] :=
    mapIdx_take_append_singleton (fun earlier event => event.written earlier) before logged
  rw [written, hpieces, List.flatten_append, List.flatten_singleton, written]

theorem logRecords_append_singleton (before : List Logged) (logged : Logged) :
    logRecords (before ++ [logged]) =
      logRecords before ++ [logged.record (logged.offset before)] :=
  mapIdx_take_append_singleton
    (fun (earlier : List Logged) (event : Logged) => event.record (event.offset earlier))
    before logged

theorem currentCpu_append_singleton (before : List Logged) (logged : Logged) :
    currentCpu (before ++ [logged]) = logged.cpu := by
  rw [currentCpu, List.getLast?_append]
  rfl

theorem length_encode_change (logged : Logged) : (coding.encode logged.change).length = 24 :=
  logged.change.length_encode

/-- Reading what is written for one event, from the processor of the event
before it, gives the row of the event alone, and leaves its processor. -/
theorem rowsFrom_written (logged : Logged) (before : List Logged) (offset : Nat)
    (items : List (Item Head)) (hcpu : cpuAfter items = currentCpu before) :
    rowsFrom (cpuAfter items) (coding.framesFrom offset (logged.written before)) =
        [⟨offset + if logged.cpu = currentCpu before then 0 else 24, logged.cpu,
          logged.stored.item⟩] ∧
      cpuAfter (items ++ (logged.written before).map coding.item) = logged.cpu := by
  have hquiet : ¬ NamesCpu (coding.item logged.stored) := logged.not_namesCpu_stored
  have hnames : NamesCpu (coding.item logged.change) := logged.namesCpu_change
  have hnew : (coding.item logged.change).newCpu = logged.cpu := logged.newCpu_change
  by_cases hsame : logged.cpu = currentCpu before
  · have hwritten : logged.written before = [logged.stored] := if_pos hsame
    rw [hwritten, if_pos hsame, hcpu, ← hsame, List.map_singleton, cpuAfter_append_singleton,
      if_neg hquiet, hcpu]
    constructor
    · simp only [Coding.framesFrom, rowsFrom, isCpuChange_eq, hquiet, decide_false,
        Bool.false_eq_true, if_false]
      rfl
    · exact hsame.symm
  · have hwritten : logged.written before = [logged.change, logged.stored] := if_neg hsame
    rw [hwritten, if_neg hsame, List.map_cons, List.map_singleton, List.append_cons,
      cpuAfter_append_singleton, if_neg hquiet, cpuAfter_append_singleton, if_pos hnames, hnew]
    constructor
    · simp only [Coding.framesFrom, rowsFrom, isCpuChange_eq, hquiet, hnames, decide_true,
        decide_false, Bool.false_eq_true, if_true, if_false, hnew, length_encode_change]
      rfl
    · rfl

/-- The rows of what is written are the events in order, and the processor
after it is that of the last event. -/
theorem events_written (events : List Logged) :
    (coding.events (written events)).map FixedHeader.record = logRecords events ∧
      cpuAfter ((written events).map coding.item) = currentCpu events := by
  rw [← coding.rows_framesFrom]
  induction events using List.reverseRecOn with
  | nil => exact ⟨rfl, rfl⟩
  | append_singleton before logged ih =>
      obtain ⟨hrecords, hcpu⟩ := ih
      obtain ⟨hrows, hafter⟩ := rowsFrom_written logged before (write before).length _ hcpu
      have hstart : 0 + (coding.encodeAll (written before)).length = (write before).length :=
        Nat.zero_add _
      constructor
      · rw [written_append_singleton, coding.framesFrom_append, rows_append,
          coding.map_item_framesFrom, hstart, hrows, List.map_append, hrecords, List.map_singleton,
          logged.record_stored, logRecords_append_singleton]
        rfl
      · rw [written_append_singleton, List.map_append, hafter, currentCpu_append_singleton]

theorem read_encodeAll (records : List Stored) :
    Format.fixedHeader.read (coding.encodeAll records) =
      .ok ((coding.events records).map FixedHeader.record) :=
  coding.map_rows_split_encodeAll (List.map FixedHeader.record) records

theorem exists_stored_of_read {bytes : List UInt8} {records : List Record}
    (hread : Format.fixedHeader.read bytes = .ok records) :
    ∃ stored, coding.encodeAll stored = bytes ∧
      records = (coding.events stored).map FixedHeader.record :=
  coding.exists_codes_of_map_rows_split hread

theorem encodeAll_injective : Function.Injective coding.encodeAll :=
  coding.encodeAll_injective Stored.encode_injective

/-- Whether some bytes have the length of one record: four words, and as many
more as the catalogue gives the id in the first of them. -/
def IsRecord (bytes : List UInt8) : Prop :=
  ∃ word rest, bytes = Word.toBytes word ++ rest ∧
    bytes.length = 16 + 4 * (Event.words? (word &&& 0x0fffffff)).getD 0

/-- Whether a stream can be cut into some pieces, each with the length of one
record. -/
def CutInto (bytes : List UInt8) (pieces : List (List UInt8)) : Prop :=
  pieces.flatten = bytes ∧ ∀ piece ∈ pieces, IsRecord piece

theorem headerId_of_takeWords {word : Word} {rest left : List UInt8} {header : List Word}
    (htake : takeWords 4 (Word.toBytes word ++ rest) = .ok (header, left)) :
    headerId header = Event.Id.number word := by
  rw [takeWords, takeWord_toBytes] at htake
  dsimp only at htake
  cases hothers : takeWords 3 rest with
  | error missing =>
      rw [hothers] at htake
      cases htake
  | ok others =>
      rw [hothers] at htake
      cases htake
      rfl

/-- The length alone makes a record: any words will do. -/
theorem isRecord_iff (bytes : List UInt8) :
    IsRecord bytes ↔ ∃ stored, Stored.encode stored = bytes := by
  constructor
  · rintro ⟨word, rest, rfl, hlength⟩
    have hsixteen : 4 * 4 ≤ (Word.toBytes word ++ rest).length := by omega
    obtain ⟨header, left, hheader⟩ := exists_takeWords hsixteen
    have htotal := (length_of_takeWords hheader).2
    have hid : headerId header = word &&& 0x0fffffff := headerId_of_takeWords hheader
    have hfilled : left.length = 4 * parts.bodyWords header := by
      change left.length = 4 * extraCount (headerId header)
      rw [hid, extraCount]
      omega
    obtain ⟨item, hnext⟩ := parts.next_of_body_filled hheader hfilled
    obtain ⟨stored, -, hstored⟩ := Stored.exists_of_next hnext
    rw [List.append_nil] at hstored
    exact ⟨stored, hstored⟩
  · rintro ⟨stored, rfl⟩
    refine ⟨stored.word, encodeWords (stored.header.tail ++ stored.extra), ?_, ?_⟩
    · rw [← encodeWords_cons]
      rfl
    · rw [stored.length_encode, stored.extra_length]
      rfl

theorem cutInto_iff (bytes : List UInt8) (pieces : List (List UInt8)) :
    CutInto bytes pieces ↔
      ∃ stored : List Stored,
        stored.map Stored.encode = pieces ∧ coding.encodeAll stored = bytes := by
  have hflatten (stored : List Stored) :
      coding.encodeAll stored = (stored.map Stored.encode).flatten :=
    List.flatMap_def
  constructor
  · rintro ⟨rfl, hpieces⟩
    have hrange : pieces ∈ Set.range (List.map Stored.encode) := by
      rw [Set.range_list_map]
      intro piece hpiece
      exact (isRecord_iff piece).mp (hpieces piece hpiece)
    obtain ⟨stored, rfl⟩ := hrange
    exact ⟨stored, rfl, hflatten stored⟩
  · rintro ⟨stored, rfl, rfl⟩
    refine ⟨(hflatten stored).symm, ?_⟩
    intro piece hpiece
    obtain ⟨record, -, hrecord⟩ := List.mem_map.mp hpiece
    exact (isRecord_iff piece).mpr ⟨record, hrecord⟩

theorem CutInto.unique {bytes : List UInt8} {first second : List (List UInt8)}
    (hfirst : CutInto bytes first) (hsecond : CutInto bytes second) : first = second := by
  obtain ⟨stored, rfl, hstored⟩ := (cutInto_iff bytes first).mp hfirst
  obtain ⟨other, rfl, hother⟩ := (cutInto_iff bytes second).mp hsecond
  rw [encodeAll_injective (hstored.trans hother.symm)]

/-- Every list of events is read back from what is written for it: the same
events in the same order, each with the processor it was logged on and at the
place where its own words start. Conversely the streams that are read are those
that can be cut into records of the lengths that the catalogue gives, and they
can be cut in one way only. -/
theorem reads_exactly_records (events : List Logged) (bytes : List UInt8) :
    Format.fixedHeader.read (write events) = .ok (logRecords events) ∧
    ((∃ records, Format.fixedHeader.read bytes = .ok records) ↔
      ∃ pieces, CutInto bytes pieces) ∧
    ((∃ records, Format.fixedHeader.read bytes = .ok records) ↔
      ∃! pieces, CutInto bytes pieces) := by
  have hcut : (∃ records, Format.fixedHeader.read bytes = .ok records) ↔
      ∃ pieces, CutInto bytes pieces := by
    constructor
    · rintro ⟨records, hread⟩
      obtain ⟨stored, hstored, -⟩ := exists_stored_of_read hread
      exact ⟨_, (cutInto_iff _ _).mpr ⟨stored, rfl, hstored⟩⟩
    · rintro ⟨pieces, hpieces⟩
      obtain ⟨stored, -, rfl⟩ := (cutInto_iff _ _).mp hpieces
      exact ⟨_, read_encodeAll stored⟩
  refine ⟨?_, hcut, hcut.trans ⟨?_, ?_⟩⟩
  · rw [write, read_encodeAll, (events_written events).1]
  · rintro ⟨pieces, hpieces⟩
    exact ⟨pieces, hpieces, fun other hother => hother.unique hpieces⟩
  · rintro ⟨pieces, hpieces, -⟩
    exact ⟨pieces, hpieces⟩

/-- Two events of the catalogue and one that is not in it, all on processor two:
one change of processor before the first, and each where the last one ends. -/
example :
    let unread : Unread := ⟨0, 0x7fff0000, 0, 0, 0⟩
    let events : List Logged :=
      [.mk 0x00028004 2 100 ⟨5, 1⟩ [5, 1] 0 unread, .mk 0x00081001 2 200 ⟨5, 1⟩ [] 0xf unread,
        .mk 0x00030001 2 300 ⟨5, 1⟩ [] 0 unread]
    (logRecords events).map (·.offset) = [24, 48, 64] := by
  decide

end HypervisorTrace.Wire.FixedHeader
