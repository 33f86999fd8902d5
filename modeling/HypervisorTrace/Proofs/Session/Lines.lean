import HypervisorTrace.Proofs.Command.Resolution
import HypervisorTrace.Proofs.Event.Wording
import HypervisorTrace.Proofs.Guest.Labels
import HypervisorTrace.Proofs.Output.RoundTrip
import HypervisorTrace.Proofs.Session.Times
import HypervisorTrace.Proofs.Text.Cutting

/-!
The lines of a dump. A time in seconds and the label of a guest hold no space,
and a name holds no opening bracket, so the separators of a line stand first
where the line was put together, and a line can be taken apart in one way only.
No part holds a newline, so the lines are read off the text of the dump.

What is read off the line of a record is what an export says of that record,
and what the session says when it is asked for it.
-/

namespace HypervisorTrace

namespace Session

structure LineParts where
  time : String
  task : String
  name : String
  info : String
  deriving DecidableEq

/-- Whether a line has some parts: it is cut at its first ` - `, at the next one,
at the first ` [ ` after that, and its last two characters are cut off. -/
def SplitsInto (line : String) (parts : LineParts) : Prop :=
  ∃ afterTime afterTask,
    Text.FirstCut " - " line parts.time afterTime ∧
    Text.FirstCut " - " afterTime parts.task afterTask ∧
    Text.FirstCut " [ " afterTask parts.name (parts.info ++ " ]")

theorem SplitsInto.unique {line : String} {parts others : LineParts}
    (hparts : SplitsInto line parts) (hothers : SplitsInto line others) : others = parts := by
  obtain ⟨afterTime, afterTask, htime, htask, hname⟩ := hparts
  obtain ⟨afterTime', afterTask', htime', htask', hname'⟩ := hothers
  obtain ⟨hsameTime, rfl⟩ := htime.unique htime'
  obtain ⟨hsameTask, rfl⟩ := htask.unique htask'
  obtain ⟨hsameName, hsameInfo⟩ := hname.unique hname'
  cases parts
  cases others
  simp only [LineParts.mk.injEq]
  exact ⟨hsameTime, hsameTask, hsameName, (String.append_left_inj _).mp hsameInfo⟩

theorem joinLine_splitsInto {time task name : String} (htime : ' ' ∉ time.toList)
    (htask : ' ' ∉ task.toList) (hname : '[' ∉ name.toList) (info : String) :
    SplitsInto (joinLine time task name info) ⟨time, task, name, info⟩ := by
  have hline : joinLine time task name info =
      time ++ " - " ++ (task ++ " - " ++ (name ++ " [ " ++ (info ++ " ]"))) := by
    simp only [joinLine, String.append_assoc]
  rw [hline]
  exact ⟨_, _, Text.firstCut_of_head rfl htime, Text.firstCut_of_head rfl htask,
    Text.firstCut_of_second rfl (by decide) hname⟩

theorem newline_notMem_joinLine {time task name info : String} (htime : '\n' ∉ time.toList)
    (htask : '\n' ∉ task.toList) (hname : '\n' ∉ name.toList) (hinfo : '\n' ∉ info.toList) :
    '\n' ∉ (joinLine time task name info).toList := by
  simp only [joinLine, String.toList_append, List.mem_append, not_or]
  have hdash : '\n' ∉ " - ".toList := by decide
  have hopening : '\n' ∉ " [ ".toList := by decide
  have hclosing : '\n' ∉ " ]".toList := by decide
  exact ⟨⟨⟨⟨⟨⟨⟨htime, hdash⟩, htask⟩, hdash⟩, hname⟩, hopening⟩, hinfo⟩, hclosing⟩

section Record

variable (session : Session) (record : Record)

theorem notMem_seconds (nanoseconds : Int) :
    ' ' ∉ (Text.seconds nanoseconds).toList ∧ '\n' ∉ (Text.seconds nanoseconds).toList := by
  constructor <;> intro hchar <;>
    exact absurd (Text.isDigit_or_eq_of_mem_seconds hchar) (by decide)

theorem notMem_label (guest : Guest) :
    ' ' ∉ guest.label.toList ∧ '\n' ∉ guest.label.toList := by
  constructor <;> intro hchar <;>
    exact absurd (Guest.isDigit_or_mem_of_mem_label hchar) (by decide)

/-- What the line about a record shows. -/
def lineParts : LineParts where
  time := Text.seconds (session.time record)
  task := record.guest.label
  name := Event.name record.eventId
  info := (Event.info record.eventId record.extra).text?.getD ""

theorem lineOf_splitsInto : SplitsInto (session.lineOf record) (session.lineParts record) :=
  joinLine_splitsInto (notMem_seconds _).1 (notMem_label _).1 (Event.notMem_name _).1 _

theorem newline_notMem_lineOf : '\n' ∉ (session.lineOf record).toList :=
  newline_notMem_joinLine (notMem_seconds _).2 (notMem_label _).2 (Event.notMem_name _).2
    (Event.newline_notMem_info _)

end Record

section Dump

variable {session : Session}

/-- The lines that a limit leaves. -/
def lines (session : Session) (limit : Option Nat) : List String :=
  (List.range (session.limited limit)).map session.line

theorem length_lines (limit : Option Nat) :
    (session.lines limit).length = session.limited limit := by
  rw [lines, List.length_map, List.length_range]

theorem line_of_record {index : Nat} {record : Record}
    (hrecord : session.records[index]? = some record) :
    session.line index = session.lineOf record := by
  rw [line, record?, hrecord]

theorem map_lineOf_take (limit : Option Nat) :
    (session.records.take (session.limited limit)).map session.lineOf = session.lines limit := by
  apply List.ext_getElem?
  intro index
  rw [lines, List.getElem?_map, List.getElem?_map, List.getElem?_take]
  split
  · rename_i hindex
    have hlength : index < session.records.length :=
      Nat.lt_of_lt_of_le hindex (session.limited_le_length limit)
    rw [List.getElem?_eq_getElem hlength, List.getElem?_range hindex, Option.map_some,
      Option.map_some, line_of_record (List.getElem?_eq_getElem hlength)]
  · rename_i hindex
    rw [List.getElem?_eq_none (by rw [List.length_range]; omega)]
    rfl

/-- A dump is its lines, each ended by a newline. -/
theorem toList_dump (limit : Option Nat) :
    (session.dump limit).toList = Text.ofLines ((session.lines limit).map String.toList) := by
  rw [dump, String.toList_join, List.flatMap_map, Text.ofLines, ← map_lineOf_take, List.map_map,
    List.flatMap_map]
  simp only [String.toList_append]
  rfl

theorem newline_notMem_of_mem_lines {limit : Option Nat} {chars : List Char}
    (hchars : chars ∈ (session.lines limit).map String.toList) : '\n' ∉ chars := by
  obtain ⟨line, hline, rfl⟩ := List.mem_map.mp hchars
  rw [← map_lineOf_take] at hline
  obtain ⟨record, -, rfl⟩ := List.mem_map.mp hline
  exact session.newline_notMem_lineOf record

/-- More lines are the fewer ones and others after them. -/
theorem dump_mono {limit wider : Option Nat}
    (hlimits : session.limited limit ≤ session.limited wider) :
    (session.dump limit).toList <+: (session.dump wider).toList := by
  obtain ⟨more, hmore⟩ := Nat.exists_eq_add_of_le hlimits
  rw [toList_dump, toList_dump, lines, lines, hmore, List.range_add, List.map_append,
    List.map_append, Text.ofLines_append]
  exact List.prefix_append _ _

end Dump

/-- What an exported record says of the record with an index is what the
session says when it is asked for it. -/
structure AgreesAt (session : Session) (index : Nat) (exported : ExportedRecord) : Prop where
  time : session.TimeAt index exported.time.toInt
  task : session.task? index = some exported.task
  name : session.eventName? index = some exported.name
  info : session.info? index = exported.info

theorem toInt_time_exportRecord (session : Session) (record : Record) (index : Nat) :
    (session.exportRecord record index).time.toInt = session.time record :=
  session.conversion.toInt_ofInt_nanoseconds record.counter

theorem agreesAt_exportRecord {session : Session} {index : Nat} {record : Record}
    (hrecord : session.records[index]? = some record) :
    session.AgreesAt index (session.exportRecord record index) where
  time := by
    rw [toInt_time_exportRecord]
    exact timeAt_of_record hrecord
  task := by
    rw [task?, record?, hrecord]
    rfl
  name := by
    rw [eventName?, record?, hrecord]
    rfl
  info := by
    rw [info?, eventInfo, record?, hrecord]
    rfl

theorem getElem?_records_toExport {session : Session} {index : Nat} {record : Record}
    (hrecord : session.records[index]? = some record) (generatedAt : String) :
    (session.toExport generatedAt).records[index]? = some (session.exportRecord record index) := by
  rw [toExport, List.getElem?_map, List.getElem?_zipIdx, hrecord, Option.map_some, Option.map_some,
    Nat.zero_add]

end Session

/-- The parts of the line that shows an exported record. A description that is
absent is shown as an empty text. -/
def ExportedRecord.lineParts (exported : ExportedRecord) : Session.LineParts where
  time := Text.seconds exported.time.toInt
  task := exported.task
  name := exported.name
  info := exported.info.getD ""

namespace Session

theorem lineParts_exportRecord (session : Session) (record : Record) (index : Nat) :
    (session.exportRecord record index).lineParts = session.lineParts record := by
  rw [ExportedRecord.lineParts, toInt_time_exportRecord]
  rfl

/-- A dump has as many lines as its limit and the records leave, and tells how
many. The file that it is written to holds its text; only a full device takes a
dump without lines and holds nothing. Cut at newlines, its text gives these
lines. Each of them can be taken apart in one way, which gives the time, the
task, the name and the description of the record with its index in the export,
and these are the answers of the session about that record. A dump with a lower
limit is the beginning of one with a higher limit, and of one without. -/
theorem dump_agrees_with_export (session : Session) (limit : Option Nat) (generatedAt : String) :
    session.limited limit = limit.elim session.length (min · session.length) ∧
    (session.dump limit).toList.count '\n' = session.limited limit ∧
    (∀ store source, Command.openSession store source = .ok session →
      (Command.dump store source none limit).printed = session.dump limit ∧
      (Command.dump store source none limit).result = .ok (session.limited limit)) ∧
    (∀ store path written count,
      Output.writeDump store session limit path = (written, .ok count) →
        count = session.limited limit ∧
        (written.read path = .ok (Text.utf8 (session.dump limit)) ∨
          count = 0 ∧ written.find path = .ok .full)) ∧
    (session.dump limit).toList.splitOn '\n' =
      (List.range (session.limited limit)).map (fun index => (session.line index).toList) ++ [[]] ∧
    (∀ index < session.limited limit, ∃ exported,
      (session.toExport generatedAt).records[index]? = some exported ∧
      session.AgreesAt index exported ∧
      ∀ parts, SplitsInto (session.line index) parts ↔ parts = exported.lineParts) ∧
    ∀ few many, few ≤ many →
      (session.dump (some few)).toList <+: (session.dump (some many)).toList ∧
      (session.dump (some many)).toList <+: (session.dump none).toList := by
  refine ⟨?_, ?_, ?_, ?_, ?_, ?_, ?_⟩
  · cases limit <;> rfl
  · rw [toList_dump, Text.count_newline_ofLines fun _ => newline_notMem_of_mem_lines,
      List.length_map, length_lines]
  · intro store source hopen
    rw [Command.dump, hopen]
    exact ⟨rfl, rfl⟩
  · intro store path written count hwritten
    exact Output.read_or_find_full_of_writeDump hwritten
  · rw [toList_dump, Text.splitOn_ofLines fun _ => newline_notMem_of_mem_lines, lines, List.map_map]
    rfl
  · intro index hindex
    have hlength : index < session.records.length :=
      Nat.lt_of_lt_of_le hindex (session.limited_le_length limit)
    have hrecord := List.getElem?_eq_getElem hlength
    refine ⟨_, getElem?_records_toExport hrecord generatedAt, agreesAt_exportRecord hrecord, ?_⟩
    intro parts
    have hsplits := session.lineOf_splitsInto session.records[index]
    rw [line_of_record hrecord, lineParts_exportRecord]
    exact ⟨hsplits.unique, fun hparts => hparts ▸ hsplits⟩
  · intro few many hlimits
    exact ⟨dump_mono (min_le_min_right session.length hlimits),
      dump_mono (session.limited_le_length (some many))⟩

/-- A task that starts to run, a timer whose description has brackets of its
own, and an unknown event that the limit leaves out. -/
theorem dump_agrees_with_export_two_lines :
    let items : List Wire.Trec.Stored :=
      [.mk 0x0001f003 none [0],
        .mk 0x00021101 (some 10) [0x00040002],
        .mk 0x00084002 (some 2467) [5, 6],
        .mk 0x00031001 none []]
    let store : Store := ⟨[(["t"], .file (Wire.Trec.coding.encodeAll items))]⟩
    let source : Source := ⟨"t", none, none, none, none⟩
    ∃ session, Command.openSession store source = .ok session ∧
      (Command.dump store source none (some 2)).printed = session.dump (some 2) ∧
      (∃ written count, Output.writeDump store session (some 2) "lines" = (written, .ok count) ∧
        count = session.limited (some 2) ∧
        written.read "lines" = .ok (Text.utf8 (session.dump (some 2)))) ∧
      session.limited (some 2) = 2 ∧
      SplitsInto (session.line 1) ⟨"0.000001", "d4/v2", "pit",
        "create [ delta = 0x0000000000000005, period = 0x0000000000000006 ]"⟩ ∧
      (session.dump (some 2)).toList <+: (session.dump (some 3)).toList := by
  intro items store source
  let session : Session :=
    ⟨Wire.Trec.complete (Wire.Trec.coding.events items), Options.standard⟩
  have hread : store.read "t" = .ok (Wire.Trec.coding.encodeAll items) := rfl
  have hsession : ofBytes (Wire.Trec.coding.encodeAll items) Options.standard = .ok session :=
    ofBytes_encodeAll rfl rfl (by decide)
  have hopen : Command.openSession store source = .ok session :=
    Command.openSession_eq_ok_iff.mpr ⟨Options.standard, _, rfl, hread, hsession⟩
  obtain ⟨-, -, hprinted, hwritten, -, hlines, hlonger⟩ :=
    dump_agrees_with_export session (some 2) ""
  obtain ⟨exported, hexported, -, hparts⟩ := hlines 1 (by decide)
  cases hexported.symm.trans rfl
  have hfile : (Output.writeDump store session (some 2) "lines").2 = .ok 2 := rfl
  obtain ⟨hcount, hheld⟩ := hwritten store "lines" _ 2 (Prod.ext rfl hfile)
  have hback := hheld.resolve_right fun hnone => absurd hnone.1 (by decide)
  exact ⟨session, hopen, (hprinted store source hopen).1,
    ⟨_, 2, Prod.ext rfl hfile, hcount, hback⟩,
    by decide, (hparts _).mpr (by decide), (hlonger 2 3 (by decide)).1⟩

end Session

end HypervisorTrace
