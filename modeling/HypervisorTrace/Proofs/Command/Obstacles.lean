import HypervisorTrace.Proofs.Command.Resolution
import HypervisorTrace.Proofs.Output.Preparation
import HypervisorTrace.Proofs.Session.Outcome

/-!
What keeps a command from its output. Its settings may not load or stand for no
options, its input may not be there or be no trace, and the path that it is to
write at may be empty or that of a directory. A command that meets one of these
fails, and reports one that it has met. It has not printed anything then, and
everything in the store is as it was.

There is nothing else that keeps a trace from being opened, so any other failure
is one of making directories or of writing.
-/

namespace HypervisorTrace

theorem Store.isDirectory_eq_true_iff {store : Store} {path : String} :
    store.isDirectory path = true ↔
      ∃ location, store.locate path = .ok location ∧ store.at? location = some .directory := by
  unfold isDirectory find
  cases store.locate path with
  | error fault => simp
  | ok location =>
      dsimp only
      cases hat : store.at? location with
      | none => simp [hat]
      | some entry =>
          cases entry with
          | directory => simp [hat]
          | file content => cases Path.endsInSlash path <;> simp [hat]
          | full => cases Path.endsInSlash path <;> simp [hat]

namespace Output

/-- Why nothing is written at a path: it is empty, or a directory is there. -/
inductive Refuses (store : Store) : String → OutputError → Prop where
  | empty : Refuses store "" (.invalidPath "Path is empty")
  | directory {path : String} {location : Location} (hlocate : store.locate path = .ok location)
      (hdirectory : store.at? location = some .directory) :
      Refuses store path (.invalidPath ("Path is a directory: " ++ path))

variable {store : Store} {path : String} {error : OutputError}

theorem Refuses.prepare (hrefused : Refuses store path error) :
    Output.prepare store path = (store, .error error) := by
  cases hrefused with
  | empty => rfl
  | directory hlocate hdirectory =>
      have hsound := (Path.fault?_eq_none_iff path).mp (Store.locate_eq_ok_iff.mp hlocate).1
      have hthere : store.isDirectory path = true :=
        Store.isDirectory_eq_true_iff.mpr ⟨_, hlocate, hdirectory⟩
      rw [Output.prepare, if_neg hsound.2.1, if_pos hthere]

theorem Refuses.write (hrefused : Refuses store path error) (text : String)
    (report : Fault → OutputError) :
    Output.write store path text report = (store, .error error) := by
  rw [Output.write, hrefused.prepare]

theorem Refuses.writeDump (hrefused : Refuses store path error) (session : Session)
    (limit : Option Nat) : Output.writeDump store session limit path = (store, .error error) := by
  rw [Output.writeDump, hrefused.write]

end Output

namespace Command

/-- Where a command is to write, and how it reports that this fails. -/
structure Destination where
  path : String
  report : OutputError → Failure

def Destination.ofDump (path : String) : Destination :=
  ⟨path, .writeDump path⟩

def Destination.ofExport (path : String) : Destination :=
  ⟨path, .writeExport path⟩

/-- What keeps a command from its output, with the failure that reports it. Which
bytes are no trace, and why, is told without opening them. -/
inductive Obstacle (store : Store) (source : Source) (destination : Option Destination) :
    Failure → Prop where
  | settings {path : String} {error : SettingsError} (hconfig : source.config = some path)
      (hload : Settings.load store path = .error error) :
      Obstacle store source destination (.loadSettings path error)
  | options {settings : Settings} {error : SettingsError}
      (hload : loadSettings store source = .ok settings)
      (hwrong : settings.toOptions = .error error) :
      Obstacle store source destination (.resolveOptions error)
  | input {fault : Fault} (hread : store.read source.input = .error fault) :
      Obstacle store source destination (.decodeTrace source.input (.unreadable fault))
  | stream {options : Options} {bytes : List UInt8} {error : Wire.StreamError}
      (hresolve : resolve store source = .ok options) (hread : store.read source.input = .ok bytes)
      (houtcome : Session.Outcome bytes options (.error error)) :
      Obstacle store source destination (.decodeTrace source.input (.stream error))
  | path {target : Destination} {error : OutputError} (htarget : destination = some target)
      (hrefused : Output.Refuses store target.path error) :
      Obstacle store source destination (target.report error)

variable {store : Store} {source : Source} {destination : Option Destination} {failure : Failure}

/-- A session that is not opened has met an obstacle. -/
theorem Obstacle.of_openSession (hopen : openSession store source = .error failure) :
    Obstacle store source destination failure := by
  rcases bind_eq_error_iff.mp hopen with hresolve | ⟨options, hresolve, hload⟩
  · rcases resolve_eq_error_iff.mp hresolve with
      ⟨path, error, hconfig, hload, rfl⟩ | ⟨settings, error, hload, hwrong, rfl⟩
    · exact .settings hconfig hload
    · exact .options hload hwrong
  · obtain ⟨error, hfails, rfl⟩ := mapError_eq_error_iff.mp hload
    rcases Session.load_eq_error_iff.mp hfails with
      ⟨fault, hread, rfl⟩ | ⟨bytes, fault, hread, hstream, rfl⟩
    · exact .input hread
    · apply Obstacle.stream hresolve hread
      rw [← hstream]
      exact Session.outcome_ofBytes bytes options

/-- If the session is opened none the less, the obstacle is the path. -/
theorem Obstacle.refused_of_openSession {session : Session}
    (hobstacle : Obstacle store source destination failure)
    (hopen : openSession store source = .ok session) :
    ∃ target error, destination = some target ∧ Output.Refuses store target.path error ∧
      target.report error = failure := by
  obtain ⟨options, bytes, hresolve, hread, hsession⟩ := openSession_eq_ok_iff.mp hopen
  obtain ⟨settings, base, hload, hbase, -⟩ := resolve_eq_ok_iff.mp hresolve
  cases hobstacle with
  | settings hconfig hfails =>
      rw [loadSettings, hconfig] at hload
      cases hfails.symm.trans hload
  | options hother hfails =>
      cases hother.symm.trans hload
      cases hfails.symm.trans hbase
  | input hfails => cases hfails.symm.trans hread
  | stream hother hbytes houtcome =>
      cases hother.symm.trans hresolve
      cases hbytes.symm.trans hread
      cases houtcome.ofBytes_eq.symm.trans hsession
  | path htarget hrefused => exact ⟨_, _, htarget, hrefused, rfl⟩

/-- The obstacles to opening a session are those that keep it from being opened. -/
theorem forall_not_obstacle_iff :
    (∀ failure, ¬ Obstacle store source none failure) ↔
      ∃ session, openSession store source = .ok session := by
  constructor
  · intro hnone
    cases hopen : openSession store source with
    | error failure => exact absurd (.of_openSession hopen) (hnone failure)
    | ok session => exact ⟨session, rfl⟩
  · rintro ⟨session, hopen⟩ failure hobstacle
    obtain ⟨target, error, htarget, -⟩ := hobstacle.refused_of_openSession hopen
    cases htarget

end Command

/-- Whether an outcome is a failure for one of some reasons, with nothing printed
and the store as it was. -/
structure Outcome.LeavesNoTrace {α : Type} (outcome : Outcome α) (store : Store)
    (reason : Failure → Prop) : Prop where
  failed : ∃ failure, outcome.result = .error failure ∧ reason failure
  silent : outcome.printed = ""
  unchanged : outcome.store = store

namespace Command

variable {store : Store} {source : Source} {failure : Failure}

theorem dump_leavesNoTrace {output : Option String}
    (hobstacle : Obstacle store source (output.map .ofDump) failure) (limit : Option Nat) :
    (dump store source output limit).LeavesNoTrace store
      (Obstacle store source (output.map .ofDump)) := by
  cases hopen : openSession store source with
  | error other =>
      rw [dump, hopen]
      exact ⟨⟨other, rfl, .of_openSession hopen⟩, rfl, rfl⟩
  | ok session =>
      obtain ⟨target, error, htarget, hrefused, rfl⟩ := hobstacle.refused_of_openSession hopen
      obtain ⟨path, rfl, rfl⟩ := Option.map_eq_some_iff.mp htarget
      have hwritten : Output.writeDump store session limit path = (store, .error error) :=
        hrefused.writeDump session limit
      rw [dump, hopen]
      dsimp only
      rw [hwritten]
      exact ⟨⟨_, rfl, hobstacle⟩, rfl, rfl⟩

theorem exportTrace_leavesNoTrace {output : String}
    (hobstacle : Obstacle store source (some (.ofExport output)) failure) (generatedAt : String) :
    (exportTrace store source output generatedAt).LeavesNoTrace store
      (Obstacle store source (some (.ofExport output))) := by
  cases hopen : openSession store source with
  | error other =>
      rw [exportTrace, hopen]
      exact ⟨⟨other, rfl, .of_openSession hopen⟩, rfl, rfl⟩
  | ok session =>
      obtain ⟨target, error, htarget, hrefused, rfl⟩ := hobstacle.refused_of_openSession hopen
      cases htarget
      have hwritten : Output.writeExport store (session.toExport generatedAt) output =
          (store, .error error) := hrefused.write _ _
      rw [exportTrace, hopen]
      dsimp only
      rw [hwritten]
      exact ⟨⟨_, rfl, hobstacle⟩, rfl, rfl⟩

theorem stats_leavesNoTrace (hobstacle : Obstacle store source none failure) (coloured : Bool)
    (top : Nat) (json : Bool) :
    (stats store coloured source top json).LeavesNoTrace store (Obstacle store source none) := by
  cases hopen : openSession store source with
  | error other =>
      rw [stats, hopen]
      exact ⟨⟨other, rfl, .of_openSession hopen⟩, rfl, rfl⟩
  | ok session => exact absurd hobstacle (forall_not_obstacle_iff.mpr ⟨session, hopen⟩ failure)

/-- A command that meets an obstacle fails and reports an obstacle that is there,
has printed nothing, and leaves everything in the store as it was, whatever its
other arguments are. Where there is no obstacle the trace is opened. -/
theorem obstacle_leaves_no_trace (store : Store) (source : Source) :
    (∀ output limit failure, Obstacle store source (output.map .ofDump) failure →
      (dump store source output limit).LeavesNoTrace store
        (Obstacle store source (output.map .ofDump))) ∧
    (∀ output generatedAt failure, Obstacle store source (some (.ofExport output)) failure →
      (exportTrace store source output generatedAt).LeavesNoTrace store
        (Obstacle store source (some (.ofExport output)))) ∧
    (∀ coloured top json failure, Obstacle store source none failure →
      (stats store coloured source top json).LeavesNoTrace store (Obstacle store source none)) ∧
    ((∀ failure, ¬ Obstacle store source none failure) ↔
      ∃ session, openSession store source = .ok session) := by
  refine ⟨?_, ?_, ?_, forall_not_obstacle_iff⟩
  · intro output limit failure hobstacle
    exact dump_leavesNoTrace hobstacle limit
  · intro output generatedAt failure hobstacle
    exact exportTrace_leavesNoTrace hobstacle generatedAt
  · intro coloured top json failure hobstacle
    exact stats_leavesNoTrace hobstacle coloured top json

/-- A dump of a text that is no trace to a file that is there, an export of a
trace to a directory, and statistics under settings that are not there. -/
theorem obstacle_leaves_no_trace_over_file :
    let items : List Wire.Trec.Stored := [.mk 0x0001f003 none [0], .mk 0x00081001 none []]
    let store : Store :=
      ⟨[(["n"], .file (Text.utf8 "hello world")), (["o"], .file (Text.utf8 "kept")),
        (["d"], .directory), (["t"], .file (Wire.Trec.coding.encodeAll items))]⟩
    let dumped := dump store ⟨"n", none, none, none, none⟩ (some "o") none
    let exported := exportTrace store ⟨"t", none, none, none, none⟩ "d/." ""
    let counted := stats store false ⟨"t", some "c", none, none, none⟩ 10 true
    (dumped.store = store ∧ dumped.printed = "" ∧ ∃ failure, dumped.result = .error failure) ∧
    (exported.store = store ∧ exported.printed = "" ∧
      ∃ failure, exported.result = .error failure) ∧
    (counted.store = store ∧ counted.printed = "" ∧
      ∃ failure, counted.result = .error failure) := by
  intro items store dumped exported counted
  have hforeign : Obstacle store ⟨"n", none, none, none, none⟩ (some (.ofDump "o"))
      (.decodeTrace "n" (.stream (.badSignature 0x6c6c6568))) := by
    have hbytes : Word.toBytes 0x6c6c6568 ++ Text.utf8 "o world" = Text.utf8 "hello world" := by
      decide
    have hresolve : resolve store ⟨"n", none, none, none, none⟩ = .ok Options.standard := rfl
    exact .stream hresolve rfl (.refused (.foreign _ _ hbytes (by decide)))
  have hdirectory : Obstacle store ⟨"t", none, none, none, none⟩ (some (.ofExport "d/."))
      (.writeExport "d/." (.invalidPath "Path is a directory: d/.")) := by
    have hlocate : store.locate "d/." = .ok ["d"] := rfl
    exact .path rfl (.directory hlocate rfl)
  have hsettings : Obstacle store ⟨"t", some "c", none, none, none⟩ none
      (.loadSettings "c" (.unreadable .notFound)) := .settings rfl rfl
  obtain ⟨hdump, -⟩ := obstacle_leaves_no_trace store ⟨"n", none, none, none, none⟩
  obtain ⟨-, hexport, -⟩ := obstacle_leaves_no_trace store ⟨"t", none, none, none, none⟩
  obtain ⟨-, -, hstats, -⟩ := obstacle_leaves_no_trace store ⟨"t", some "c", none, none, none⟩
  have hdumped := hdump (some "o") none _ hforeign
  have hexported := hexport "d/." "" _ hdirectory
  have hcounted := hstats false 10 true _ hsettings
  exact ⟨⟨hdumped.unchanged, hdumped.silent, hdumped.failed.imp fun _ => And.left⟩,
    ⟨hexported.unchanged, hexported.silent, hexported.failed.imp fun _ => And.left⟩,
    hcounted.unchanged, hcounted.silent, hcounted.failed.imp fun _ => And.left⟩

end Command

end HypervisorTrace
