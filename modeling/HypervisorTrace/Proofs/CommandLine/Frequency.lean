import HypervisorTrace.Proofs.Command.Resolution
import HypervisorTrace.Proofs.CommandLine.Environment
import HypervisorTrace.Proofs.Session.Opening
import Mathlib

/-!
Which frequency a command computes times with. An option, a variable, the
settings and the standard may each have one, and the first that does should
count. But a variable is looked at only without the option, so an option whose
text is no frequency hides a variable that has one, and the settings decide in
its place.
-/

namespace HypervisorTrace

namespace Clock.Frequency

/-- The frequency of the first that has one: the option, the variable, the
settings, and the standard at last. -/
def firstValid (option environment : Option String) (settings : Settings) : UInt64 :=
  (([option, environment].findSome? (·.bind parse?)).or settings.hertz?).getD defaultHz

/-- The frequency of the option, or of the variable without the option, where
there is one, and otherwise that of the settings or the standard one. -/
def ofFirst (option environment : Option String) (settings : Settings) : UInt64 :=
  (((option.or environment).bind parse?).or settings.hertz?).getD defaultHz

/-- Whether the option keeps a variable from counting although it gives no
frequency itself. -/
def Hides (option environment : Option String) (settings : Settings) : Prop :=
  ∃ text hertz, option = some text ∧ parse? text = none ∧
    environment.bind parse? = some hertz ∧ hertz ≠ settings.hertz?.getD defaultHz

section Choice

variable {option : Option String} {text : String} (environment : Option String)
  (settings : Settings)

/-- Without the option both look at the variable first, and an option that gives
a frequency counts in both. -/
theorem ofFirst_eq_firstValid (hoption : ∀ text, option = some text → parse? text ≠ none) :
    ofFirst option environment settings = firstValid option environment settings := by
  cases option with
  | none => simp [ofFirst, firstValid]
  | some text =>
      obtain ⟨hertz, hhertz⟩ := Option.ne_none_iff_exists'.mp (hoption text rfl)
      simp [ofFirst, firstValid, hhertz]

theorem ofFirst_of_wrong (htext : parse? text = none) :
    ofFirst (some text) environment settings = settings.hertz?.getD defaultHz := by
  simp [ofFirst, htext]

theorem firstValid_of_wrong (htext : parse? text = none) :
    firstValid (some text) environment settings =
      (environment.bind parse?).getD (settings.hertz?.getD defaultHz) := by
  cases henvironment : environment.bind parse? <;> simp [firstValid, htext, henvironment]

theorem ofFirst_eq_firstValid_iff :
    ofFirst option environment settings = firstValid option environment settings ↔
      ¬ Hides option environment settings := by
  by_cases hwrong : ∃ text, option = some text ∧ parse? text = none
  · obtain ⟨text, rfl, htext⟩ := hwrong
    rw [ofFirst_of_wrong _ _ htext, firstValid_of_wrong _ _ htext]
    constructor
    · rintro hsame ⟨_, hertz, -, -, hhertz, hother⟩
      rw [hhertz, Option.getD_some] at hsame
      exact hother hsame.symm
    · intro hnot
      cases henvironment : environment.bind parse? with
      | none => rfl
      | some hertz =>
          by_contra hother
          exact hnot ⟨text, hertz, rfl, htext, henvironment, fun hsame => hother hsame.symm⟩
  · constructor
    · rintro - ⟨text, _, hoption, htext, -⟩
      exact hwrong ⟨text, hoption, htext⟩
    · intro _
      apply ofFirst_eq_firstValid
      intro text hoption htext
      exact hwrong ⟨text, hoption, htext⟩

end Choice

end Clock.Frequency

namespace CommandLine

open Clock

/-- A command that opens a trace gets a frequency as soon as its settings load
and stand for options. It is the one that should count, unless the option hides
a variable. -/
theorem frequency_of_command {arguments : List String} {given : Request} {options : Source}
    (harguments : parse arguments noVariables = .ok given) (hoptions : given.source? = some options)
    {store : Store} {settings : Settings} {base : Options}
    (hsettings : Command.loadSettings store options = .ok settings)
    (hbase : settings.toOptions = .ok base) (environment : String → Option String) :
    ∃ request source resolved, parse arguments environment = .ok request ∧
      request.source? = some source ∧ Command.resolve store source = .ok resolved ∧
      (∀ session, Command.openSession store source = .ok session → session.options = resolved) ∧
      resolved.clock.cpuHz =
        Frequency.ofFirst options.cpuHz (environment frequencyKey) settings ∧
      (resolved.clock.cpuHz =
          Frequency.firstValid options.cpuHz (environment frequencyKey) settings ↔
        ¬ Frequency.Hides options.cpuHz (environment frequencyKey) settings) := by
  have hparse : parse arguments environment = .ok (given.within environment) := by
    rw [parse_eq_within, harguments]
    rfl
  have hsource : (given.within environment).source? = some (options.within environment) := by
    rw [Request.source?_within, hoptions]
    rfl
  -- The variables change neither which settings are read nor which trace.
  have hresolve : Command.resolve store (options.within environment) =
      .ok ((options.within environment).override base) :=
    Command.resolve_eq_ok_iff.mpr ⟨settings, base, hsettings, hbase, rfl⟩
  have hhertz : ((options.within environment).override base).clock.cpuHz =
      Frequency.ofFirst options.cpuHz (environment frequencyKey) settings := by
    simp only [Source.override, Source.within, Frequency.ofFirst, Settings.cpuHz_of_toOptions hbase]
    cases (options.cpuHz.or (environment frequencyKey)).bind Frequency.parse? <;> rfl
  refine ⟨_, _, _, hparse, hsource, hresolve, ?_, hhertz, ?_⟩
  · intro session hopen
    obtain ⟨resolved, bytes, hresolved, -, hsession⟩ := Command.openSession_eq_ok_iff.mp hopen
    rw [hresolve] at hresolved
    cases hresolved
    exact (Session.ofBytes_eq_ok_iff.mp hsession).2.2.2
  · rw [hhertz]
    exact Frequency.ofFirst_eq_firstValid_iff _ _

/-- The settings, a variable and the option have a frequency each. -/
theorem frequency_of_command_three_frequencies :
    let arguments := ["--cpu-hz", "2.5G", "stats", "t", "-c", "c"]
    let environment := fun key => if key = frequencyKey then some "3G" else none
    let store : Store := ⟨[(["c"], .file (Text.utf8 "clock.cpu_hz=\"2G\""))]⟩
    ∃ request source resolved, parse arguments environment = .ok request ∧
      request.source? = some source ∧ Command.resolve store source = .ok resolved ∧
      resolved.clock.cpuHz = 2500000000 := by
  intro arguments environment store
  let options : Source := ⟨"t", some "c", some "2.5G", none, none⟩
  let settings : Settings := ⟨some (.text "2G"), none, none, none⟩
  have harguments : parse arguments noVariables = .ok (.stats options 10 false) := by cbv
  have hoptions : (Request.stats options 10 false).source? = some options := rfl
  have hsettings : Command.loadSettings store options = .ok settings := by cbv
  have hbase : settings.toOptions = .ok ⟨⟨2000000000, false⟩, .trec, 0⟩ := by decide
  obtain ⟨request, source, resolved, hparse, hsource, hresolve, -, hhertz, -⟩ :=
    frequency_of_command harguments hoptions hsettings hbase environment
  refine ⟨request, source, resolved, hparse, hsource, hresolve, ?_⟩
  rw [hhertz]
  decide

/-- An option that gives no frequency hides a variable that gives one. -/
theorem wrong_option_hides_variable :
    let arguments := ["--cpu-hz", "fast", "export", "t"]
    let environment := fun key => if key = frequencyKey then some "3G" else none
    let items : List Wire.Trec.Stored := [.mk 0x0001f003 none [0], .mk 0x00081001 none []]
    let store : Store := ⟨[(["t"], .file (Wire.Trec.coding.encodeAll items))]⟩
    ∃ source session, parse arguments environment = .ok (.exportTrace source defaultOutput) ∧
      Command.openSession store source = .ok session ∧
      session.options.clock.cpuHz = 2400000000 ∧
      Frequency.firstValid (some "fast") (environment frequencyKey) Settings.unset =
        3000000000 := by
  intro arguments environment items store
  let options : Source := ⟨"t", none, some "fast", none, none⟩
  have harguments : parse arguments noVariables = .ok (.exportTrace options defaultOutput) := by
    cbv
  have hparse : parse arguments environment =
      .ok (.exportTrace (options.within environment) defaultOutput) := by
    rw [parse_eq_within, harguments]
    rfl
  have hresolve : Command.resolve store (options.within environment) = .ok Options.standard :=
    Command.resolve_eq_ok_iff.mpr ⟨Settings.unset, Options.standard, rfl, rfl, by decide⟩
  have hread : store.read "t" = .ok (Wire.Trec.coding.encodeAll items) := rfl
  have hopen : Command.openSession store (options.within environment) =
      .ok ⟨Wire.Trec.complete (Wire.Trec.coding.events items), Options.standard⟩ :=
    Command.openSession_eq_ok_iff.mpr
      ⟨Options.standard, _, hresolve, hread, Session.ofBytes_encodeAll rfl rfl (by decide)⟩
  exact ⟨_, _, hparse, hopen, rfl, by decide⟩

end CommandLine

end HypervisorTrace
