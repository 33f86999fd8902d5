import HypervisorTrace.Clock
import HypervisorTrace.Proofs.Text.Trimming

/-!
The settings of the clock over a run of steps. A step sets the frequency from a
text, overrides the settings with texts from outside, or starts over with those
of an environment. Each has its own answer to a text that gives no frequency:
setting takes the default one, overriding keeps the one before, and starting
over has forgotten that one.

A step that decides a setting makes the same of it whatever it was before, and
any other leaves it as it was. So a run ends with what the last step that
decides a setting decides, and never at the frequency zero unless it starts
there and decides nothing.
-/

namespace HypervisorTrace

namespace Clock

theorem Frequency.parse?_ne_some_zero (text : String) : parse? text ≠ some 0 := by
  unfold parse?
  dsimp only
  split
  · split
    · exact nofun
    · rename_i hertz hnonzero
      exact fun hzero => hnonzero (Option.some.inj hzero)
  · exact nofun

theorem Frequency.bind_parse?_ne_some_zero (text : Option String) :
    text.bind parse? ≠ some 0 := by
  cases text with
  | none => exact nofun
  | some text =>
      rw [Option.bind_some]
      exact parse?_ne_some_zero text

theorem defaultHz_ne_zero : defaultHz ≠ 0 := by
  decide

theorem getD_ne_zero {found : Option UInt64} {otherwise : UInt64} (hfound : found ≠ some 0)
    (hotherwise : otherwise ≠ 0) : found.getD otherwise ≠ 0 := by
  cases found with
  | none => exact hotherwise
  | some hertz =>
      rintro rfl
      exact hfound rfl

/-- The texts that mean yes: what is left of them between blanks begins with one
of five characters. -/
theorem parseFlag_iff (text : String) :
    parseFlag text ↔
      ∃ first ∈ ['1', 'y', 'Y', 't', 'T'], (Text.trim text.toList).head? = some first := by
  rw [parseFlag, Text.head?_trim]
  cases text.toList.dropWhile Text.isBlank with
  | nil => exact iff_of_false Bool.false_ne_true nofun
  | cons first rest =>
      dsimp only
      rw [decide_eq_true_iff]
      constructor
      · exact fun hfirst => ⟨first, hfirst, rfl⟩
      · rintro ⟨other, hother, hhead⟩
        cases hhead
        exact hother

section Overrides

variable (clock : Clock) (text : Option String) (source : String → Option String)

@[simp]
theorem cpuHz_overrideHz :
    (clock.overrideHz text).cpuHz = (text.bind Frequency.parse?).getD clock.cpuHz := by
  unfold overrideHz
  cases text.bind Frequency.parse? <;> rfl

@[simp]
theorem absolute_overrideHz : (clock.overrideHz text).absolute = clock.absolute := by
  unfold overrideHz
  cases text.bind Frequency.parse? <;> rfl

@[simp]
theorem cpuHz_overrideAbsolute : (clock.overrideAbsolute text).cpuHz = clock.cpuHz := by
  cases text <;> rfl

@[simp]
theorem absolute_overrideAbsolute :
    (clock.overrideAbsolute text).absolute = (text.map parseFlag).getD clock.absolute := by
  cases text <;> rfl

theorem cpuHz_withOverrides :
    (clock.withOverrides source).cpuHz =
      ((source frequencyKey).bind Frequency.parse?).getD clock.cpuHz := by
  simp only [withOverrides, cpuHz_overrideAbsolute, cpuHz_overrideHz]

theorem absolute_withOverrides :
    (clock.withOverrides source).absolute =
      ((source absoluteKey).map parseFlag).getD clock.absolute := by
  simp only [withOverrides, absolute_overrideAbsolute, absolute_overrideHz]

end Overrides

/-- What may be done to the settings of the clock after they have been made. -/
inductive Step where
  /-- Sets the frequency from a text. -/
  | frequency (text : String)
  /-- Overrides the settings with the texts that a source has for their keys. -/
  | overrides (source : String → Option String)
  /-- Starts over from the standard settings, overridden by an environment. -/
  | restart (environment : String → Option String)

namespace Step

def apply (clock : Clock) : Step → Clock
  | frequency text => clock.setHz text
  | overrides source => clock.withOverrides source
  | restart environment => ofEnvironment environment

/-- The frequency that a step decides on. Setting it always decides, on the
default one at worst, and so does starting over; overriding decides only with
a text that gives a frequency. -/
def hertz? : Step → Option UInt64
  | frequency text => some ((Frequency.parse? text).getD defaultHz)
  | overrides source => (source frequencyKey).bind Frequency.parse?
  | restart environment =>
    some (((environment frequencyKey).bind Frequency.parse?).getD defaultHz)

/-- The choice of the epoch that a step decides on. Setting the frequency never
decides, overriding does with any text, and starting over always. -/
def absolute? : Step → Option Bool
  | frequency _ => none
  | overrides source => (source absoluteKey).map parseFlag
  | restart environment => some (((environment absoluteKey).map parseFlag).getD false)

variable (clock : Clock) (step : Step)

theorem cpuHz_apply : (step.apply clock).cpuHz = step.hertz?.getD clock.cpuHz := by
  cases step with
  | frequency text => rw [apply, setHz, hertz?, Option.getD_some]
  | overrides source => exact cpuHz_withOverrides clock source
  | restart environment => exact cpuHz_withOverrides standard environment

theorem absolute_apply : (step.apply clock).absolute = step.absolute?.getD clock.absolute := by
  cases step with
  | frequency text => rw [apply, setHz, absolute?, Option.getD_none]
  | overrides source => exact absolute_withOverrides clock source
  | restart environment => exact absolute_withOverrides standard environment

theorem hertz?_ne_some_zero : step.hertz? ≠ some 0 := by
  cases step with
  | frequency text =>
      rw [hertz?, Ne, Option.some_inj]
      exact getD_ne_zero (Frequency.parse?_ne_some_zero text) defaultHz_ne_zero
  | overrides source => exact Frequency.bind_parse?_ne_some_zero _
  | restart environment =>
      rw [hertz?, Ne, Option.some_inj]
      exact getD_ne_zero (Frequency.bind_parse?_ne_some_zero _) defaultHz_ne_zero

end Step

def run (clock : Clock) (steps : List Step) : Clock :=
  steps.foldl Step.apply clock

/-- What steps leave of a setting that starts at a value: what the last of them
that decides it decides, or that value if none does. -/
inductive Leaves {α : Type} (decision : Step → Option α) (start : α) (steps : List Step) :
    α → Prop where
  | decided {value : α} (before : List Step) (step : Step) (after : List Step)
      (hsteps : before ++ step :: after = steps) (hdecision : decision step = some value)
      (hafter : ∀ later ∈ after, decision later = none) : Leaves decision start steps value
  | undecided (hnone : ∀ step ∈ steps, decision step = none) : Leaves decision start steps start

section Setting

variable {α : Type} {setting : Clock → α} {decision : Step → Option α}

theorem findSome?_reverse_eq_none_iff {steps : List Step} :
    steps.reverse.findSome? decision = none ↔ ∀ step ∈ steps, decision step = none := by
  simp only [List.findSome?_eq_none_iff, List.mem_reverse]

/-- Steps leave one value of a setting and no other. -/
theorem leaves_iff {start value : α} {steps : List Step} :
    Leaves decision start steps value ↔ (steps.reverse.findSome? decision).getD start = value := by
  constructor
  · rintro (⟨before, step, after, rfl, hdecision, hafter⟩ | hnone)
    · rw [← findSome?_reverse_eq_none_iff] at hafter
      simp [List.findSome?_append, hafter, hdecision]
    · rw [findSome?_reverse_eq_none_iff.mpr hnone]
      rfl
  · rintro rfl
    cases hlast : steps.reverse.findSome? decision with
    | none => exact .undecided (findSome?_reverse_eq_none_iff.mp hlast)
    | some value =>
        obtain ⟨after, step, before, hsteps, hdecision, hafter⟩ :=
          List.findSome?_eq_some_iff.mp hlast
        refine .decided before.reverse step after.reverse ?_ hdecision ?_
        · rw [← List.reverse_reverse steps, hsteps]
          simp
        · exact fun later hlater => hafter later (List.mem_reverse.mp hlater)

variable
  (hstep : ∀ clock step, setting (Step.apply clock step) = (decision step).getD (setting clock))

include hstep

/-- If every step makes of a setting what it decides, or else leaves it, so does
a run. The induction is on the steps, from the first on. -/
theorem setting_run (clock : Clock) (steps : List Step) :
    setting (clock.run steps) = (steps.reverse.findSome? decision).getD (setting clock) := by
  induction steps generalizing clock with
  | nil => rfl
  | cons step rest ih =>
      have hrest := ih (step.apply clock)
      rw [hstep] at hrest
      rw [run, List.foldl_cons, ← run, hrest, List.reverse_cons, List.findSome?_append,
        List.findSome?_singleton]
      cases rest.reverse.findSome? decision <;> rfl

/-- A step decides on a value if it makes that value of the setting from any
start. -/
theorem decision_eq_some_iff {first second : Clock} (hother : setting first ≠ setting second)
    {step : Step} {value : α} :
    decision step = some value ↔ ∀ clock, setting (step.apply clock) = value := by
  constructor
  · intro hdecision clock
    rw [hstep, hdecision]
    rfl
  · intro halways
    cases hdecision : decision step with
    | some decided =>
        rw [← halways first, hstep, hdecision]
        rfl
    | none =>
        have hkeeps (clock : Clock) : setting clock = value := by
          rw [← halways clock, hstep, hdecision]
          rfl
        exact absurd ((hkeeps first).trans (hkeeps second).symm) hother

end Setting

theorem run_cpuHz_eq_zero_iff (clock : Clock) (steps : List Step) :
    (clock.run steps).cpuHz = 0 ↔ clock.cpuHz = 0 ∧ ∀ step ∈ steps, step.hertz? = none := by
  rw [setting_run Step.cpuHz_apply]
  generalize clock.cpuHz = start
  constructor
  · intro hzero
    cases leaves_iff.mpr hzero with
    | decided before step after hsteps hdecision hafter =>
        exact absurd hdecision step.hertz?_ne_some_zero
    | undecided hnone => exact ⟨rfl, hnone⟩
  · rintro ⟨rfl, hnone⟩
    exact leaves_iff.mp (.undecided hnone)

/-- A run leaves the frequency and the choice of the epoch as the last step that
decides them says, and where none does, as they were. A step decides on a value
exactly if it leads to it from all settings. The frequency is zero after a run
only if it was before and no step decides it. -/
theorem run_follows_last_decisions (clock : Clock) (steps : List Step) :
    (∀ hertz, (clock.run steps).cpuHz = hertz ↔
        Leaves Step.hertz? clock.cpuHz steps hertz) ∧
      (∀ absolute, (clock.run steps).absolute = absolute ↔
        Leaves Step.absolute? clock.absolute steps absolute) ∧
      (∀ (step : Step) hertz, step.hertz? = some hertz ↔
        ∀ start, (step.apply start).cpuHz = hertz) ∧
      (∀ (step : Step) absolute, step.absolute? = some absolute ↔
        ∀ start, (step.apply start).absolute = absolute) ∧
      ((clock.run steps).cpuHz = 0 ↔
        clock.cpuHz = 0 ∧ ∀ step ∈ steps, step.hertz? = none) := by
  refine ⟨?_, ?_, ?_, ?_, run_cpuHz_eq_zero_iff clock steps⟩
  · intro hertz
    rw [setting_run Step.cpuHz_apply, leaves_iff]
  · intro absolute
    rw [setting_run Step.absolute_apply, leaves_iff]
  · intro step hertz
    have hother : cpuHz ⟨0, false⟩ ≠ cpuHz ⟨1, false⟩ := by decide
    exact decision_eq_some_iff Step.cpuHz_apply hother
  · intro step absolute
    have hother : Clock.absolute ⟨0, false⟩ ≠ Clock.absolute ⟨0, true⟩ := by decide
    exact decision_eq_some_iff Step.absolute_apply hother

/-- A text that gives no frequency is answered in three ways. -/
example :
    let wrong : Step := .overrides fun _ => some "yes"
    let clock : Clock := ⟨1000000000, false⟩
    clock.run [wrong] = ⟨1000000000, true⟩ ∧
      clock.run [wrong, .frequency "fast"] = ⟨2400000000, true⟩ ∧
      clock.run [wrong, .frequency "3G", wrong, .restart fun _ => none] = Clock.standard := by
  decide

end Clock

end HypervisorTrace
