import HypervisorTrace.CommandLine
import Mathlib.Tactic

/-!
What the environment adds to a command line. Arguments are understood without
it. A variable then stands in for an option that they leave out, and has no say
where the option is given, whatever its text.
-/

namespace HypervisorTrace

/-- The source with the variables of an environment for what it leaves open. -/
def Source.within (source : Source) (environment : String → Option String) : Source :=
  { source with
    cpuHz := source.cpuHz.or (environment Clock.frequencyKey)
    absolute := source.absolute.or ((environment Clock.absoluteKey).map Clock.parseFlag) }

namespace CommandLine

/-- The environment without variables. -/
def noVariables : String → Option String :=
  fun _ => none

namespace Request

/-- Where a request takes its trace from, if it opens one. -/
def source? : Request → Option Source
  | dump source _ _ | exportTrace source _ | stats source _ _ => some source
  | check _ | events _ | version => none

def within (request : Request) (environment : String → Option String) : Request :=
  match request with
  | dump source output limit => dump (source.within environment) output limit
  | exportTrace source output => exportTrace (source.within environment) output
  | stats source top json => stats (source.within environment) top json
  | check input => check input
  | events label => events label
  | version => version

theorem source?_within (request : Request) (environment : String → Option String) :
    (request.within environment).source? = request.source?.map (·.within environment) := by
  cases request <;> rfl

end Request

variable (front after : Given) (environment : String → Option String)

theorem common_eq_or (key : Key) (otherwise : Option String) :
    common front after key otherwise = (common front after key none).or otherwise := by
  simp only [common, Option.or_none]

theorem source_eq_within (input : String) :
    source front after environment input =
      (source front after noVariables input).within environment := by
  simp only [source, Source.within, noVariables, Source.mk.injEq, true_and, and_true]
  constructor
  · exact common_eq_or front after .cpuHz _
  · rw [common_eq_or, Option.map_or]

theorem request_eq_within (name : String) (operands : List String) :
    request name front after environment operands =
      (request name front after noVariables operands).map (·.within environment) := by
  unfold request
  split
  · rfl
  split
  · rfl
  cases operands with
  | nil => rfl
  | cons input others =>
      cases others with
      | cons second more => rfl
      | nil =>
          dsimp only
          rw [source_eq_within front after environment]
          split
          · rfl
          split
          · rfl
          split <;> rfl

/-- The environment neither makes arguments wrong nor mends them, and fills in
what they leave open. -/
theorem parse_eq_within (arguments : List String) :
    parse arguments environment =
      (parse arguments noVariables).map (·.within environment) := by
  unfold parse
  cases scanFront (commonKeys ++ [.version]) arguments [] with
  | error stop => rfl
  | ok found =>
      obtain ⟨front, name, rest⟩ := found
      dsimp only
      split
      · rfl
      cases command? name with
      | none => rfl
      | some command =>
          obtain ⟨keys, room⟩ := command
          dsimp only
          cases scan (commonKeys ++ keys) room rest [] [] with
          | error stop => rfl
          | ok given => exact request_eq_within front given.1 environment name given.2

end CommandLine

end HypervisorTrace
