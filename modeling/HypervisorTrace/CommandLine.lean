import HypervisorTrace.Command

/-!
The command line. Options of every command may stand before or after its name, others after it only.
Where an option stands on both sides the later one counts, and both beat the environment.
-/

namespace HypervisorTrace.CommandLine

inductive Key where
  | verbose
  | config
  | cpuHz
  | absolute
  | format
  | output
  | limit
  | top
  | json
  | eventClass
  | help
  | version
  deriving DecidableEq

inductive Arity where
  | none
  /-- From what is attached to it, or from the next argument. -/
  | required
  /-- From what is attached to it by an equals sign, and a fixed value otherwise. -/
  | optional (absent : String)

namespace Key

def long : Key → String
  | verbose => "verbose"
  | config => "config"
  | cpuHz => "cpu-hz"
  | absolute => "absolute"
  | format => "format"
  | output => "output"
  | limit => "limit"
  | top => "top"
  | json => "json"
  | eventClass => "class"
  | help => "help"
  | version => "version"

def short? : Key → Option Char
  | verbose => some 'v'
  | config => some 'c'
  | output => some 'o'
  | limit => some 'n'
  | help => some 'h'
  | version => some 'V'
  | _ => none

def arity : Key → Arity
  | verbose | json | help | version => .none
  | absolute => .optional "true"
  | _ => .required

end Key

inductive Stop where
  | usage
  | help
  | version
  deriving DecidableEq

/-- A number of an option: digits with perhaps a plus sign, that fits in 64 bits. -/
def number? (text : String) : Option Nat :=
  let digits := match text.toList with
    | '+' :: rest => rest
    | chars => chars
  if digits ≠ [] ∧ digits.all Char.isDigit then
    let value := Nat.ofDigitChars 10 digits 0
    if value < UInt64.size then some value else none
  else
    none

def accepts (key : Key) (value : String) : Bool :=
  match key with
  | .config | .output => value ≠ ""
  | .format => (Wire.Format.ofName? value).isSome
  | .limit | .top => (number? value).isSome
  | _ => true

abbrev Given := Table Key String

/-- One more option with its value. No option is given twice on one side of the name of the
command. -/
def give (given : Given) (key : Key) (value : String) : Except Stop Given :=
  if key = .help then .error .help
  else if key = .version then .error .version
  else if (given.get? key).isSome || !accepts key value then .error .usage
  else .ok (given.set key value)

/-- An option without an attached value; the answer is also the option if it takes the next
argument. -/
def giveBare (given : Given) (key : Key) : Except Stop (Given × Option Key) :=
  match key.arity with
  | .none => (give given key "").map (·, none)
  | .required => .ok (given, some key)
  | .optional absent => (give given key absent).map (·, none)

def giveLong (keys : List Key) (given : Given) (body : String) :
    Except Stop (Given × Option Key) :=
  let name := String.ofList (body.toList.takeWhile (· ≠ '='))
  let value? := body.toList.dropWhile (· ≠ '=')
  match keys.find? (·.long == name), value? with
  | none, _ => .error .usage
  | some key, [] => giveBare given key
  | some key, _ :: value =>
    match key.arity with
    | .none => .error .usage
    | _ => (give given key (String.ofList value)).map (·, none)

/-- The options after one hyphen, letter by letter. What follows the letter of an option with a
value is that value, perhaps after an equals sign. -/
def giveShort (keys : List Key) (given : Given) : List Char → Except Stop (Given × Option Key)
  | [] => .ok (given, none)
  | letter :: rest =>
    match keys.find? (·.short? == some letter) with
    | none => .error .usage
    | some key =>
      match key.arity, rest with
      | .required, '=' :: value => (give given key (String.ofList value)).map (·, none)
      | .required, first :: value =>
        (give given key (String.ofList (first :: value))).map (·, none)
      | .required, [] => .ok (given, some key)
      | _, _ =>
        match giveBare given key with
        | .error stop => .error stop
        | .ok (given, _) => giveShort keys given rest

def isOption (argument : String) : Bool :=
  match argument.toList with
  | '-' :: _ :: _ => true
  | _ => false

def giveArgument (keys : List Key) (given : Given) (argument : String) :
    Except Stop (Given × Option Key) :=
  match argument.toList with
  | '-' :: '-' :: body => giveLong keys given (String.ofList body)
  | '-' :: letters => giveShort keys given letters
  | _ => .error .usage

/-- The options and the operands of a command, from the arguments after its name. All arguments
after a pair of hyphens are operands; there are no more operands than the command takes, and none
is empty. -/
def scan (keys : List Key) (room : Nat) : List String → Given → List String →
    Except Stop (Given × List String)
  | [], given, operands => .ok (given, operands)
  | argument :: rest, given, operands =>
    if argument = "--" then
      let operands := operands ++ rest
      if room < operands.length || operands.any (· = "") then .error .usage
      else .ok (given, operands)
    else if isOption argument then
      match giveArgument keys given argument with
      | .error stop => .error stop
      | .ok (given, none) => scan keys room rest given operands
      | .ok (given, some key) =>
        match rest with
        | [] => .error .usage
        | value :: rest =>
          if isOption value then .error .usage
          else
            match give given key value with
            | .error stop => .error stop
            | .ok given => scan keys room rest given operands
    else if operands.length < room ∧ argument ≠ "" then
      scan keys room rest given (operands ++ [argument])
    else
      .error .usage

/-- The options before the name of the command, the name, and the arguments after it. -/
def scanFront (keys : List Key) : List String → Given → Except Stop (Given × String × List String)
  | [], _ => .error .usage
  | argument :: rest, given =>
    if argument = "--" then
      .error .usage
    else if isOption argument then
      match giveArgument keys given argument with
      | .error stop => .error stop
      | .ok (given, none) => scanFront keys rest given
      | .ok (given, some key) =>
        match rest with
        | [] => .error .usage
        | value :: rest =>
          if isOption value then .error .usage
          else
            match give given key value with
            | .error stop => .error stop
            | .ok given => scanFront keys rest given
    else
      .ok (given, argument, rest)

inductive Request where
  | dump (source : Source) (output : Option String) (limit : Option Nat)
  | exportTrace (source : Source) (output : String)
  | stats (source : Source) (top : Nat) (json : Bool)
  | check (input : String)
  | events (label : Option String)
  | version
  deriving DecidableEq

def Request.paths : Request → List String
  | dump source output _ => source.input :: source.config.toList ++ output.toList
  | exportTrace source output => [source.input, output] ++ source.config.toList
  | stats source _ _ => source.input :: source.config.toList
  | check input => [input]
  | events _ => []
  | version => []

def commonKeys : List Key :=
  [.verbose, .config, .cpuHz, .absolute, .format, .help]

def command? (name : String) : Option (List Key × Nat) :=
  if name = "dump" then some ([.output, .limit], 1)
  else if name = "export" then some ([.output], 1)
  else if name = "stats" then some ([.top, .json], 1)
  else if name = "check" then some ([], 1)
  else if name = "events" then some ([.eventClass], 0)
  else if name = "version" then some ([], 0)
  else none

def defaultOutput : String := "artifacts/trace.json"

def defaultTop : Nat := 10

/-- The value of an option of every command: what was given after the name of the command, or else
before it, or else in the environment. -/
def common (front after : Given) (key : Key) (environment : Option String) : Option String :=
  ((after.get? key).or (front.get? key)).or environment

def source (front after : Given) (environment : String → Option String) (input : String) :
    Source where
  input := input
  config := common front after .config none
  cpuHz := common front after .cpuHz (environment Clock.frequencyKey)
  absolute := (common front after .absolute (environment Clock.absoluteKey)).map Clock.parseFlag
  format := (common front after .format none).bind Wire.Format.ofName?

def request (name : String) (front after : Given) (environment : String → Option String)
    (operands : List String) : Except Stop Request :=
  let sourceOf := source front after environment
  if name = "version" then .ok .version
  else if name = "events" then .ok (.events (after.get? .eventClass))
  else
    match operands with
    | [input] =>
      if name = "dump" then
        .ok (.dump (sourceOf input) (after.get? .output) ((after.get? .limit).bind number?))
      else if name = "export" then
        .ok (.exportTrace (sourceOf input) ((after.get? .output).getD defaultOutput))
      else if name = "stats" then
        .ok (.stats (sourceOf input) (((after.get? .top).bind number?).getD defaultTop)
          (after.get? .json).isSome)
      else
        .ok (.check input)
    | _ => .error .usage

def asksHelp : List String → Bool
  | [] => true
  | [name] => (command? name).isSome || name = "help"
  | _ => false

def parse (arguments : List String) (environment : String → Option String) :
    Except Stop Request :=
  match scanFront (commonKeys ++ [.version]) arguments [] with
  | .error stop => .error stop
  | .ok (front, name, rest) =>
    if name = "help" then
      .error (if asksHelp rest then .help else .usage)
    else
      match command? name with
      | none => .error .usage
      | some (keys, room) =>
        match scan (commonKeys ++ keys) room rest [] [] with
        | .error stop => .error stop
        | .ok (after, operands) => request name front after environment operands

def colourKey : String := "CLICOLOR_FORCE"

/-- Whether output is coloured although it is not shown on a terminal. -/
def isColoured (environment : String → Option String) : Bool :=
  match environment colourKey with
  | some value => value ≠ "0"
  | none => false

structure Exit where
  code : UInt8
  printed : String
  reported : String
  store : Store

def exitOf {α : Type} (outcome : Outcome α) (code : α → UInt8) (after : String) : Exit :=
  match outcome.result with
  | .ok value => ⟨code value, outcome.printed ++ after, "", outcome.store⟩
  | .error failure => ⟨1, outcome.printed, failure.report, outcome.store⟩

def Request.run (request : Request) (coloured : Bool) (now : String) (store : Store) : Exit :=
  match request with
  | dump source output limit => exitOf (Command.dump store source output limit) (fun _ => 0) ""
  | exportTrace source output =>
    exitOf (Command.exportTrace store source output now) (fun _ => 0)
      ("✓ Export written to " ++ output ++ "\n")
  | stats source top json =>
    exitOf (Command.stats store coloured source top json) (fun _ => 0) ""
  | check input =>
    exitOf (Command.check store coloured input) (fun matched => if matched then 0 else 1) ""
  | events label => exitOf (Command.events store coloured label) (fun _ => 0) ""
  | version => exitOf (Command.version store) (fun _ => 0) ""

def usageText : String :=
  "Usage: xentrace-dump [OPTIONS] <COMMAND>\n" ++
    "\n" ++
    "Commands: dump, export, stats, check, events, version, help\n" ++
    "Options: -v, -c <CONFIG>, --cpu-hz <CPU_HZ>, --absolute[=<ABSOLUTE>], --format <FORMAT>\n"

def run (arguments : List String) (environment : String → Option String) (now : String)
    (store : Store) : Exit :=
  match parse arguments environment with
  | .ok request => request.run (isColoured environment) now store
  | .error .usage => ⟨2, "", usageText, store⟩
  | .error .help => ⟨0, usageText, "", store⟩
  | .error .version => ⟨0, "xentrace-dump 0.1.0\n", "", store⟩

end HypervisorTrace.CommandLine
