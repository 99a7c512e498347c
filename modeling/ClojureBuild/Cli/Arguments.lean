import ClojureBuild.UnitId
import ClojureBuild.Text.Split
/-!
The command line: which command is asked for, and with which options.

Options stand before or behind the command.  A flag or an option with one value may stand once at
each of the two levels, and what stands behind the command wins.  The values of an option are judged
when the next option or operand is read, so that a wrong value comes before a call for help that
stands behind it.
-/

namespace ClojureBuild.Cli

/-- Why a command line cannot be used. -/
inductive UsageError where
  | unexpected (arg : String)
  | repeated (option : String)
  | missingValue (option : String)
  | badValue (option value : String)
  | missingCommand
deriving DecidableEq, Repr

def UsageError.message : UsageError → String
  | .unexpected arg => "unexpected argument '" ++ arg ++ "'"
  | .repeated option => "the argument '" ++ option ++ "' cannot be used multiple times"
  | .missingValue option => "a value is required for '" ++ option ++ "'"
  | .badValue option value => "invalid value '" ++ value ++ "' for '" ++ option ++ "'"
  | .missingCommand => "a command is required"

/-- How the reading of a command line can end early. -/
inductive Stop where
  | usage (error : UsageError)
  | version
  | help
deriving DecidableEq, Repr

/-- What an option takes. -/
inductive Taking where
  | nothing
  | text
  | format
  /-- Unit ids, one or more, separated by commas; the option may be repeated. -/
  | units
deriving DecidableEq, Repr

/-- An option that a command knows. -/
structure OptionSpec where
  name : String
  short : Option Char
  takes : Taking
deriving DecidableEq, Repr

/-- What a command accepts. -/
structure CommandSpec where
  options : List OptionSpec
  operands : Nat
  commands : List String
  /-- Whether the version can be asked for. -/
  versioned : Bool
deriving Repr

/-- What was read at one level. -/
structure Reading where
  options : List (String × List String)
  operands : List String
  /-- The option that was named last, with the values that were found behind it so far.  It counts
  only when it is settled, and may then turn out to be wrong. -/
  pending : Option (OptionSpec × List String)
  command : Option (String × List String)
deriving DecidableEq, Repr

namespace Reading

def start : Reading := ⟨[], [], none, none⟩

def has (r : Reading) (name : String) : Bool := r.options.any (·.1 == name)

def values (r : Reading) (name : String) : List String :=
  (r.options.filter (·.1 == name)).flatMap (·.2)

def value? (r : Reading) (name : String) : Option String := (r.values name).head?

/-- Whether the next argument that is no option is a value of the pending one. -/
def wantsValue (r : Reading) : Bool :=
  match r.pending with
  | none => false
  | some (option, values) => option.takes = .units || values.isEmpty

end Reading

def Taking.accepts : Taking → String → Bool
  | .nothing, _ => true
  | .text, _ => true
  | .format, v => v = "text" || v = "json"
  | .units, v => (UnitId.parse v).toBool

def OptionSpec.split (option : OptionSpec) (values : List String) : List String :=
  if option.takes = .units then values.flatMap (Text.splitString ',') else values

/-- Adds an option with its values.  Only unit ids may be given more than once. -/
def Reading.add (r : Reading) (option : OptionSpec) (values : List String) :
    Except Stop Reading :=
  if option.takes ≠ .nothing && values.isEmpty then
    .error (.usage (.missingValue option.name))
  else if option.takes ≠ .units && r.has option.name then
    .error (.usage (.repeated option.name))
  else
    match (option.split values).find? (!option.takes.accepts ·) with
    | some v => .error (.usage (.badValue option.name v))
    | none => .ok { r with options := r.options ++ [(option.name, option.split values)] }

def Reading.settle (r : Reading) : Except Stop Reading :=
  match r.pending with
  | none => .ok r
  | some (option, values) => { r with pending := none }.add option values

def looksLikeOption (arg : String) : Bool :=
  arg.toList.head? == some '-' && arg ≠ "-"

/-- Reads a group of one-letter options; the last one may take its value from the rest of the
group. -/
def readShorts (spec : CommandSpec) (whole : String) : List Char → Reading → Except Stop Reading
  | [], r => .ok r
  | c :: rest, r =>
      if c = 'h' then do
        let _ ← r.settle
        .error .help
      else if c = 'V' && spec.versioned then do
        let _ ← r.settle
        .error .version
      else
        match spec.options.find? (·.short == some c) with
        | none => .error (.usage (.unexpected whole))
        | some option => do
            let r ← r.settle
            if option.takes = .nothing then
              let r ← r.add option []
              readShorts spec whole rest r
            else
              match rest with
              | [] => .ok { r with pending := some (option, []) }
              | '=' :: value => r.add option [String.ofList value]
              | value => r.add option [String.ofList value]

/-- Reads a long option, whose value may stand behind an equals sign. -/
def readLong (spec : CommandSpec) (arg : String) (r : Reading) : Except Stop Reading :=
  let (name, attached) := Text.breakAt '=' (arg.toList.drop 2)
  let name := String.ofList name
  if name = "help" && attached.isNone then do
    let _ ← r.settle
    .error .help
  else if name = "version" && spec.versioned && attached.isNone then do
    let _ ← r.settle
    .error .version
  else
    match spec.options.find? (·.name == name), attached with
    | none, _ => .error (.usage (.unexpected arg))
    | some option, some value =>
        if option.takes = .nothing then
          .error (.usage (.badValue name (String.ofList value)))
        else do
          let r ← r.settle
          r.add option [String.ofList value]
    | some option, none => do
        let r ← r.settle
        if option.takes = .nothing then r.add option []
        else .ok { r with pending := some (option, []) }

def readOperand (spec : CommandSpec) (arg : String) (r : Reading) : Except Stop Reading :=
  if r.operands.length < spec.operands then do
    let r ← r.settle
    .ok { r with operands := r.operands ++ [arg] }
  else .error (.usage (.unexpected arg))

/-- Takes a value of the pending option or an operand. -/
def readPlain (spec : CommandSpec) (arg : String) (r : Reading) : Except Stop Reading :=
  match r.pending with
  | some (option, values) =>
      if r.wantsValue then .ok { r with pending := some (option, values ++ [arg]) }
      else readOperand spec arg r
  | none => readOperand spec arg r

/-- Reads the arguments of one level up to the command that follows.  Behind two dashes all are
operands. -/
def readLevel (spec : CommandSpec) : List String → Reading → Except Stop Reading
  | [], r => .ok r
  | arg :: rest, r =>
      if !r.wantsValue && spec.commands.contains arg then
        .ok { r with command := some (arg, rest) }
      else if arg = "--" then rest.foldlM (fun r a => readOperand spec a r) r
      else if "--".toList.isPrefixOf arg.toList then do
        let r ← readLong spec arg r
        readLevel spec rest r
      else if looksLikeOption arg then do
        let r ← readShorts spec arg arg.toList.tail r
        readLevel spec rest r
      else do
        let r ← readPlain spec arg r
        readLevel spec rest r

def globalOptions : List OptionSpec :=
  [⟨"quiet", some 'q', .nothing⟩, ⟨"verbose", some 'v', .nothing⟩, ⟨"log-level", none, .text⟩,
    ⟨"config", none, .text⟩]

def programSpec : CommandSpec := ⟨globalOptions, 0, ["init", "build", "test", "help"], true⟩

def initSpec : CommandSpec := ⟨globalOptions, 1, [], false⟩

def buildSpec : CommandSpec :=
  ⟨globalOptions ++
      [⟨"libs", none, .units⟩, ⟨"force", none, .nothing⟩, ⟨"format", some 'f', .format⟩],
    0, [], false⟩

def testSpec : CommandSpec := ⟨globalOptions ++ [⟨"filter", none, .text⟩], 1, [], false⟩

/-- How a summary is written. -/
inductive Format where
  | text
  | json
deriving DecidableEq, Repr, Inhabited

/-- What is asked for. -/
inductive Action where
  | init (name : Option String)
  | build (libs : List UnitId) (force : Bool) (format : Format)
  | test (name filter : Option String)
deriving DecidableEq, Repr, Inhabited

/-- The options that concern every command. -/
structure Settings where
  quiet : Bool
  verbose : Bool
  logLevel : Option String
  config : Option String
deriving DecidableEq, Repr, Inhabited

/-- A command line that was understood. -/
structure Arguments where
  settings : Settings
  action : Action
deriving DecidableEq, Repr, Inhabited

/-- The settings of both levels; the inner one wins. -/
def settingsOf (outer inner : Reading) : Settings :=
  { quiet := outer.has "quiet" || inner.has "quiet"
    verbose := outer.has "verbose" || inner.has "verbose"
    logLevel := (inner.value? "log-level").or (outer.value? "log-level")
    config := (inner.value? "config").or (outer.value? "config") }

def Format.ofValue : Option String → Format
  | some "json" => .json
  | _ => .text

/-- What a level asks for behind the name of its command. -/
def readCommand (spec : CommandSpec) (args : List String) : Except Stop Reading := do
  let r ← readLevel spec args .start
  r.settle

def actionOf (command : String) (args : List String) : Except Stop (Reading × Action) :=
  match command with
  | "init" => do
      let r ← readCommand initSpec args
      return (r, .init r.operands.head?)
  | "build" => do
      let r ← readCommand buildSpec args
      let libs := (r.values "libs").filterMap (UnitId.parse · |>.toOption)
      return (r, .build libs (r.has "force") (.ofValue (r.value? "format")))
  | "test" => do
      let r ← readCommand testSpec args
      return (r, .test r.operands.head? (r.value? "filter"))
  | _ => helpOn args
where
  /-- Help is given on one command or on the program. -/
  helpOn : List String → Except Stop (Reading × Action)
    | [] => .error .help
    | [topic] =>
        if programSpec.commands.contains topic then .error .help
        else .error (.usage (.unexpected topic))
    | topic :: next :: _ =>
        .error (.usage (.unexpected (if programSpec.commands.contains topic then next else topic)))

def readArguments (args : List String) : Except Stop Arguments := do
  let outer ← readLevel programSpec args .start
  match outer.command with
  | none => .error (.usage .missingCommand)
  | some (command, rest) =>
      let (inner, action) ← actionOf command rest
      let outer ← outer.settle
      return ⟨settingsOf outer inner, action⟩

end ClojureBuild.Cli
