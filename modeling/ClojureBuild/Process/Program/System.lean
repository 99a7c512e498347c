import ClojureBuild.Process.Condition
import ClojureBuild.Process.Formatted
import ClojureBuild.Process.Program.Files
import ClojureBuild.Process.Program.Lines
import ClojureBuild.Process.Status
/-!
The programs about processes and their surroundings, and those that start other programs.
-/

namespace ClojureBuild.Program

/-! ### Texts and conditions -/

/-- Shows its arguments, with escapes if `-e` is given. -/
def echo : Program ExitStatus := do
  say (Formatted.echo .separate (← read).args)
  return .exited 0

def printf : Program ExitStatus := do
  let args := match (← read).args with
    | "--" :: rest => rest
    | args => args
  match args with
  | [] => refuseUsage 1 "missing operand"
  | format :: args =>
      let made := Formatted.format .separate (args.length + 1) format.toList args
      made.complaints.forM warn
      say (String.ofList made.text)
      match made.fatal with
      | some message => refuse 1 message
      | none => return statusOf made.complaints.isEmpty 1

def conditionText : Condition.Fault → String
  | .noBracket => "missing ']'"
  | .unexpected word words =>
      match words with
      | [a, _] => "missing argument after " ++ quoted (words.getLast?.getD a)
      | _ => "extra argument " ++ quoted word
  | .noOperand op => "missing argument after " ++ quoted op
  | .notClosed (some word) => "')' expected, found " ++ word
  | .notClosed none => "')' expected"
  | .badNumber word => "invalid integer " ++ quoted word

/-- Decides a condition; the name with a bracket needs a closing one. -/
def test (bracket : Bool) : Program ExitStatus := do
  let call ← read
  match Condition.judge ⟨← world, call.descriptors, false⟩ bracket call.args with
  | .ok truth => return statusOf truth 1
  | .error fault => refuse 2 (conditionText fault)

/-- A decimal number as a count of units, and how many digits stand behind its point. -/
def decimal? (text : String) : Option (Int × Nat) :=
  let (negative, body) := match text.toList with
    | '-' :: rest => (true, rest)
    | '+' :: rest => (false, rest)
    | rest => (false, rest)
  let (whole, fraction) := Text.breakAt '.' body
  let fraction := fraction.getD []
  if (whole ++ fraction).isEmpty || !(whole ++ fraction).all Char.isDigit then none
  else
    let n : Int := (Shell.Arithmetic.readDigits 10 (whole ++ fraction)).1
    some (if negative then -n else n, fraction.length)

/-- A count of units with a number of digits behind the point. -/
def decimalText (places : Nat) (n : Int) : String :=
  let digits := Nat.toDigits 10 n.natAbs
  let digits := List.replicate (places + 1 - digits.length) '0' ++ digits
  let whole := digits.take (digits.length - places)
  let fraction := digits.drop (digits.length - places)
  String.ofList ((if n < 0 then ['-'] else []) ++ whole ++
    (if places = 0 then [] else '.' :: fraction))

/-- Whether a text begins like a number below zero. -/
def looksNegative (arg : String) : Bool :=
  match arg.toList with
  | '-' :: c :: _ => c.isDigit || c = '.'
  | _ => false

/-- The arguments, with a number below zero in front of all operands kept from being an option.
`valued` says that the argument is the value of an option. -/
def seqArguments (valued : Bool) : List String → List String
  | [] => []
  | arg :: rest =>
      if valued then arg :: seqArguments false rest
      else if looksNegative arg then "--" :: arg :: rest
      else if arg = "--" || arg.toList.head? ≠ some '-' then arg :: rest
      else arg :: seqArguments (["-s", "-f", "--separator", "--format"].contains arg) rest

def seq : Program ExitStatus := do
  let a ← readArguments { (Forms.ofLetters "w" "sf" [("separator", 's'), ("equal-width", 'w'),
    ("format", 'f')]) with leading := true } (seqArguments false (← read).args)
  let numbers ← a.operands.mapM fun text => do
    match decimal? text with
    | some n => return n
    | none => refuseUsage 1 ("invalid floating point argument: " ++ quoted text)
  let one : Int × Nat := (1, 0)
  let (first, step, last) ← match numbers with
    | [] => refuseUsage 1 "missing operand"
    | [last] => pure (one, one, last)
    | [first, last] => pure (first, one, last)
    | [first, step, last] => pure (first, step, last)
    | _ => refuseUsage 1 ("extra operand " ++ quoted (a.operands[3]?.getD ""))
  let places := max first.2 step.2
  let scale (n : Int × Nat) (places : Nat) : Int := n.1 * (Binary64.pow10 (places - n.2) : Nat)
  let all := max places last.2
  let (x, d, stop) := (scale first all, scale step all, scale last all)
  if d = 0 then
    refuseUsage 1 ("invalid Zero increment value: " ++ quoted (a.operands[1]?.getD ""))
  let count : Nat :=
    if 0 < d then (if stop < x then 0 else ((stop - x) / d).toNat + 1)
    else if x < stop then 0 else ((x - stop) / (-d)).toNat + 1
  let shown := (List.range (min count 1000000)).map fun (k : Nat) =>
    decimalText places (Int.tdiv (x + d * k) (Binary64.pow10 (all - places) : Nat))
  let width := (shown.map String.length).foldl max 0
  let shown := if a.has 'w' then shown.map fun text =>
      String.ofList (List.replicate (width - text.length) '0') ++ text else shown
  let shown := match a.value? 'f' with
    | some format => shown.map fun text =>
        String.ofList (Formatted.format .separate 2 format.toList [text]).text
    | none => shown
  unless shown.isEmpty do
    say (String.intercalate ((a.value? 's').getD "\n") shown ++ "\n")
  return .exited 0

/-! ### Time -/

def duration? (text : String) : Option Int :=
  let (body, unit) : List Char × Int := match text.toList.reverse with
    | 's' :: rest => (rest.reverse, 1)
    | 'm' :: rest => (rest.reverse, 60)
    | 'h' :: rest => (rest.reverse, 3600)
    | 'd' :: rest => (rest.reverse, 86400)
    | _ => (text.toList, 1)
  match decimal? (String.ofList body) with
  | some (n, places) =>
      if n < 0 then none else some (n * unit * World.second / (Binary64.pow10 places : Nat))
  | none => if body = "infinity".toList || body = "inf".toList then some (World.second * 1000000)
      else none

def pass (time : Int) : Program Unit :=
  modify fun m => { m with world := m.world.advance time, slept := m.slept || 0 < time }

/-- Waits, which passes no time here. -/
def sleep : Program ExitStatus := do
  let a ← arguments (.ofLetters "" "" [])
  if a.operands.isEmpty then refuseUsage 1 "missing operand"
  let times ← a.operands.mapM fun text => do
    match duration? text with
    | some t => return t
    | none =>
        warn ("invalid time interval " ++ quoted text)
        return -1
  if times.any (· < 0) then
    let name := (← read).name
    let _ ← writeTo 2 ("Try '" ++ name ++ " --help' for more information.\n")
    stop 1
  pass (times.foldl (· + ·) 0)
  return .exited 0

/-- The year, month and day of a number of days. -/
def dateOf (days : Int) : Int × Int × Int :=
  let z := days + 719468
  let era := z / 146097
  let dayOfEra := z - era * 146097
  let yearOfEra := (dayOfEra - dayOfEra / 1460 + dayOfEra / 36524 - dayOfEra / 146096) / 365
  let dayOfYear := dayOfEra - (365 * yearOfEra + yearOfEra / 4 - yearOfEra / 100)
  let m := (5 * dayOfYear + 2) / 153
  let day := dayOfYear - (153 * m + 2) / 5 + 1
  let month := if m < 10 then m + 3 else m - 9
  (yearOfEra + era * 400 + (if month ≤ 2 then 1 else 0), month, day)

def digitsOf (width : Nat) (n : Int) : String :=
  let digits := toString n
  String.ofList (List.replicate (width - digits.length) '0') ++ digits

def formatTime (seconds : Int) : List Char → String
  | '%' :: c :: rest =>
      let days := seconds / 86400
      let time := seconds % 86400
      let (y, m, d) := dateOf days
      let hms := digitsOf 2 (time / 3600) ++ ":" ++ digitsOf 2 (time / 60 % 60) ++ ":" ++
        digitsOf 2 (time % 60)
      let shown := match c with
        | 'Y' => toString y
        | 'm' => digitsOf 2 m
        | 'd' => digitsOf 2 d
        | 'H' => digitsOf 2 (time / 3600)
        | 'M' => digitsOf 2 (time / 60 % 60)
        | 'S' => digitsOf 2 (time % 60)
        | 'F' => toString y ++ "-" ++ digitsOf 2 m ++ "-" ++ digitsOf 2 d
        | 'T' => hms
        | 's' => toString seconds
        | 'N' => "000000000"
        | 'Z' => "UTC"
        | 'n' => "\n"
        | '%' => "%"
        | c => String.ofList ['%', c]
      shown ++ formatTime seconds rest
  | c :: rest => String.singleton c ++ formatTime seconds rest
  | [] => ""

def date : Program ExitStatus := do
  let a ← arguments (.ofLetters "uR" "drI" [("utc", 'u'), ("date", 'd')])
  let now := (← world).clock
  let time ← match a.value? 'd' with
    | none => pure now
    | some text =>
        match timeOf? now text with
        | some t => pure t
        | none => refuse 1 ("invalid date " ++ quoted text)
  let format := match a.operands with
    | first :: _ => (Text.dropFront? ['+'] first.toList).getD "%F %T".toList
    | [] => "%F %T %Z".toList
  say (formatTime (time / World.second) format ++ "\n")
  return .exited 0

/-! ### Who and where -/

def saying (text : String) : Program ExitStatus := do
  say (text ++ "\n")
  return .exited 0

def uname : Program ExitStatus := do
  let a ← arguments (.ofLetters "asnrvmpio" "" [("all", 'a'), ("kernel-name", 's'),
    ("machine", 'm'), ("nodename", 'n'), ("kernel-release", 'r'), ("operating-system", 'o')])
  let parts := [('s', "Linux"), ('n', "localhost"), ('r', "6.1.0"), ('v', "#1 SMP"),
    ('m', "x86_64"), ('o', "GNU/Linux")]
  let wanted := parts.filter fun (c, _) =>
    a.has 'a' || a.has c || (a.options.isEmpty && c = 's')
  saying (String.intercalate " " (wanted.map (·.2)))

/-- Shows the values of variables of the environment. -/
def printenv : Program ExitStatus := do
  let call ← read
  match call.args with
  | [] =>
      say (joinLines (call.environment.map fun (name, value) => name ++ "=" ++ value))
      return .exited 0
  | names =>
      let found := names.filterMap fun name => valueIn? name call.environment
      say (joinLines found)
      return statusOf (found.length = names.length) 1

/-- Shows where on the search path programs are. -/
def which : Program ExitStatus := do
  let a ← arguments { (Forms.ofLetters "as" "" []) with fault := 2 }
  let path := (valueIn? "PATH" (← read).environment).getD ""
  let w ← world
  let fine ← each a.operands fun name => do
    match findProgram w path name with
    | .ok file =>
        if w.isFile ⟨file⟩ then
          say (file ++ "\n")
          return true
        else return false
    | .error _ => return false
  return statusOf (fine && !a.operands.isEmpty) 1

def signalNamed? (word : String) : Option Nat :=
  match word.toNat? with
  | some n => if n < 65 then some n else none
  | none =>
      let upper := word.toUpper.toList
      let bare := (Text.dropFront? "SIG".toList upper).getD upper
      (List.find? (fun (entry : Nat × String) => entry.2 == String.ofList bare)
        ExitStatus.signalNames).map (·.1)

def sendSignal (signal : Nat) (words : List String) : Program ExitStatus := do
  let fine ← each words fun word => do
    match word.toNat? with
    | none => refuse 1 ("failed to parse argument: " ++ quoted word)
    | some pid =>
        if (← get).alive.contains pid then
          if 0 < signal then modify fun m => m.sendSignal pid signal
          return true
        else
          warn ("(" ++ word ++ "): No such process")
          return false
  return statusOf fine 1

/-- Sends signals to processes, or lists the signals. -/
def kill : Program ExitStatus := do
  let usage : Program ExitStatus := do
    let _ ← writeTo 2 "\nUsage:\n kill [options] <pid> [...]\n"
    stop 1
  match (← read).args with
  | [] => usage
  | "-l" :: rest | "-L" :: rest =>
      match rest with
      | [] => saying (String.intercalate " " (ExitStatus.signalNames.map (·.2)))
      | word :: _ =>
          match word.toNat?.bind fun n => ExitStatus.signalNames.lookup n, signalNamed? word with
          | some name, _ => saying name
          | none, some n => saying (toString n)
          | none, none => usage
  | "-s" :: name :: rest | "--signal" :: name :: rest =>
      match signalNamed? name with
      | some n => sendSignal n rest
      | none => refuse 1 ("invalid argument " ++ name)
  | "--" :: rest => sendSignal 15 rest
  | first :: rest =>
      match first.toList with
      | '-' :: name =>
          match signalNamed? (String.ofList name) with
          | some n => if rest.isEmpty then usage else sendSignal n rest
          | none => refuse 1 ("invalid argument " ++ String.ofList name)
      | _ => sendSignal 15 (first :: rest)

/-! ### Starting others -/

def start (spawn : Spawner) (inPlace : Bool) (environment : List (String × String))
    (name : String) (args : List String) : Program (Except OsError ExitStatus) := do
  let call ← read
  let path := (valueIn? "PATH" environment).getD "/bin:/usr/bin"
  match findProgram (← world) path name with
  | .error e => return .error e
  | .ok file =>
      let before ← get
      let (m, process) := if inPlace then (before, call.process) else before.addProcess
      let parent := if inPlace then call.parent else call.process
      let inner : ProcessCall := { call with
        file := ⟨file⟩, name, args, environment, process, parent }
      let (after, result) := match spawn inner m with
        | (m, .error .execFormat) =>
            spawn { inner with file := ⟨"/bin/sh"⟩, name := "/bin/sh", args := file :: args } m
        | result => result
      set (if inPlace then after else after.endProcess process)
      modify fun m => { m with world.cwd := after.world.cwd }
      return result

def become (spawn : Spawner) (environment : List (String × String)) (front name : String)
    (args : List String) : Program ExitStatus := do
  match ← start spawn true environment name args with
  | .ok status => return status
  | .error e => refuse (if e = .notFound then 127 else 126) (front ++ faulty (quoted name) e)

def takeAssignments : List String → List (String × String) × List String
  | [] => ([], [])
  | word :: rest =>
      match Text.breakAt '=' word.toList with
      | (name, some value) =>
          let (others, rest) := takeAssignments rest
          ((String.ofList name, String.ofList value) :: others, rest)
      | _ => ([], word :: rest)

/-- Starts a program in a changed environment, or shows the environment. -/
def env (spawn : Spawner) : Program ExitStatus := do
  let call ← read
  let args := match call.args with
    | "-S" :: text :: rest =>
        (Text.splitString ' ' text).filter (· != "") ++ rest
    | first :: rest =>
        match Text.dropFront? "-S".toList first.toList with
        | some text => (Text.splitString ' ' (String.ofList text)).filter (· != "") ++ rest
        | none => first :: rest
    | [] => []
  let (args, alone) := match args with
    | "-" :: rest => (rest, true)
    | args => (args, false)
  let a ← readArguments { (Forms.ofLetters "i0v" "uC" [("ignore-environment", 'i'),
    ("unset", 'u'), ("null", '0'), ("chdir", 'C')]) with leading := true, fault := 125 } args
  let gone := (a.options.filter (·.1 == 'u')).map (·.2)
  let base := if alone || a.has 'i' then []
    else call.environment.filter fun (name, _) => !gone.contains name
  let (given, command) := takeAssignments a.operands
  let environment := given.foldl (fun e (name, value) => setVariable name value e) base
  match a.value? 'C' with
  | none => pure ()
  | some dir =>
      match (← world).stat ⟨dir⟩ with
      | .ok (loc, .dir _) => changeWorld fun w => { w with cwd := loc }
      | .ok _ => refuse 125 ("cannot change directory to " ++ faulty (quoted dir) .notADirectory)
      | .error e => refuse 125 ("cannot change directory to " ++ faulty (quoted dir) e)
  match command with
  | [] =>
      say (joinLines (environment.map fun (name, value) => name ++ "=" ++ value))
      return .exited 0
  | name :: args => become spawn environment "" name args

/-- Starts a program that is not disturbed by a hangup. -/
def nohup (spawn : Spawner) : Program ExitStatus := do
  let call ← read
  match call.args with
  | [] => refuseUsage 125 "missing operand"
  | name :: args => become spawn call.environment "failed to run command " name args

def nice (spawn : Spawner) : Program ExitStatus := do
  let call ← read
  let a ← arguments { (Forms.ofLetters "" "n" [("adjustment", 'n')]) with
    leading := true, fault := 125 }
  match a.operands with
  | [] => saying "0"
  | name :: args => become spawn call.environment "" name args

/-- Starts a program that may take only so long. -/
def timeout (spawn : Spawner) : Program ExitStatus := do
  let call ← read
  let a ← arguments { (Forms.ofLetters "fpv" "ks" [("signal", 's'), ("kill-after", 'k'),
    ("preserve-status", 'p'), ("foreground", 'f')]) with leading := true, fault := 125 }
  match a.operands with
  | [] | [_] =>
      let _ ← writeTo 2 ("Try '" ++ call.name ++ " --help' for more information.\n")
      stop 125
  | time :: name :: args =>
      match duration? time with
      | none => refuseUsage 125 ("invalid time interval " ++ quoted time)
      | some limit =>
          let began := (← world).clock
          match ← start spawn false call.environment name args with
          | .error e =>
              refuse (if e = .notFound then 127 else 126)
                ("failed to run command " ++ faulty (quoted name) e)
          | .ok status =>
              if 0 < limit && limit < (← world).clock - began then
                changeWorld fun w => { w with clock := began + limit }
                return .exited 124
              else
                match status with
                | .killed n => return .exited (128 + n)
                | status => return status

/-! ### Arguments from the input -/

/-- Why words cannot be read. -/
inductive WordFault where
  | openQuote (double : Bool)
deriving DecidableEq, Repr

/-- The words of a text with quotes; a word under way is kept in reverse. -/
def inputWords : Option Char → Option (List Char) → List Char → Except WordFault (List String)
  | none, word, [] => .ok (word.map fun w => String.ofList w.reverse).toList
  | some q, _, [] => .error (.openQuote (q = '"'))
  | some q, word, c :: rest =>
      if c = q then inputWords none word rest
      else if c = '\n' then .error (.openQuote (q = '"'))
      else inputWords (some q) (some (c :: word.getD [])) rest
  | none, word, '\\' :: c :: rest => inputWords none (some (c :: word.getD [])) rest
  | none, word, c :: rest =>
      if c = '\'' || c = '"' then inputWords (some c) (some (word.getD [])) rest
      else if Shell.Arithmetic.isSpace c then do
        let others ← inputWords none none rest
        return (word.map fun w => String.ofList w.reverse).toList ++ others
      else inputWords none (some (c :: word.getD [])) rest

/-- A list cut into pieces of a size; the number bounds them. -/
def chunks {α : Type} (size : Nat) : Nat → List α → List (List α)
  | 0, _ => []
  | _, [] => []
  | n + 1, items => items.take size :: chunks size n (items.drop size)

def replaceMark (mark new text : String) : String :=
  if mark.isEmpty then text else String.intercalate new (text.splitOn mark)

/-- Runs the commands of `xargs` one after the other; the status says which kinds of ends there
were. -/
def runEach (spawn : Spawner) (environment : List (String × String)) (traced : Bool) :
    List (List String) → Nat → Program Nat
  | [], worst => return worst
  | [] :: rest, worst => runEach spawn environment traced rest worst
  | (name :: args) :: rest, worst => do
      if traced then
        let _ ← writeTo 2 (String.intercalate " " (name :: args) ++ "\n")
      match ← start spawn false environment name args with
      | .error e => refuse (if e = .notFound then 127 else 126) (faulty name e)
      | .ok (.exited 0) => runEach spawn environment traced rest worst
      | .ok (.exited 255) => refuse 124 (name ++ ": exited with status 255; aborting")
      | .ok (.exited _) => runEach spawn environment traced rest 123
      | .ok (.killed n) => refuse 125 (name ++ ": terminated by signal " ++ toString n)

/-- Starts a program with arguments from its input. -/
def xargs (spawn : Spawner) : Program ExitStatus := do
  let call ← read
  let a ← arguments { (Forms.ofLetters "0rtpx" "nLIdPsaE" [("null", '0'), ("max-args", 'n'),
    ("no-run-if-empty", 'r'), ("replace", 'I'), ("max-lines", 'L'), ("delimiter", 'd'),
    ("verbose", 't'), ("max-procs", 'P'), ("arg-file", 'a')]) with leading := true }
  let text ← match a.value? 'a' with
    | none => input
    | some name => do
        match ← content name with
        | .ok text => pure text
        | .error e => refuse 1 ("Cannot open input file " ++ faulty (quoted name) e)
  let command := if a.operands.isEmpty then ["echo"] else a.operands
  let pieces (c : Char) : List String :=
    let items := Text.splitString c text
    if items.getLast? = some "" then items.dropLast else items
  let words ←
    if a.has '0' then pure (pieces (Char.ofNat 0))
    else match a.value? 'd' with
    | some mark =>
        let c := match mark.toList with
          | '\\' :: 'n' :: _ => '\n'
          | '\\' :: 't' :: _ => '\t'
          | '\\' :: '0' :: _ => Char.ofNat 0
          | c :: _ => c
          | [] => ' '
        pure (pieces c)
    | none =>
        if a.has 'I' then
          pure (((linesOf text).1.map fun line =>
            String.ofList (line.toList.dropWhile Shell.Arithmetic.isSpace)).filter (· != ""))
        else
          match inputWords none none text.toList with
          | .ok words => pure words
          | .error (.openQuote double) =>
              refuse 1 ("unmatched " ++ (if double then "double" else "single") ++
                " quote; by default quotes are special to xargs unless you use the -0 option")
  let commands := match a.value? 'I', (a.value? 'n').bind String.toNat?,
      (a.value? 'L').bind String.toNat? with
    | some mark, _, _ => words.map fun word => command.map (replaceMark mark word)
    | none, some n, _ | none, none, some n =>
        (chunks (max 1 n) (words.length + 1) words).map (command ++ ·)
    | none, none, none => if words.isEmpty && a.has 'r' then [] else [command ++ words]
  return .exited (← runEach spawn call.environment (a.has 't') commands 0)

end ClojureBuild.Program
