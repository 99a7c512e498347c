import ClojureBuild.Shell.Assigning
import ClojureBuild.Shell.Builtin.Names
import ClojureBuild.Shell.Redirection
import ClojureBuild.Shell.Truth
/-!
Carrying out the commands of a shell.

Every kind of command is described in terms of how the commands in it are carried out; the whole is
tied together at the end, where a number bounds how deep commands stand in one another.
-/

namespace ClojureBuild.Shell

/-- What a command is carried out for. -/
structure Stance where
  /-- Whether its failure is looked at, so that it ends nothing. -/
  tested : Bool
  last : Bool
deriving DecidableEq, Repr, Inhabited

/-- How commands are carried out. -/
abbrev Execution := Stance → Command → Act Unit

def Stance.inner (stance : Stance) : Stance := ⟨stance.tested, false⟩

/-- Where the status decides what is done next. -/
def Stance.condition : Stance := ⟨true, false⟩

/-- Takes step after step until one says that it was the last; the number bounds them. -/
@[specialize] def goOn {α : Type} (step : α → Act (α × Bool)) : Nat → α → Act α
  | 0, a => return a
  | n + 1, a => do
      let (b, more) ← step a
      if more then goOn step n b else return b

/-- How often a loop may go round. -/
def mostRounds : Nat := 1000000000

/-! ### Scripts -/

/-- The message about a text that is no script. -/
def refuseScript (source : List Char) (e : SyntaxError) : Act Unit := do
  let st ← get
  if st.isBash then
    let line := (e.line, ((String.ofList source).splitOn "\n")[e.line - 1]?.getD "")
    let say (n : Nat) (text : String) : Act Unit :=
      Act.writeError (st.name ++ ": " ++
        (match st.blamed with
         | some command => command ++ ": "
         | none => "") ++ "line " ++ toString n ++ ": " ++ text ++ "\n")
    match e.token with
    | some "" => say (line.1 + 1) "syntax error: unexpected end of file"
    | some token =>
        say line.1 ("syntax error near unexpected token \x60" ++ token ++ "'")
        say line.1 ("\x60" ++ line.2 ++ "'")
    | none => say line.1 ("syntax error: " ++ e.message)
    Act.setStatus 2
    throw .failed
  else
    set { st with line := e.line }
    Act.fail ("Syntax error: " ++ e.message)

/-- Carries out the next line of a script; the Boolean tells whether a command was met so far. -/
def runLine (carry : Execution) (stance : Stance) (shown : Bool) (whole : List Char) :
    Source × Bool → Act ((Source × Bool) × Bool)
  | (source, begun) => do
      let st ← get
      let aliases := if st.isBash then [] else st.aliases
      let (result, after) :=
        ({ source with aliases, nextNumber := st.nextDocument, documents := [] } : Source).readLine
      modify fun st => { st with
        documents := after.documents ++ st.documents, nextDocument := after.nextNumber }
      if shown && st.has 'v' then
        Act.writeError (String.ofList (source.rest.take (source.rest.length - after.rest.length)))
      match result with
      | .error e =>
          refuseScript whole e
          return ((after, begun), false)
      | .ok none => return ((after, begun), false)
      | .ok (some .nothing) => return ((after, begun), true)
      | .ok (some command) =>
          carry ⟨stance.tested, stance.last && after.isAtEnd⟩ command
          return ((after, true), true)

/-- Carries out a script that begins on a line; whether there was a command in it. -/
def runText (carry : Execution) (stance : Stance) (shown : Bool) (line : Nat)
    (text : List Char) : Act Bool := do
  let st ← get
  let source := Source.start st.dialect [] line st.nextDocument text
  let (_, begun) ← goOn (runLine carry stance shown text) (text.length + 2) (source, false)
  return begun

/-! ### Processes -/

/-- The end of a process, which carries out an act and then the trap for its end. -/
def ended (carry : Execution) (act : Act Unit) (st : State) : State × ExitStatus :=
  match act.run.run st with
  | (.error (.killed n), st) => (st, .killed n)
  | (.error .replaced, st) => (st, .ofNumber st.status)
  | (_, st) =>
      match st.traps.lookup 0 with
      | none => (st, .ofNumber st.status)
      | some text =>
          let ending := { st with
            traps := st.traps.filter (·.1 != 0), trapStatus := some st.status
            blamed := none, loopDepth := 0 }
          match (runText carry ⟨false, false⟩ false 1 text.toList).run.run ending with
          | (.error (.killed n), after) => (after, .killed n)
          | (.error .leave, after) | (.error .failed, after) => (after, .ofNumber after.status)
          | (_, after) => (after, .ofNumber st.status)

/-- The shell of another process: it keeps only the traps that ignore a signal. -/
def inherited (st : State) (process : Nat) (ignored : List Nat) : State :=
  let kept := st.traps.filter (·.2 == "")
  let traps := kept ++ (ignored.filter fun n => !kept.any (·.1 == n)).map fun n => (n, "")
  { st with process, traps, jobs := [] }

/-- Carries out the errands of processes in the background, first things first. -/
def runErrands (carry : Execution) : Act Unit := do
  let st ← get
  if st.jobs.all (·.work.isNone) then pure ()
  else
    st.jobs.forM fun job => do
      match job.work with
      | none => pure ()
      | some errand =>
          let st ← get
          let machine := { st.machine with
            world.cwd := errand.shell.machine.world.cwd, slept := false }
          let shell : State := { errand.shell with machine, jobs := [] }
          let shell := inherited shell job.pid [2, 3]
          let (after, status) := ended carry (carry ⟨false, true⟩ errand.command) shell
          let done := { job with status, asleep := after.machine.slept, work := none }
          modify fun st => { st with
            machine := { after.machine with
              world.cwd := st.machine.world.cwd, slept := st.machine.slept }
            jobs := st.jobs.map fun j => if j.pid = job.pid then done else j }

/-- The end of a process, and then that of the processes that it left in the background. -/
def completed (carry : Execution) (act : Act Unit) (st : State) : State × ExitStatus :=
  let (after, status) := ended carry act st
  (((runErrands carry).run.run after).2, status)

/-- Carries out an act as a process of its own, and gives its number and its end. -/
def inProcess (carry : Execution) (ignored : List Nat) (act : Act Unit) :
    Act (Nat × ExitStatus) := do
  runErrands carry
  let st ← get
  let (machine, process) := st.machine.addProcess
  let (after, status) := completed carry act (inherited { st with machine } process ignored)
  set { st with
    machine := { after.machine with world.cwd := st.machine.world.cwd }
    nextDocument := after.nextDocument }
  return (process, status)

def forget (process : Nat) : Act Unit :=
  modify fun st => { st with machine := st.machine.endProcess process }

def inSubshell (carry : Execution) (act : Act Unit) : Act Unit := do
  let (process, status) ← inProcess carry [] act
  forget process
  Builtin.noteEnd status

/-- The text without the line ends at its end, and without what no text can hold. -/
def trimOutput (text : String) : String :=
  let chars := text.toList.filter (· != Char.ofNat 0)
  String.ofList (chars.reverse.dropWhile (· == '\n')).reverse

/-- The file whose content a script stands for that only reads it. -/
def onlyReads? (st : State) (line : Nat) (script : List Char) : Option Redirect :=
  if !st.isBash then none
  else
    match (Source.start st.dialect [] line st.nextDocument script).readLine with
    | (.ok (some (.simple _ [] [] [redirect])), _) =>
        if redirect.kind = .read then some redirect else none
    | _ => none

def substitution (carry : Execution) : Substitution := fun line script => do
  if script.all fun c => c = ' ' || c = '\t' || c = '\n' then return ""
  let st ← get
  let (machine, buffer) := st.machine.openBuffer ""
  modify fun st => { st with machine }
  let act : Act Unit := do
    modify fun st => { st with descriptors := Opening.bind st.descriptors 1 buffer }
    match onlyReads? st line script with
    | some redirect =>
        let openings ← Opening.ofRedirect (fun _ _ => return "") redirect
        if ← Opening.openAll openings then
          let st ← get
          let content := ((st.descriptors.lookup 0).map st.machine.remaining).getD ""
          Act.say content
          Act.setStatus 0
        else Act.setStatus 1
    | none =>
        let _ ← runText carry ⟨false, true⟩ false line script
  let (process, status) ← inProcess carry [] act
  forget process
  let outer := (← get).status
  Builtin.noteEnd status
  modify fun st => { st with status := outer, innerStatus := status.number }
  return trimOutput ((← get).machine.remaining buffer)

def ignoredSignals (st : State) : List Nat :=
  st.ignored ++ (st.traps.filter (·.2 == "")).map (·.1)

/-- Starts a program in a process, and gives its end.  A file that no system can start is a script
for the shell. -/
def startProgram (spawn : Spawner) (process : Nat) (file name : String) (args : List String) :
    Act (Except OsError ExitStatus) := do
  let st ← get
  let parent := if process = st.process then st.parentProcess else st.process
  let call : ProcessCall := ⟨⟨file⟩, name, args, st.environment, st.descriptors, process,
    parent, ignoredSignals st⟩
  let shell := if st.isBash then "/usr/bin/bash" else "/bin/sh"
  let (machine, result) := match spawn call st.machine with
    | (machine, .error .execFormat) =>
        spawn { call with file := ⟨shell⟩, name := shell, args := file :: args } machine
    | result => result
  set { st with machine := { machine with world.cwd := st.machine.world.cwd } }
  return result

/-- Says why a program cannot be started, and leaves the status for it. -/
def refuseProgram (name : String) (cause : OsError) : Act Unit := do
  let st ← get
  let missing := cause = .notFound || cause = .notADirectory
  let isDir := st.machine.world.isDir ⟨name⟩
  let reason :=
    if st.isBash then (if isDir then OsError.isADirectory.reason else cause.reason)
    else if missing then "not found"
    else cause.reason
  Builtin.refuse
    (if missing || cause = .tooManyLinks || cause = .nameTooLong then 127 else 126)
    (name ++ ": " ++ reason)

/-- Whether a trap is set for anything that the shell does not just ignore. -/
def hasTraps (st : State) : Bool := st.traps.any (·.2 != "")

/-- Lets a program take the place of the shell. -/
def becomeProgram (spawn : Spawner) (file name : String) (args : List String) : Act Unit := do
  match ← startProgram spawn (← get).process file name args with
  | .ok (.exited n) =>
      Act.setStatus n
      throw .replaced
  | .ok (.killed n) => throw (.killed n)
  | .error cause =>
      refuseProgram name cause
      throw .leave

def refuseName (name : String) (cause : OsError) : Act Unit := do
  let bash := (← get).isBash
  match cause with
  | .permissionDenied => Builtin.refuse (if bash then 126 else 127) (name ++ ": " ++ cause.reason)
  | _ => Builtin.refuse 127 (name ++ (if bash then ": command not found" else ": not found"))

def runProgram (spawn : Spawner) (carry : Execution) (stance : Stance) (path name : String)
    (args : List String) : Act Unit := do
  runErrands carry
  let st ← get
  match findProgram st.machine.world path name with
  | .error cause => refuseName name cause
  | .ok file =>
      if stance.last && !hasTraps st then becomeProgram spawn file name args
      else
        let (machine, process) := st.machine.addProcess
        set { st with machine }
        match ← startProgram spawn process file name args with
        | .ok status =>
            forget process
            Builtin.noteEnd status
        | .error cause =>
            forget process
            refuseProgram name cause

/-! ### Signals -/

def actOnSignal (carry : Execution) (signal : Nat) : Act Unit := do
  let st ← get
  if st.ignored.contains signal && signal ≠ 9 then pure ()
  else
    match st.traps.lookup signal with
    | some "" => pure ()
    | some text =>
        set { st with trapStatus := some (st.trapStatus.getD st.status) }
        let _ ← runText carry ⟨false, false⟩ false 1 text.toList
        modify fun after => { after with status := st.status, trapStatus := st.trapStatus }
    | none => if ExitStatus.isFatal signal then throw (.killed signal)

def noticeSignals (carry : Execution) : Act Unit := do
  let st ← get
  if st.machine.signals.isEmpty then pure ()
  else
    let (machine, signals) := st.machine.takeSignals st.process
    set { st with machine }
    (distinctBy (fun a b => decide (a < b)) signals).forM (actOnSignal carry)

/-! ### Simple commands -/

/-- A simple command while its words are expanded. -/
structure Plan where
  /-- The words in front that only tell how to look for the command. -/
  passed : List String
  args : List String
  waiting : List Word
  builtin : Option String
  /-- Whether a failure ends the script, once that is known. -/
  special : Option Bool
  skipsFunctions : Bool
  usualPath : Bool
deriving Inhabited

namespace Plan

def fill (substitute : Substitution) (p : Plan) : List Word → Act Plan
  | [] => return { p with waiting := [] }
  | w :: rest => do
      let args ← expandArguments substitute w
      if args.isEmpty then fill substitute p rest
      else return { p with args := p.args ++ args, waiting := rest }

/-- Passes over the options of `command`; whether a command is to be looked for behind them. -/
def passOptions (substitute : Substitution) : Nat → Plan → Act (Plan × Bool)
  | 0, p => return (p, false)
  | n + 1, p => do
      let p ← if p.args.isEmpty then fill substitute p p.waiting else pure p
      match p.args with
      | [] => return (p, false)
      | a :: rest =>
          let next := { p with passed := p.passed ++ [a], args := rest }
          match a.toList with
          | ['-', '-'] =>
              let next ← if rest.isEmpty then fill substitute next next.waiting else pure next
              return (next, !next.args.isEmpty)
          | '-' :: c :: cs =>
              if (c :: cs).all (· == 'p') then
                passOptions substitute n { next with usualPath := true }
              else return (p, false)
          | _ => return (p, true)

/-- Finds out which built-in command is meant, if it is one. -/
def settle (substitute : Substitution) : Nat → Plan → Act Plan
  | 0, p => return p
  | n + 1, p => do
      match p.args with
      | [] => return p
      | name :: rest =>
          let st ← get
          let isFunction := !p.skipsFunctions && (st.functions.lookup name).isSome
          if isFunction || !Builtin.isBuiltin st.dialect name then return p
          else
            let special := p.special.getD
              (!st.isBash && (specialBuiltins.contains name || name = "local"))
            let p := { p with special := some special }
            let behind := { p with passed := p.passed ++ [name], args := rest }
            if name = "command" then
              let (next, found) ← passOptions substitute (n + 1) behind
              if found then settle substitute n { next with skipsFunctions := true }
              else
                let args := next.passed.drop p.passed.length ++ next.args
                return { next with passed := p.passed, args, builtin := some name }
            else if name = "builtin" && !rest.isEmpty then
              settle substitute n { behind with skipsFunctions := true }
            else return { p with builtin := some name }

/-- The built-in commands whose arguments may be assignments. -/
def takesAssignments (name : String) : Bool :=
  ["export", "readonly", "local", "alias", "declare", "typeset"].contains name

def ofWords (substitute : Substitution) (words : List Word) : Act Plan := do
  let words := if (← get).isBash then words.flatMap fun w => expandBraces (w.length + 1) w
    else words
  let start : Plan := { (default : Plan) with waiting := words }
  let p ← fill substitute start words
  let p ← settle substitute (words.length + p.args.length + 1) p
  let assigns := p.builtin.any takesAssignments
  let more ← p.waiting.mapM fun w =>
    if assigns then expandAssigned substitute w else expandArguments substitute w
  return { p with args := p.args ++ more.flatten, waiting := [] }

end Plan

def trace (substitute : Substitution) (descriptors : Descriptors) (words : List String) :
    Act Unit := do
  let st ← get
  if st.has 'x' then
    let front ← expandText substitute (wordOf st.dialect ((st.value? "PS4").getD "+ "))
    let line := front ++ String.intercalate " " words ++ "\n"
    modify fun st => { st with machine := (st.machine.writeTo descriptors 2 line).1 }

/-- How deep functions may call one another. -/
def mostCalls : Nat := 1000

def callFunction (carry : Execution) (stance : Stance) (body : Command) (args : List String) :
    Act Unit := do
  let st ← get
  if mostCalls ≤ st.functionDepth && !st.isBash then
    Act.fail ("Maximum function recursion depth (" ++ toString mostCalls ++ ") reached")
  set { st with
    args, loopDepth := 0, functionDepth := st.functionDepth + 1, optionIndex := 1
    optionPlace := 0 }
  let result ← Act.attempt (carry stance.inner body)
  modify fun after => { after with
    args := st.args, loopDepth := st.loopDepth, functionDepth := st.functionDepth
    optionIndex := st.optionIndex, optionPlace := st.optionPlace }
  match result with
  | .ok () | .error .returning => pure ()
  | .error stop => throw stop

def evalWords (carry : Execution) (stance : Stance) (args : List String) : Act Unit := do
  let begun ← runText carry stance.inner false 1 (String.intercalate " " args).toList
  unless begun do Act.setStatus 0

def findScript (name : String) : Act String := do
  if name.toList.contains '/' then return name
  else
    let st ← get
    let dirs := Text.splitString ':' (Builtin.searchPath st)
    let files := dirs.map fun dir => if dir.isEmpty then name else dir ++ "/" ++ name
    let isFile (file : String) : Bool := st.machine.world.isFile ⟨file⟩
    match files.find? isFile with
    | some file => return file
    | none =>
        if st.isBash && isFile name then return name
        else if st.isBash then Act.fail (name ++ ": " ++ OsError.notFound.reason)
        else Act.fail (name ++ ": not found")

def runFile (carry : Execution) (args : List String) : Act Unit := do
  match args with
  | [] => if (← get).isBash then Builtin.refuse 2 "filename argument required" else pure ()
  | name :: rest =>
      let file ← findScript name
      let st ← get
      match st.machine.openPath st.descriptors file .read with
      | .error cause => Act.fail (Opening.refusal st.isBash false file cause)
      | .ok (machine, number) =>
          let text := (machine.remaining number).toList
          set { st with
            blamed := if st.isBash then st.blamed else some file
            args := if st.isBash && !rest.isEmpty then rest else st.args }
          let result ← Act.attempt (runText carry ⟨false, false⟩ true 1 text)
          modify fun after => { after with
            args := if st.isBash && !rest.isEmpty then st.args else after.args }
          match result with
          | .ok begun => unless begun do Act.setStatus 0
          | .error .returning => pure ()
          | .error stop => throw stop

/-- Lets a program take the place of the shell, if one is named. -/
def execProgram (spawn : Spawner) (args : List String) : Act Unit := do
  let args := if args.head? = some "--" then args.tail else args
  match args with
  | [] => Act.setStatus 0
  | name :: rest =>
      let st ← get
      match findProgram st.machine.world (Builtin.searchPath st) name with
      | .ok file => becomeProgram spawn file name rest
      | .error cause =>
          let reason := match cause with
            | .permissionDenied => cause.reason
            | _ => "not found"
          Builtin.refuse (if cause = .permissionDenied then 126 else 127) (name ++ ": " ++ reason)
          throw .leave

def runBuiltin (spawn : Spawner) (carry : Execution) (stance : Stance) (special : Bool)
    (name : String) (args : List String) : Act Unit := do
  let outer := (← get).blamed
  modify fun st => { st with blamed := some name, outputFault := none }
  let result ← Act.attempt (do
    match name with
    | "eval" => evalWords carry stance args
    | "wait" =>
        runErrands carry
        Builtin.wait args
    | "." | "source" => runFile carry args
    | "exec" => execProgram spawn args
    | _ =>
        match Builtin.find? name with
        | some builtin => builtin args
        | none => Act.setStatus 0
    let st ← get
    if let some cause := st.outputFault then
      Builtin.refuse 1
        (if st.isBash then "write error: " ++ cause.reason else name ++ ": I/O error"))
  modify fun st => { st with blamed := outer, outputFault := none }
  match result with
  | .ok () => pure ()
  | .error .failed => if special then throw .failed
  | .error stop => throw stop

/-- Carries out what a plan comes to, when redirections and assignments are done. -/
def runPlan (spawn : Spawner) (carry : Execution) (stance : Stance) (p : Plan) : Act Unit := do
  match p.args, p.builtin with
  | [], _ => modify fun st => { st with status := st.innerStatus }
  | _ :: args, some name => runBuiltin spawn carry stance (p.special.getD false) name args
  | name :: args, none =>
      let st ← get
      match if p.skipsFunctions then none else st.functions.lookup name with
      | some body => callFunction carry stance body args
      | none =>
          let path := if p.usualPath then Builtin.defaultPath else Builtin.searchPath st
          runProgram spawn carry stance path name args

/-- Carries out assignments in front of a command, and gives their texts.  They are for the command
alone unless it is of the kind that keeps them. -/
def assignAll (substitute : Substitution) (kept exported : Bool) (assignments : List Assignment) :
    Act (List String) :=
  assignments.mapM fun a => do
    unless kept do Act.putAside a.name
    let text ← a.carryOut substitute
    if exported then Act.mark a.name ({ · with exported := true })
    return text

/-- Carries out the assignments, words and redirections of a simple command. -/
def runExpanded (spawn : Spawner) (carry : Execution) (stance : Stance)
    (assignments : List Assignment) (redirects : List Redirect) (p : Plan) : Act Unit := do
  let substitute := substitution carry
  let special := p.special.getD false
  let bash := (← get).isBash
  let declares := p.builtin.any Plan.takesAssignments && bash
  let kept := p.args.isEmpty || special || declares
  let (lists, assignments) :=
    if declares then assignments.partition (·.elements.isSome) else ([], assignments)
  let (before, behind) :=
    if p.builtin.any fun name => name = "export" || name = "readonly" then (lists, [])
    else ([], lists)
  let p := { p with args := p.args ++ lists.map (·.name) }
  let outer := (← get).descriptors
  let act : Act Unit := do
    let openings ← redirects.mapM (Opening.ofRedirect substitute)
    if ← Opening.openAll openings.flatten then
      let exported := !kept || (p.builtin = some "exec" && 1 < p.args.length)
      let texts ← assignAll substitute kept exported (assignments ++ before)
      trace substitute outer (texts ++ p.passed ++ p.args)
      runPlan spawn carry stance p
      let _ ← assignAll substitute true false behind
    else
      Act.setStatus (if bash then 1 else 2)
      if special then throw .failed
  if kept then act else Act.withLocals act

def runSimple (spawn : Spawner) (carry : Execution) (stance : Stance) (line : Nat)
    (assignments : List Assignment) (words : List Word) (redirects : List Redirect) :
    Act Unit := do
  modify fun st => { st with line, innerStatus := 0 }
  let before := (← get).descriptors
  let p ← Plan.ofWords (substitution carry) words
  let act := runExpanded spawn carry stance assignments redirects p
  if p.builtin = some "exec" then act
  else act.thenRestore fun _ st => { st with descriptors := before }

/-! ### Compound commands -/

/-- How one round of a loop ended. -/
inductive RoundEnd where
  | done
  | continued
  | broken
deriving DecidableEq, Repr

def inRound (act : Act Unit) : Act RoundEnd := do
  match ← Act.attempt act with
  | .ok () => return .done
  | .error (.breaking n) => if 1 < n then throw (.breaking (n - 1)) else return .broken
  | .error (.continuing n) => if 1 < n then throw (.continuing (n - 1)) else return .continued
  | .error stop => throw stop

def inLoop {α : Type} (act : Act α) : Act α := do
  modify fun st => { st with loopDepth := st.loopDepth + 1 }
  act.thenRestore fun before st => { st with loopDepth := before.loopDepth - 1 }

/-- Carries out a loop with a condition, and leaves the status of its last round. -/
def runLoop (carry : Execution) (stance : Stance) (untilTrue : Bool)
    (condition body : Command) : Act Unit := do
  let round (status : Nat) : Act (Nat × Bool) := do
    match ← inRound (carry .condition condition) with
    | .broken => return (status, false)
    | .continued => return (status, true)
    | .done =>
        if ((← get).status == 0) == untilTrue then return (status, false)
        else
          let ending ← inRound (carry stance.inner body)
          runErrands carry
          return ((← get).status, ending ≠ .broken)
  let status ← inLoop (goOn round mostRounds 0)
  Act.setStatus status

def runForEach (carry : Execution) (stance : Stance) (name : String) (values : List String)
    (body : Command) : Act Unit := do
  let round : List String × Nat → Act ((List String × Nat) × Bool)
    | ([], status) => return (([], status), false)
    | (value :: rest, _) => do
        Act.assign name value
        let ending ← inRound (carry stance.inner body)
        return ((rest, (← get).status), ending ≠ .broken)
  let (_, status) ← inLoop (goOn round (values.length + 1) (values, 0))
  Act.setStatus status

def calculateWord (substitute : Substitution) (w : Word) : Act Int := do
  calculate (Atom.text (← expandParts substitute expansionFuel false w))

def runForCount (carry : Execution) (stance : Stance) (start condition step : Word)
    (body : Command) : Act Unit := do
  let value (w : Word) : Act Int :=
    if w.isEmpty then return 1 else calculateWord (substitution carry) w
  let round (status : Nat) : Act (Nat × Bool) := do
    if (← value condition) = 0 then return (status, false)
    else
      let ending ← inRound (carry stance.inner body)
      let status := (← get).status
      unless ending = .broken do
        let _ ← value step
      return (status, ending ≠ .broken)
  let _ ← value start
  let status ← inLoop (goOn round mostRounds 0)
  Act.setStatus status

def matchesOne (substitute : Substitution) (text : String) : List Word → Act Bool
  | [] => return false
  | w :: rest => do
      let items ← expandPattern substitute w
      if matchesAll items text.toList then return true else matchesOne substitute text rest

/-- The commands of the arms that are carried out for a text; the Boolean tells whether the next arm
is one of them anyway. -/
def chooseArms (substitute : Substitution) (text : String) :
    Bool → List (List Word × ArmEnd × Command) → Act (List Command)
  | _, [] => return []
  | reached, (patterns, ending, body) :: rest => do
      let found ← if reached then pure true else matchesOne substitute text patterns
      if !found then chooseArms substitute text false rest
      else
        match ending with
        | .leave => return [body]
        | .goOn => return body :: (← chooseArms substitute text true rest)
        | .lookOn => return body :: (← chooseArms substitute text false rest)

def runEach (carry : Execution) (stance : Stance) : List Command → Act Unit
  | [] => pure ()
  | [command] => carry stance command
  | command :: rest => do
      carry stance.inner command
      runEach carry stance rest

/-- Carries out commands that each read what the one before writes. -/
def runPipeline (carry : Execution) (stance : Stance) : Option Nat → List Command →
    Act (List ExitStatus)
  | _, [] => return []
  | input, command :: rest => do
      let (machine, buffer) := (← get).machine.openBuffer ""
      modify fun st => { st with machine }
      let lead (st : State) : State :=
        let descriptors := match input with
          | some number => Opening.bind st.descriptors 0 number
          | none => st.descriptors
        { st with descriptors :=
            if rest.isEmpty then descriptors else Opening.bind descriptors 1 buffer }
      let (process, status) ← inProcess carry [] (do
        modify lead
        carry ⟨stance.tested, true⟩ command)
      forget process
      Builtin.noteEnd status
      return status :: (← runPipeline carry stance (some buffer) rest)

/-- Starts a process in the background, whose turn comes when this one waits, starts another process
or ends. -/
def runInBackground (line : Nat) (command : Command) : Act Unit := do
  let st ← get
  let (machine, process) := st.machine.addProcess
  let (machine, input) := machine.addFile ⟨.nothing, 0, true, false, false⟩
  let resting : Machine := { (default : Machine) with world.cwd := st.machine.world.cwd }
  let shell : StateOf Unit := { st with
    machine := resting, descriptors := Opening.bind st.descriptors 0 input, jobs := [], line }
  let job : Job := ⟨process, .exited 0, false, some ⟨command, shell⟩⟩
  set { st with
    machine, line, status := 0, lastJob := some process, jobs := st.jobs ++ [job] }

/-- Carries out a subshell, which may take the place of the shell at its end. -/
def runSubshell (carry : Execution) (stance : Stance) (line : Nat) (body : Command)
    (redirects : List Redirect) : Act Unit := do
  modify fun st => { st with line }
  let openings ← redirects.mapM (Opening.ofRedirect (substitution carry))
  let act : Act Unit := do
    if ← Opening.openAll openings.flatten then carry ⟨stance.tested, true⟩ body
    else
      Act.setStatus (if (← get).isBash then 1 else 2)
      throw .failed
  if stance.last && !hasTraps (← get) then
    act
    throw .leave
  else inSubshell carry act

def runRedirected (carry : Execution) (stance : Stance) (line : Nat) (body : Command)
    (redirects : List Redirect) : Act Unit := do
  modify fun st => { st with line }
  let openings ← redirects.mapM (Opening.ofRedirect (substitution carry))
  keepingDescriptors do
    if ← Opening.openAll openings.flatten then carry stance.inner body
    else Act.setStatus (if (← get).isBash then 1 else 2)

/-- The kinds of commands whose failure may end the script. -/
def Command.isChecked : Command → Bool
  | .simple .. | .subshell .. | .background .. | .pipeline .. | .condition .. | .calculation .. =>
      true
  | _ => false

def runCommand (spawn : Spawner) (carry : Execution) (stance : Stance) : Command → Act Unit
  | .nothing => pure ()
  | .simple line assignments words redirects =>
      runSimple spawn carry stance line assignments words redirects
  | .sequence first second => do
      carry stance.inner first
      carry stance second
  | .both first second => do
      carry .condition first
      if (← get).status = 0 then carry stance second
  | .either first second => do
      carry .condition first
      if (← get).status ≠ 0 then carry stance second
  | .negated command => do
      carry .condition command
      modify fun st => { st with status := if st.status = 0 then 1 else 0 }
  | .pipeline commands => do
      let statuses := (← runPipeline carry stance none commands).map ExitStatus.number
      modify fun st => { st with
        statuses
        status := (if st.pipefail then (statuses.filter (· != 0)).getLast?
          else statuses.getLast?).getD 0 }
  | .background line command => runInBackground line command
  | .redirected line body redirects => runRedirected carry stance line body redirects
  | .subshell line body redirects => runSubshell carry stance line body redirects
  | .branch condition yes no => do
      carry .condition condition
      if (← get).status = 0 then carry stance yes
      else
        match no with
        | .nothing => Act.setStatus 0
        | no => carry stance no
  | .loop untilTrue condition body => runLoop carry stance untilTrue condition body
  | .forEach line name words body => do
      modify fun st => { st with line }
      runForEach carry stance name (← expandAll (substitution carry) words) body
  | .forCount line start condition step body => do
      modify fun st => { st with line }
      runForCount carry stance start condition step body
  | .choice line subject arms => do
      modify fun st => { st with line }
      let text ← expandText (substitution carry) subject
      match ← chooseArms (substitution carry) text false arms with
      | [] | [.nothing] => Act.setStatus 0
      | bodies => runEach carry stance bodies
  | .define _ name body =>
      modify fun st => { st with
        functions := State.replaceEntry name body st.functions, status := 0 }
  | .condition line truth => do
      modify fun st => { st with line }
      Act.setStatus (if ← truth.holds (substitution carry) then 0 else 1)
  | .calculation line expression => do
      modify fun st => { st with line }
      let n ← calculateWord (substitution carry) expression
      Act.setStatus (if n = 0 then 1 else 0)

/-- Carries out commands; the number bounds how deep they stand in one another. -/
def run (spawn : Spawner) : Nat → Execution
  | 0, _, _ => throw (.killed 11)
  | n + 1, stance, command => do
      let carry := run spawn n
      unless (← get).has 'n' do
        noticeSignals carry
        runCommand spawn carry stance command
        noticeSignals carry
        let st ← get
        if command.isChecked && st.has 'e' && st.status ≠ 0 && !stance.tested then throw .leave
      if stance.last then throw .leave

/-- How deep commands may stand in one another. -/
def commandDepth : Nat := 100000

end ClojureBuild.Shell
