import ClojureBuild.Shell.Run
/-!
A whole run of the shell as a program: from its arguments and environment to its end.
-/

namespace ClojureBuild.Shell.Start

def ownVariables (call : ProcessCall) : List (String × String) :=
  [("PS1", "# "), ("PS2", "> "), ("PS4", "+ "), ("OPTIND", "1"), ("IFS", " \t\n"),
    ("PPID", toString call.parent)]

def bashVariables : List (String × String) :=
  [("BASH", "/bin/bash"), ("BASH_VERSION", "5.2.21(1)-release"), ("OSTYPE", "linux-gnu"),
    ("HOSTTYPE", "x86_64"), ("MACHTYPE", "x86_64-pc-linux-gnu"), ("UID", "0"), ("EUID", "0"),
    ("OPTERR", "1")]

/-- The variables of the environment, and those that the shell adds. -/
def bindings (dialect : Dialect) (call : ProcessCall) (directory : String) :
    List (String × Variable) :=
  let plain (value : String) : Variable := { State.Variable.blank with value := some value }
  let given := (call.environment.filter (isName ·.1.toList)).map fun (name, value) =>
    (name, { plain value with exported := true })
  let own := (ownVariables call ++ (if dialect = .bash then bashVariables else [])).map
    fun (name, value) => (name, plain value)
  let level := match (valueIn? "SHLVL" call.environment).bind String.toNat? with
    | some n => n + 1
    | none => 1
  let shown := ("PWD", directory) ::
    (if dialect = .bash then [("SHLVL", toString level)] else [])
  let put (vs : List (String × Variable)) (entry : String × Variable) :=
    State.replaceEntry entry.1 entry.2 vs
  let all := own.foldl put given
  let all := shown.foldl (fun vs (name, value) =>
    State.replaceEntry name { plain value with exported := true } vs) all
  if (all.lookup "PATH").isSome then all
  else State.replaceEntry "PATH" (plain Builtin.defaultPath) all

/-- The name of the current directory: that of the environment if it is one, or else the one without
links. -/
def directoryName (w : World) (environment : List (String × String)) : String :=
  let name := World.textOf w.cwd
  match valueIn? "PWD" environment with
  | some text =>
      match text.toList.head?, w.stat ⟨text⟩ with
      | some '/', .ok (loc, _) => if loc = w.cwd then text else name
      | _, _ => name
  | none => name

def state (dialect : Dialect) (call : ProcessCall) (m : Machine) : State :=
  let directory := directoryName m.world call.environment
  { machine := m, descriptors := call.descriptors, dialect, process := call.process
    mainProcess := call.process, parentProcess := call.parent, name := call.name, args := []
    bindings := bindings dialect call directory, putAside := [], functions := [], aliases := []
    documents := [], nextDocument := 0, options := [], pipefail := false, status := 0
    innerStatus := 0, statuses := [], lastJob := none, jobs := [], traps := []
    ignored := call.ignored, blamed := none, line := 0, loopDepth := 0, functionDepth := 0
    directory, umask := 18, optionIndex := 1, optionPlace := 0, outputFault := none
    trapStatus := none }

/-- The options of the shell that have names of several letters and change nothing here. -/
def longOptions : List String :=
  ["--norc", "--noprofile", "--posix", "--login", "--restricted", "--verbose"]

/-- Sets the options at the front of the arguments, and gives what is behind them; the Boolean tells
whether a script stands among the arguments. -/
def readOptions (bash : Bool) : Nat → Bool → List String → Act (Bool × List String)
  | 0, inline, args => return (inline, args)
  | _, inline, [] => return (inline, [])
  | n + 1, inline, arg :: rest => do
      if bash && longOptions.contains arg then readOptions bash n inline rest
      else
        match arg.toList with
        | ['-'] | ['-', '-'] => return (inline, rest)
        | '-' :: letters =>
            let others := letters.filter fun c => c != 'c' && c != 'l'
            let rest ← Builtin.setLetters true others rest
            readOptions bash n (inline || letters.contains 'c') rest
        | '+' :: letters => readOptions bash n inline (← Builtin.setLetters false letters rest)
        | _ => return (inline, arg :: rest)

def runScript (carry : Execution) (shown last : Bool) (text : String) : Act Unit := do
  modify fun st => { st with line := 1 }
  let _ ← runText carry ⟨false, last⟩ shown 1 text.toList

/-- Opens the file of the script, and gives its text. -/
def readScript (file : String) : Act String := do
  let st ← get
  match st.machine.openPath st.descriptors file .read with
  | .ok (machine, number) =>
      match st.isBash, machine.readError? number with
      | true, none => return machine.remaining number
      | true, some cause =>
          Act.writeError (file ++ ": " ++ file ++ ": " ++ cause.reason ++ "\n")
          Act.setStatus 126
          throw .leave
      | false, _ => return machine.remaining number
  | .error cause =>
      if st.isBash then
        Act.writeError (st.name ++ ": " ++ file ++ ": " ++ cause.reason ++ "\n")
        Act.setStatus 127
        throw .leave
      else Act.fail (Opening.refusal false false file cause)

def main (carry : Execution) (args : List String) : Act Unit := do
  let bash := (← get).isBash
  let (inline, rest) ← readOptions bash (args.length + 1) false args
  match inline, rest with
  | true, [] =>
      if bash then
        Act.writeError ((← get).name ++ ": -c: option requires an argument\n")
        Act.setStatus 2
        throw .leave
      else Act.fail "-c requires an argument"
  | true, script :: rest =>
      modify fun st => { st with name := rest.headD st.name, args := rest.tail }
      runScript carry false (!(← get).has 's') script
  | false, rest =>
      if rest.isEmpty || (← get).has 's' then
        let st ← get
        match st.descriptors.lookup 0 with
        | none => pure ()
        | some number =>
            let (machine, text) := st.machine.readAll number
            set { st with machine, args := rest }
            runScript carry true false text
      else
        let file := rest.headD ""
        let text ← readScript file
        modify fun st => { st with name := file, args := rest.tail }
        runScript carry true false text

end Start

def runProcess (spawn : Spawner) (dialect : Dialect) (call : ProcessCall) (m : Machine) :
    Machine × ExitStatus :=
  let carry := run spawn commandDepth
  let (after, status) := completed carry (Start.main carry call.args) (Start.state dialect call m)
  (after.machine, status)

end ClojureBuild.Shell
