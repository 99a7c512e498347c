import ClojureBuild.Shell.Builtin.Declaring
import ClojureBuild.Shell.Builtin.Directory
import ClojureBuild.Shell.Builtin.Signals
import ClojureBuild.Shell.Builtin.Variables
/-!
What names mean as commands, and the built-in commands by their names.
-/

namespace ClojureBuild.Shell.Builtin

def builtinNames : List String :=
  [".", ":", "[", "alias", "bg", "break", "cd", "chdir", "command", "continue", "echo", "eval",
    "exec", "exit", "export", "false", "fg", "getopts", "hash", "jobs", "kill", "local",
    "printf", "pwd", "read", "readonly", "return", "set", "shift", "test", "times", "trap", "true",
    "type", "ulimit", "umask", "unalias", "unset", "wait"]

def isBuiltin (dialect : Dialect) (name : String) : Bool :=
  builtinNames.contains name ||
    (dialect = .bash && ["source", "declare", "typeset", "let", "shopt", "builtin", "mapfile",
      "readarray", "fc", "disown", "enable", "dirs", "pushd", "popd", "logout",
      "suspend"].contains name)

def defaultPath : String := "/usr/local/sbin:/usr/local/bin:/usr/sbin:/usr/bin:/sbin:/bin"

/-- The directories in which programs are looked for. -/
def searchPath (st : State) : String := (st.value? "PATH").getD defaultPath

/-- Says what a name means as a command; `wordy` asks for a sentence. -/
def describe (wordy : Bool) (path name : String) : Act Unit := do
  let st ← get
  let say (brief sentence : String) : Act Unit := do
    Act.say ((if wordy then name ++ " is " ++ sentence else brief) ++ "\n")
    Act.setStatus 0
  if (keywords st.dialect).contains name then say name "a shell keyword"
  else
    match st.aliases.lookup name with
    | some text =>
        say ("alias " ++ name ++ "=" ++ singleQuoted st.dialect text)
          (if st.isBash then "aliased to \x60" ++ text ++ "'" else "an alias for " ++ text)
    | none =>
        if (st.functions.lookup name).isSome then
          say name (if st.isBash then "a function" else "a shell function")
        else if isBuiltin st.dialect name then
          say name (if specialBuiltins.contains name && !st.isBash then "a special shell builtin"
            else "a shell builtin")
        else
          let found := match findProgram st.machine.world path name with
            | .ok file => if st.machine.world.pathExists ⟨file⟩ then some file else none
            | .error _ => none
          match found with
          | some file => say file file
          | none =>
              if st.isBash then
                if wordy then Act.complain (name ++ ": not found")
                Act.setStatus 1
              else
                if wordy then Act.say (name ++ ": not found\n")
                Act.setStatus 127

def typeOf : Builtin := fun args => do
  Act.setStatus 0
  let worst ← args.foldlM (fun worst name => do
    describe true (searchPath (← get)) name
    return max worst (← get).status) 0
  Act.setStatus worst

def describeCommand : Builtin := fun args => do
  let (found, names) ← takeOptions "pvV" "" args
  let st ← get
  let path := if found.any (·.1 == 'p') then defaultPath else searchPath st
  match names with
  | name :: _ => describe (found.any (·.1 == 'V')) path name
  | [] => Act.setStatus 0

/-- Looks for programs, so that they are known later. -/
def hash : Builtin := fun args => do
  let (_, names) ← takeOptions "rv" "" args
  Act.setStatus 0
  names.forM fun name => do
    let st ← get
    let known := isBuiltin st.dialect name || (st.functions.lookup name).isSome ||
      (findProgram st.machine.world (searchPath st) name).toBool
    unless known do refuse 1 (name ++ ": not found")

/-- Gives names texts that stand for them, or shows the texts. -/
def defineAliases : Builtin := fun args => do
  Act.setStatus 0
  let st ← get
  let front := if st.isBash then "alias " else ""
  let showOne (name text : String) : Act Unit :=
    Act.say (front ++ name ++ "=" ++ singleQuoted st.dialect text ++ "\n")
  if args.isEmpty then st.aliases.forM fun (name, text) => showOne name text
  else
    args.forM fun arg => do
      match splitAssigned arg with
      | (name, some text) =>
          modify fun st => { st with aliases := State.replaceEntry name text st.aliases }
      | (name, none) =>
          match (← get).aliases.lookup name with
          | some text => showOne name text
          | none =>
              if st.isBash then Act.complain (name ++ ": not found")
              else Act.writeError ("alias: " ++ name ++ " not found\n")
              Act.setStatus 1

def dropAliases : Builtin := fun args => do
  let (found, names) ← takeOptions "a" "" args
  Act.setStatus 0
  if !found.isEmpty then modify fun st => { st with aliases := [] }
  names.forM fun name => do
    let st ← get
    if (st.aliases.lookup name).isSome then
      modify fun st => { st with aliases := st.aliases.filter (·.1 != name) }
    else
      if st.isBash then Act.complain (name ++ ": not found")
      else Act.writeError ("unalias: " ++ name ++ " not found\n")
      Act.setStatus 1

/-- The built-in commands that run no other commands. -/
def find? (name : String) : Option Builtin :=
  let succeed : Builtin := fun _ => Act.setStatus 0
  match name with
  | ":" | "true" | "fc" | "shopt" | "enable" | "disown" => some succeed
  | "jobs" => some (aboutJobs false)
  | "bg" | "fg" => some (aboutJobs true)
  | "declare" | "typeset" => some declareAll
  | "let" => some calculateAll
  | "mapfile" | "readarray" => some fillList
  | "false" => some fun _ => Act.setStatus 1
  | "ulimit" => some fun args => do
      if args.length < 2 then Act.say "unlimited\n"
      Act.setStatus 0
  | "times" => some fun _ => do
      Act.say "0m0.000000s 0m0.000000s\n0m0.000000s 0m0.000000s\n"
      Act.setStatus 0
  | "echo" => some echo
  | "printf" => some printf
  | "test" => some (test false)
  | "[" => some (test true)
  | "export" => some exportAll
  | "readonly" => some readonlyAll
  | "local" => some fun args => do
      if (← get).isBash then localDeclareAll args else localAll args
  | "unset" => some unsetAll
  | "set" => some set
  | "shift" => some shift
  | "getopts" => some getopts
  | "read" => some read
  | "cd" | "chdir" => some cd
  | "pwd" => some pwd
  | "umask" => some umask
  | "exit" => some exit
  | "return" => some returnFrom
  | "break" => some (leaveLoops .breaking)
  | "continue" => some (leaveLoops .continuing)
  | "trap" => some trap
  | "kill" => some kill
  | "wait" => some wait
  | "type" => some typeOf
  | "command" => some describeCommand
  | "hash" => some hash
  | "alias" => some defineAliases
  | "unalias" => some dropAliases
  | _ => none

end ClojureBuild.Shell.Builtin
