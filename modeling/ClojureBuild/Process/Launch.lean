import ClojureBuild.Process.Programs
import ClojureBuild.Shell.Start
import ClojureBuild.Toolchain
/-!
Starting programs: finding the file, reading what kind of program it is, and running it.

A file is a program of its own, or a text that begins with `#!` and names the program that runs it.
-/

namespace ClojureBuild.Launch

/-- How much of a file is looked at to find its interpreter. -/
def headSize : Nat := 256

/-- Whether a character separates the parts of a first line. -/
def isBlank (c : Char) : Bool := c = ' ' || c = '\t'

/-- The interpreter that the first line of a file names, and the argument that it may give, which is
all that follows.  Where the line is longer than what is looked at, the name at least has to be
complete. -/
def interpreter? (content : ByteArray) : Option (String × List String) := do
  let start := (Octets.ofBytes (content.extract 0 headSize)).toList
  let rest ← Text.dropFront? ['#', '!'] start
  let line := rest.takeWhile (· != '\n')
  let complete := line.length < rest.length || content.size < headSize
  let body := ((line.dropWhile isBlank).reverse.dropWhile isBlank).reverse
  let ends (c : Char) : Bool := isBlank c || c = Char.ofNat 0
  let name := body.takeWhile (!ends ·)
  let behind := body.drop name.length
  if name.isEmpty then none
  else if !complete && (line.dropWhile isBlank).length = name.length then none
  else
    let arg := if behind.head?.any isBlank then behind.dropWhile isBlank else []
    let arg := arg.takeWhile (· != Char.ofNat 0)
    return (String.ofList name, if arg.isEmpty then [] else [String.ofList arg])

/-- How many interpreters may be texts that name another interpreter. -/
def mostInterpreters : Nat := 5

/-- Starts a program, where a shell or another program is started by `inner`; the number bounds the
interpreters on the way. -/
def startFile (inner : Spawner) : Nat → Spawner
  | links, call, m =>
      match m.world.stat call.file with
      | .error e => (m, .error e)
      | .ok (_, .dir _) | .ok (_, .link _) | .ok (_, .device _) => (m, .error .permissionDenied)
      | .ok (_, .file content _ executable) =>
          if !executable then (m, .error .permissionDenied)
          else
            match programOfImage? content with
            | some name =>
                match Programs.shells.lookup name, Programs.find? inner name with
                | some dialect, _ =>
                    let (m, status) := Shell.runProcess inner dialect call m
                    (m, .ok status)
                | none, some program =>
                    let (m, status) := Programs.run program call m
                    (m, .ok status)
                | none, none => (m, .error .execFormat)
            | none =>
                match interpreter? content, links with
                | none, _ => (m, .error .execFormat)
                | some _, 0 => (m, .error .tooManyLinks)
                | some (program, args), links + 1 =>
                    startFile inner links { call with
                      file := ⟨program⟩, name := program
                      args := args ++ call.file.text :: call.args } m

/-- Starts a program; the number bounds how deep programs may start one another. -/
def spawn : Nat → Spawner
  | 0, _, m => (m, .error .permissionDenied)
  | n + 1, call, m => startFile (spawn n) mostInterpreters call m

/-- How deep programs may start one another. -/
def depth : Nat := 200

/-- The files that a program's name may stand for: itself if a separator stands in it, and otherwise
one in each directory of the search path. -/
def candidates (searchPath name : String) : List Path :=
  if name.toList.contains '/' then [⟨name⟩]
  else
    (Text.splitString ':' searchPath).map fun dir =>
      if dir.isEmpty then ⟨name⟩ else ⟨dir ++ "/" ++ name⟩

/-- Starts the first candidate that can be started.  What is not there is passed over; a file that
may not be run is remembered, and any other refusal ends the search. -/
def spawnFirst (call : ProcessCall) (m : Machine) (refused : Bool) :
    List Path → Machine × Except OsError ExitStatus
  | [] => (m, .error (if refused then .permissionDenied else .notFound))
  | file :: rest =>
      match spawn depth { call with file } m with
      | (_, .error .permissionDenied) => spawnFirst call m true rest
      | (_, .error .notFound) => spawnFirst call m refused rest
      | (_, .error .notADirectory) => spawnFirst call m refused rest
      | result => result

def buildProcess : Nat := 1000

def callOf (environment : List (OsText × OsText)) (i : Invocation) (process : Nat) :
    ProcessCall :=
  { file := i.program, name := i.program.text, args := i.args, environment
    descriptors := Machine.standardDescriptors, process, parent := buildProcess, ignored := [] }

def start (environment : List (OsText × OsText)) (i : Invocation) (m : Machine) :
    Machine × Except OsError ExitStatus :=
  let name := i.program.text
  let (m, process) := m.addProcess
  let call := callOf environment i process
  if (name :: i.args).any (·.toList.contains (Char.ofNat 0)) then (m, .error .nulInInvocation)
  else if name.isEmpty then (m, .error .notFound)
  else if name.toList.contains '/' then spawn depth call m
  else
    let searchPath := (valueIn? "PATH" environment).getD "/bin:/usr/bin"
    spawnFirst call m false (candidates searchPath name)

def judge (i : Invocation) : Except OsError ExitStatus → Except BuildError Unit
  | .error cause => .error (.spawn i.program.display cause)
  | .ok status =>
      if status.succeeded then .ok ()
      else .error (.processFailed i.program.display status.message)

/-- The runner that starts programs and waits for their end. -/
def runner (environment : List (OsText × OsText)) : Runner := fun i => do
  Task.log .process .trace "spawning" [("command", i.display)]
  Task.ofFun fun s =>
    let cwd := s.world.cwd
    let (m, result) := start environment i (Machine.start s.world)
    (judge i result,
      { world := { m.world with cwd }, journal := s.journal ++ .invoked i :: m.events.toList })

end ClojureBuild.Launch
