import ClojureBuild.Shell.Builtin.Basic
/-!
The built-in commands that end a script or parts of it, and those about signals and other processes.
-/

namespace ClojureBuild.Shell.Builtin

/-! ### Ends -/

/-- The status that an argument asks for, or else the present one. -/
def statusOf (args : List String) : Act Unit := do
  match args with
  | [] => pure ()
  | a :: _ =>
      if (← get).isBash then
        match Condition.numberOf a with
        | .ok n => Act.setStatus (n % 256).toNat
        | .error _ => refuse 2 (a ++ ": numeric argument required")
      else Act.setStatus ((← number a) % 256)

def exit : Builtin := fun args => do
  match args, (← get).trapStatus with
  | [], some n => Act.setStatus n
  | args, _ => statusOf args
  throw .leave

/-- Ends the function or script under way. -/
def returnFrom : Builtin := fun args => do
  statusOf args
  throw .returning

/-- Leaves loops, or goes on with the next round. -/
def leaveLoops (stop : Nat → Stop) : Builtin := fun args => do
  let n ← match args with
    | [] => pure 1
    | a :: _ => do
        let n ← number a
        if n = 0 then Act.fail ("Illegal number: " ++ a) else pure n
  Act.setStatus 0
  let depth := (← get).loopDepth
  if 0 < depth then throw (stop (min n depth))

/-! ### Signals and jobs -/

def signalNames : List (Nat × String) := (0, "EXIT") :: ExitStatus.signalNames

def signalOf? (st : State) (least : Nat) (text : String) : Option Nat :=
  let found : Option Nat := match text.toNat? with
    | some n => if n < 65 then some n else none
    | none =>
        let upper := text.toUpper
        let upper := if st.isBash && "SIG".toList.isPrefixOf upper.toList then
            String.ofList (upper.toList.drop 3)
          else upper
        (signalNames.find? fun entry => entry.2 == upper).map fun entry => entry.1
  found.filter (least ≤ ·)

def signalName (n : Nat) : String :=
  (signalNames.lookup n).getD (toString n)

def showTraps : Act Unit := do
  let st ← get
  (sortBy (fun a b => decide (a.1 < b.1)) st.traps).forM fun (n, text) =>
    let name := if st.isBash && n ≠ 0 then "SIG" ++ signalName n else signalName n
    Act.say ("trap -- " ++ singleQuoted st.dialect text ++ " " ++ name ++ "\n")

def setTraps (action : Option String) : List String → Act Unit
  | [] => pure ()
  | name :: rest => do
      let st ← get
      match signalOf? st 0 name with
      | none =>
          if st.isBash then Act.complain (name ++ ": invalid signal specification")
          else Act.writeError ("trap: " ++ name ++ ": bad trap\n")
          Act.setStatus 1
      | some n =>
          unless st.ignored.contains n do
            modify fun st => { st with
              traps := (st.traps.filter (·.1 != n)) ++ (action.map fun text => (n, text)).toList }
          setTraps action rest

/-- Says what is carried out when a signal comes or the shell ends. -/
def trap : Builtin := fun args => do
  let args := if args.head? = some "--" then args.tail else args
  Act.setStatus 0
  match args with
  | [] => showTraps
  | [name] => if name = "-p" then showTraps else setTraps none [name]
  | "-p" :: _ => showTraps
  | action :: names =>
      if action = "-" then setTraps none names
      else if (action.toNat?).any (· < 65) then setTraps none args
      else setTraps (some action) names

/-- The process that a word means, which may be a job. -/
def processOf (st : State) (word : String) : Option Nat :=
  match word.toList with
  | '%' :: rest =>
      match (String.ofList rest).toNat? with
      | some n => (st.jobs[n - 1]?).map (·.pid)
      | none => st.lastJob
  | _ => none

/-- What is done about jobs when there is no terminal: they can only be asked for. -/
def aboutJobs (demanded : Bool) : Builtin := fun args => do
  let st ← get
  match args.filter (·.toList.head? != some '-') with
  | word :: _ =>
      match processOf st word with
      | some _ => Act.setStatus 0
      | none =>
          if st.isBash then refuse 1 (word ++ ": no such job")
          else refuse 2 ("No such job: " ++ word)
  | [] =>
      if !demanded || !st.jobs.isEmpty then Act.setStatus 0
      else if st.isBash then refuse 1 "no job control"
      else refuse 2 "No current job"

def send (signal pid : Nat) : Act Bool := do
  let st ← get
  if pid = st.mainProcess || pid = st.process || st.machine.alive.contains pid then
    match st.jobs.find? (·.pid == pid) with
    | some job =>
        if (job.asleep || job.work.isSome) && ExitStatus.isFatal signal then
          let job := { job with status := .killed signal, asleep := false, work := none }
          modify fun st => { st with
            jobs := st.jobs.map fun j => if j.pid = pid then job else j }
    | none =>
        if 0 < signal then
          modify fun st => { st with machine := st.machine.sendSignal pid signal }
    return true
  else return false

def killUsage : String :=
  "Usage: kill [-s sigspec | -signum | -sigspec] [pid | job]... or\nkill -l [exitstatus]"

def sendAll (signal : Nat) (words : List String) : Act Unit := do
  Act.setStatus 0
  words.forM fun word => do
    let st ← get
    let pid ← match processOf st word with
      | some pid => pure pid
      | none =>
          match word.toList with
          | '-' :: rest => number (String.ofList rest)
          | _ => number word
    unless ← send signal pid do
      if st.isBash then refuse 1 ("(" ++ word ++ ") - No such process")
      else refuse 1 "No such process\n"

/-- Sends signals to processes or jobs, or lists the signals. -/
def kill : Builtin := fun args => do
  let st ← get
  let upperOne (text : String) : String := text
  match args with
  | [] => Act.fail killUsage
  | first :: rest =>
      match first.toList with
      | '-' :: name =>
          match signalOf? st 1 (String.ofList name) with
          | some n => if rest.isEmpty then Act.fail killUsage else sendAll n rest
          | none =>
              if name = ['0'] then sendAll 0 rest
              else if name = ['-'] then sendAll 15 rest
              else
                let (found, rest) ← takeOptions "l" "s" args
                if found.any (·.1 == 'l') then
                  match rest with
                  | [] =>
                      Act.say "0\n"
                      (ExitStatus.signalNames).forM fun (_, name) => Act.say (name ++ "\n")
                      Act.setStatus 0
                  | word :: _ =>
                      match st.isBash, signalOf? st 1 word with
                      | true, some n =>
                          let shown := if word.toNat?.isSome then signalName n else toString n
                          Act.say (shown ++ "\n")
                          Act.setStatus 0
                      | _, _ =>
                          let n ← number word
                          let n := if 128 < n then n - 128 else n
                          match ExitStatus.signalNames.lookup n with
                          | some name =>
                              Act.say (name ++ "\n")
                              Act.setStatus 0
                          | none =>
                              Act.fail ("invalid signal number or exit status: " ++ word)
                else
                  match found.lookup 's' with
                  | some word =>
                      match signalOf? st 0 word with
                      | some n => if rest.isEmpty then Act.fail killUsage else sendAll n rest
                      | none => Act.fail ("invalid signal number or name: " ++ upperOne word)
                  | none => Act.fail killUsage
      | _ => sendAll 15 args

/-- The message about a process that a signal ended. -/
def deathNotice (signal : Nat) : String :=
  match signal with
  | 1 => "Hangup"
  | 3 => "Quit"
  | 4 => "Illegal instruction"
  | 5 => "Trace/breakpoint trap"
  | 6 => "Aborted"
  | 7 => "Bus error"
  | 8 => "Floating point exception"
  | 9 => "Killed"
  | 10 => "User defined signal 1"
  | 11 => "Segmentation fault"
  | 12 => "User defined signal 2"
  | 14 => "Alarm clock"
  | 15 => "Terminated"
  | 16 => "Stack fault"
  | 24 => "CPU time limit exceeded"
  | 25 => "File size limit exceeded"
  | 26 => "Virtual timer expired"
  | 27 => "Profiling timer expired"
  | 29 => "I/O possible"
  | 30 => "Power failure"
  | 31 => "Bad system call"
  | n => "Unknown signal " ++ toString n

/-- Notes how a process ended, and says so if a signal did it. -/
def noteEnd (status : ExitStatus) : Act Unit := do
  match status with
  | .killed n => unless n = 2 || n = 13 do Act.writeError (deathNotice n ++ "\n")
  | .exited _ => pure ()
  Act.setStatus status.number

/-- Waits for one process, which must be one of the jobs. -/
def waitFor (word : String) : Act Unit := do
  let pid ← match processOf (← get) word with
    | some pid => pure pid
    | none => number word
  match (← get).jobs.find? (·.pid == pid) with
  | some job =>
      modify fun st => { st with machine := st.machine.endProcess pid }
      noteEnd job.status
  | none =>
      if (← get).isBash then
        refuse 127 ("pid " ++ word ++ " is not a child of this shell")
      else Act.setStatus 127

/-- Waits for processes and takes their status. -/
def wait : Builtin := fun args => do
  modify fun st => { st with jobs := st.jobs.map ({ · with asleep := false }) }
  match args with
  | [] =>
      modify fun st => { st with
        status := 0
        machine := st.jobs.foldl (fun m job => m.endProcess job.pid) st.machine }
  | args => args.forM waitFor

end ClojureBuild.Shell.Builtin
