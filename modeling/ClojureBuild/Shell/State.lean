import ClojureBuild.Process.Machine
import ClojureBuild.Shell.Syntax
/-!
What a running shell remembers, and the ways in which its commands end.

An *act* may change the shell and may stop it: a `break` or `return` on its way outward, an error,
or the end of the process.
-/

namespace ClojureBuild.Shell

/-- What is done to a text before it becomes the value of a variable. -/
inductive ValueKind where
  | plain
  | number
  | upper
  | lower
deriving DecidableEq, Repr, Inhabited

/-- A variable: its value, its list of elements by subscript, and its attributes. -/
structure Variable where
  value : Option String
  elements : Option (List (String × String))
  /-- Whether the subscripts are names instead of numbers. -/
  associative : Bool
  exported : Bool
  readonly : Bool
  kind : ValueKind
deriving DecidableEq, Repr, Inhabited

/-- A process that was started in the background. -/
structure JobOf (Work : Type) where
  pid : Nat
  status : ExitStatus
  /-- Whether it would still be waiting for time to pass. -/
  asleep : Bool
  work : Option Work
deriving Inhabited

/-- What a shell remembers, with the work that its jobs may have before them. -/
structure StateOf (Work : Type) where
  machine : Machine
  descriptors : Descriptors
  dialect : Dialect
  /-- The process that runs the commands; in a subshell another one than `mainProcess`. -/
  process : Nat
  mainProcess : Nat
  parentProcess : Nat
  name : String
  args : List String
  bindings : List (String × Variable)
  /-- The variables that the functions under way have put aside, innermost first. -/
  putAside : List (List (String × Option Variable))
  functions : List (String × Command)
  aliases : List (String × String)
  documents : List (Nat × Word)
  nextDocument : Nat
  options : List Char
  /-- Whether a pipeline fails when one of its commands does. -/
  pipefail : Bool
  status : Nat
  /-- The status of the last command substitution. -/
  innerStatus : Nat
  statuses : List Nat
  lastJob : Option Nat
  jobs : List (JobOf Work)
  /-- What is done on a signal; zero stands for the end of the shell. -/
  traps : List (Nat × String)
  /-- The signals that were ignored when the shell began. -/
  ignored : List Nat
  /-- The built-in command that messages name. -/
  blamed : Option String
  line : Nat
  loopDepth : Nat
  functionDepth : Nat
  /-- The name of the current directory, perhaps through links. -/
  directory : String
  umask : Nat
  /-- The argument that `getopts` looks at next, and the place in it; at zero no argument has been
  begun. -/
  optionIndex : Nat
  optionPlace : Nat
  /-- Why the output of a built-in command could not be written. -/
  outputFault : Option OsError
  /-- The status from before the trap that is being carried out. -/
  trapStatus : Option Nat
deriving Inhabited

/-- A command that is to be carried out by another process, and the shell as it was when the process
was started. -/
structure Errand where
  command : Command
  shell : StateOf Unit
deriving Inhabited

/-- A job of a shell. -/
abbrev Job := JobOf Errand

/-- The state of a shell. -/
abbrev State := StateOf Errand

/-- How a command may end the commands around it. -/
inductive Stop where
  | leave
  /-- An error, which ends the shell unless the command around it takes care of it. -/
  | failed
  | returning
  | breaking (loops : Nat)
  | continuing (loops : Nat)
  | killed (signal : Nat)
  /-- Another program took the place of the shell, and has ended with the shell's status. -/
  | replaced
deriving DecidableEq, Repr, Inhabited

/-- A step of a shell, which may stop it. -/
abbrev Act := ExceptT Stop (StateM State)

namespace Act

def attempt {α : Type} (act : Act α) : Act (Except Stop α) :=
  ExceptT.mk (act.run >>= fun r => pure (.ok r))

/-- The act with a change of the state behind it, which looks at the state from before. -/
def thenRestore {α : Type} (act : Act α) (restore : State → State → State) : Act α := do
  let before ← get
  let result ← attempt act
  modify (restore before)
  match result with
  | .ok a => return a
  | .error stop => throw stop

end Act

namespace State

def isBash (st : State) : Bool := st.dialect = .bash

def has (st : State) (option : Char) : Bool := st.options.contains option

/-! ### Variables -/

def lookUp? (st : State) (name : String) : Option Variable := st.bindings.lookup name

def firstElement (elements : List (String × String)) : Option String := elements.lookup "0"

def Variable.blank : Variable := ⟨none, none, false, false, false, .plain⟩

def value? (st : State) (name : String) : Option String :=
  if name = "LINENO" && st.isBash then some (toString st.line)
  else
    match st.lookUp? name with
    | some v =>
        match v.elements with
        | some elements => firstElement elements
        | none => v.value
    | none => none

/-- The list with the entry of one name replaced, or added at its end. -/
def replaceEntry {α : Type} (name : String) (a : α) : List (String × α) → List (String × α)
  | [] => [(name, a)]
  | (k, b) :: rest => if k = name then (name, a) :: rest else (k, b) :: replaceEntry name a rest

def putVariable (st : State) (name : String) (v : Variable) : State :=
  { st with bindings := replaceEntry name v st.bindings }

def dropVariable (st : State) (name : String) : State :=
  { st with bindings := st.bindings.filter (·.1 != name) }

def separators (st : State) : List Char := ((st.value? "IFS").getD " \t\n").toList

def environment (st : State) : List (String × String) :=
  st.bindings.filterMap fun (name, v) =>
    if v.exported then v.value.map fun text => (name, text) else none

/-! ### Messages -/

def messageFront (st : State) : String :=
  let place := if st.isBash then "line " ++ toString st.line else toString st.line
  st.name ++ ": " ++ place ++ ": " ++
    (match st.blamed with
     | some command => command ++ ": "
     | none => "")

def writeTo (st : State) (descriptor : Nat) (text : String) : State × Option OsError :=
  let (machine, e) := st.machine.writeTo st.descriptors descriptor text
  ({ st with machine }, e)

end State

namespace Act

def writeError (text : String) : Act Unit :=
  modify fun st => (st.writeTo 2 text).1

def say (text : String) : Act Unit :=
  modify fun st =>
    let (st, e) := st.writeTo 1 text
    { st with outputFault := st.outputFault.or e }

def complain (text : String) : Act Unit := do
  let st ← get
  writeError (st.messageFront ++ text ++ "\n")

/-- Sets the status that the next command sees. -/
def setStatus (n : Nat) : Act Unit := modify fun st => { st with status := n }

/-- Says what is wrong and stops with an error. -/
def fail {α : Type} (text : String) : Act α := do
  complain text
  setStatus (if (← get).isBash then 1 else 2)
  throw .failed

/-- The message of an error with a variable that may not be changed. -/
def refuseReadonly {α : Type} (name : String) : Act α := do
  if (← get).isBash then fail (name ++ ": readonly variable")
  else fail (name ++ ": is read only")

def assign (name value : String) : Act Unit := do
  let st ← get
  match st.lookUp? name with
  | some v =>
      if v.readonly then refuseReadonly name
      let v := match v.elements with
        | some elements =>
            { v with elements := some (State.replaceEntry "0" value elements) }
        | none => { v with value := some value }
      modify (·.putVariable name { v with exported := v.exported || st.has 'a' })
  | none => modify (·.putVariable name ⟨some value, none, false, st.has 'a', false, .plain⟩)
  if name = "OPTIND" then
    modify fun st => { st with optionIndex := (value.toNat?).getD 1, optionPlace := 0 }

/-- Gives an attribute to a variable, which may not exist yet. -/
def mark (name : String) (change : Variable → Variable) : Act Unit :=
  modify fun st =>
    st.putVariable name (change ((st.lookUp? name).getD State.Variable.blank))

def unset (name : String) : Act Unit := do
  match (← get).lookUp? name with
  | some v => if v.readonly then refuseReadonly name else modify (·.dropVariable name)
  | none => pure ()

/-- What is put aside under a name; the name `-` stands for the options. -/
def asideOf (st : State) (name : String) : Option Variable :=
  if name = "-" then
    some { State.Variable.blank with value := some (String.ofList st.options) }
  else st.lookUp? name

/-- Puts a variable aside until the function under way ends. -/
def putAside (name : String) : Act Unit :=
  modify fun st =>
    match st.putAside with
    | [] => st
    | frame :: frames =>
        if frame.any (·.1 == name) then st
        else { st with putAside := ((name, asideOf st name) :: frame) :: frames }

/-- Makes a variable without a value that lasts until the function under way ends. -/
def makeLocal (name : String) : Act Unit := do
  match (← get).putAside with
  | [] => pure ()
  | frame :: _ =>
      unless frame.any (·.1 == name) do
        putAside name
        modify (·.dropVariable name)

/-- Puts the variables back that were put aside. -/
def bringBack (st : State) (frame : List (String × Option Variable)) : State :=
  frame.foldl (fun st (name, v) =>
    match v with
    | some v =>
        if name = "-" then { st with options := (v.value.getD "").toList }
        else st.putVariable name v
    | none => st.dropVariable name) st

/-- Runs an act in which variables may be put aside. -/
def withLocals {α : Type} (act : Act α) : Act α := do
  modify fun st => { st with putAside := [] :: st.putAside }
  act.thenRestore fun _ st =>
    match st.putAside with
    | [] => st
    | frame :: frames => { bringBack st frame with putAside := frames }

end Act

end ClojureBuild.Shell
