import ClojureBuild.Invocation
import ClojureBuild.World.Files
import ClojureBuild.Text.Octets
import ClojureBuild.Text.Quoted
/-!
A session: the world, and the journal of what happened in it.

A *task* runs in a session and ends with a value or an error.  What it changed before an error
stays changed, and what it noted stays noted.
-/

namespace ClojureBuild

/-- The importance of a log line, least first. -/
inductive LogLevel where
  | trace
  | debug
  | info
  | warn
  | error
deriving DecidableEq, Repr

/-- The part of a build that a log line comes from. -/
inductive LogArea where
  | classpath
  | compiler
  /-- The choice of a compiler for the other languages. -/
  | mixed
  | invocation
  | mirror
  | namespaces
  | process
  | delegate
  | suite
  | survey
  | walk
  | entries
  | rules
deriving DecidableEq, Repr

/-- Something that happened, for those who watch. -/
inductive Event where
  /-- A log line: a message and named values. -/
  | log (area : LogArea) (level : LogLevel) (message : String) (fields : List (String × String))
  /-- A program was asked to run. -/
  | invoked (invocation : Invocation)
  /-- Octet text on the standard output. -/
  | out (octets : String)
  /-- Octet text on the standard error. -/
  | err (octets : String)
deriving DecidableEq, Repr

def Event.shown (text : String) : Event := .out (Octets.ofText text)

def Event.said (text : String) : Event := .err (Octets.ofText text)

/-- The world and the journal, oldest event first. -/
structure Session where
  world : World
  journal : List Event
deriving Inhabited

/-- A computation that may change the session and may fail. -/
abbrev Task (ε α : Type) := ExceptT ε (StateM Session) α

namespace Task

variable {ε ε' α : Type}

def runIn (task : Task ε α) (s : Session) : Except ε α × Session :=
  StateT.run (ExceptT.run task) s

def ofFun (f : Session → Except ε α × Session) : Task ε α :=
  ExceptT.mk (fun s => f s)

def note (events : List Event) : Task ε Unit :=
  ofFun fun s => (.ok (), { s with journal := s.journal ++ events })

def log (area : LogArea) (level : LogLevel) (message : String) (fields : List (String × String)) :
    Task ε Unit :=
  note [.log area level message fields]

def look (view : World → α) : Task ε α :=
  ofFun fun s => (.ok (view s.world), s)

def change (act : World → World × Except OsError Unit) (refusal : OsError → ε) : Task ε Unit :=
  ofFun fun s =>
    let (w, result) := act s.world
    (result.mapError refusal, { s with world := w })

def ofExcept (result : Except ε α) : Task ε α :=
  ofFun fun s => (result, s)

def mapError (f : ε → ε') (task : Task ε α) : Task ε' α :=
  ofFun fun s =>
    let (result, s) := task.runIn s
    (result.mapError f, s)

def attempt (task : Task ε α) : Task ε' (Except ε α) :=
  ofFun fun s =>
    let (result, s) := task.runIn s
    (.ok result, s)

end Task

end ClojureBuild
