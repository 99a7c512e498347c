import ClojureBuild.Process.Status
import ClojureBuild.Session
import ClojureBuild.Text.Octets
/-!
What running processes share: the world, the open files, and the signals under way.

An open file remembers how far it was read or written, and every descriptor that leads to it shares
that place.  All text here is octet text; only the names of files are decoded, at the border to the
world.
-/

namespace ClojureBuild

/-- What an open file leads to. -/
inductive Target where
  | out
  | err
  | nothing
  /-- Reads as zeros and takes nothing. -/
  | full
  /-- What one process writes and another one reads. -/
  | buffer (content : String)
  | file (loc : Location)
  | directory
deriving DecidableEq, Repr, Inhabited

/-- An open file. -/
structure OpenFile where
  target : Target
  offset : Nat
  readable : Bool
  writable : Bool
  /-- Whether everything is written at the end. -/
  appends : Bool
deriving DecidableEq, Repr, Inhabited

/-- The open files of a process: each descriptor with the number of its file. -/
abbrev Descriptors := List (Nat × Nat)

/-- What processes change. -/
structure Machine where
  world : World
  events : Array Event
  files : Array OpenFile
  /-- The signals that were sent and not noticed yet, each with the process that it goes to. -/
  signals : List (Nat × Nat)
  /-- The processes that can be sent signals. -/
  alive : List Nat
  lastProcess : Nat
  /-- Whether a process was told to wait for time to pass. -/
  slept : Bool
deriving Inhabited

/-- How a file is opened. -/
inductive OpenMode where
  | read
  | write
  | append
  | readWrite
deriving DecidableEq, Repr, Inhabited

namespace Machine

/-- The machine of a build, on which nothing runs yet. -/
def start (w : World) : Machine :=
  { world := w, events := #[], signals := [], alive := [], lastProcess := 1000, slept := false
    files := #[⟨.nothing, 0, true, false, false⟩, ⟨.out, 0, false, true, true⟩,
      ⟨.err, 0, false, true, true⟩] }

def standardDescriptors : Descriptors := [(0, 0), (1, 1), (2, 2)]

def addProcess (m : Machine) : Machine × Nat :=
  let pid := m.lastProcess + 1
  ({ m with lastProcess := pid, alive := pid :: m.alive }, pid)

/-- Ends a process; the signals that wait for it are forgotten. -/
def endProcess (m : Machine) (pid : Nat) : Machine :=
  { m with alive := m.alive.filter (· != pid), signals := m.signals.filter (·.1 != pid) }

def addFile (m : Machine) (file : OpenFile) : Machine × Nat :=
  ({ m with files := m.files.push file }, m.files.size)

/-- A file that one process writes and another one reads. -/
def openBuffer (m : Machine) (content : String) : Machine × Nat :=
  m.addFile ⟨.buffer content, 0, true, true, true⟩

/-- The devices that are known by their paths.  No terminal belongs to a build. -/
def device? : Location → Option (Except OsError Target)
  | [name, "dev"] =>
      if name = "full" then some (.ok .full)
      else if name = "tty" then some (.error .noDevice)
      else if ["null", "random", "urandom", "zero"].contains name then some (.ok .nothing)
      else none
  | _ => none

def deviceAt? (w : World) (p : Path) : Option (Except OsError Target) :=
  match w.resolve true p with
  | .ok (.taken loc) => device? loc
  | _ => none

def descriptorOf? (name : String) : Option Nat :=
  match name with
  | "/dev/stdin" => some 0
  | "/dev/stdout" => some 1
  | "/dev/stderr" => some 2
  | _ =>
      match Text.dropFront? "/dev/fd/".toList name.toList with
      | some digits => (String.ofList digits).toNat?
      | none => none

def openPath (m : Machine) (descriptors : Descriptors) (name : String) (mode : OpenMode) :
    Except OsError (Machine × Nat) :=
  let p : Path := ⟨name⟩
  let writes := mode ≠ .read
  let reads := mode = .read || mode = .readWrite
  match descriptorOf? name with
  | some d =>
      match descriptors.lookup d with
      | some number => .ok (m, number)
      | none => .error .notFound
  | none =>
      match deviceAt? m.world p with
      | some (.ok target) => .ok (m.addFile ⟨target, 0, reads, writes, false⟩)
      | some (.error e) => .error e
      | none =>
          if mode = .read then
            match m.world.stat p with
            | .error e => .error e
            | .ok (loc, .file ..) => .ok (m.addFile ⟨.file loc, 0, true, false, false⟩)
            | .ok _ => .ok (m.addFile ⟨.directory, 0, true, false, false⟩)
          else
            match m.world.openForWriting p with
            | .error e => .error e
            | .ok spot =>
                let world :=
                  match spot, mode with
                  | .taken _, .append => m.world
                  | .taken _, .readWrite => m.world
                  | _, _ => m.world.store spot ByteArray.empty none
                let loc := match spot with
                  | .vacant parent leaf => leaf :: parent
                  | .taken loc => loc
                .ok (({ m with world } : Machine).addFile
                  ⟨.file loc, 0, reads, true, mode = .append⟩)

def contentAt (w : World) (loc : Location) : ByteArray :=
  match w.node? loc with
  | some (.file content ..) => content
  | _ => ByteArray.empty

/-- A file's bytes with others written over them from a place on. -/
def overwrite (old : ByteArray) (offset : Nat) (new : ByteArray) : ByteArray :=
  let gap : ByteArray := ⟨Array.replicate (offset - old.size) 0⟩
  old.extract 0 offset ++ gap ++ new ++ old.extract (offset + new.size) old.size

/-- What an open file still has to give. -/
def remaining (m : Machine) (number : Nat) : String :=
  match m.files[number]? with
  | some ⟨.buffer content, offset, _, _, _⟩ => String.ofList (content.toList.drop offset)
  | some ⟨.file loc, offset, true, _, _⟩ =>
      let content := contentAt m.world loc
      Octets.ofBytes (content.extract offset content.size)
  | _ => ""

def passOver (m : Machine) (number count : Nat) : Machine :=
  match m.files[number]? with
  | some file =>
      { m with files := m.files.setIfInBounds number { file with offset := file.offset + count } }
  | none => m

/-- Why an open file cannot be read. -/
def readError? (m : Machine) (number : Nat) : Option OsError :=
  match m.files[number]? with
  | some ⟨.directory, _, _, _, _⟩ => some .isADirectory
  | some file => if file.readable then none else some .badDescriptor
  | none => some .badDescriptor

/-- Reads everything that an open file has to give. -/
def readAll (m : Machine) (number : Nat) : Machine × String :=
  let text := m.remaining number
  (m.passOver number text.length, text)

def write (m : Machine) (number : Nat) (text : String) : Machine × Option OsError :=
  match m.files[number]? with
  | none => (m, some .badDescriptor)
  | some file =>
      if text.isEmpty then (m, none)
      else if !file.writable then (m, some .badDescriptor)
      else
        match file.target with
        | .out => ({ m with events := m.events.push (.out text) }, none)
        | .err => ({ m with events := m.events.push (.err text) }, none)
        | .nothing => (m, none)
        | .full => (m, some .noSpace)
        | .directory => (m, some .badDescriptor)
        | .buffer content =>
            let file := { file with target := .buffer (content ++ text) }
            ({ m with files := m.files.setIfInBounds number file }, none)
        | .file loc =>
            match m.world.node? loc with
            | some (.file content _ executable) =>
                let bytes := Octets.toBytes text
                let place := if file.appends then content.size else file.offset
                let node := Node.file (overwrite content place bytes) m.world.clock executable
                let file := { file with offset := place + bytes.size }
                ({ m with
                    world := m.world.put loc node
                    files := m.files.setIfInBounds number file }, none)
            | _ => (m, none)

def writeTo (m : Machine) (descriptors : Descriptors) (descriptor : Nat) (text : String) :
    Machine × Option OsError :=
  match descriptors.lookup descriptor with
  | some number => m.write number text
  | none => if text.isEmpty then (m, none) else (m, some .badDescriptor)

def sendSignal (m : Machine) (pid signal : Nat) : Machine :=
  { m with signals := m.signals ++ [(pid, signal)] }

/-- The signals for a process, which are then no longer under way. -/
def takeSignals (m : Machine) (pid : Nat) : Machine × List Nat :=
  let (mine, others) := m.signals.partition (·.1 == pid)
  ({ m with signals := others }, mine.map (·.2))

end Machine

/-- A process to start: the program's file, its name as it was called, arguments, environment and
open files. -/
structure ProcessCall where
  file : Path
  name : String
  args : List String
  environment : List (String × String)
  descriptors : Descriptors
  process : Nat
  parent : Nat
  ignored : List Nat
deriving Inhabited

/-- What starts a process: its end and the machine it leaves, or why it could not be started. -/
abbrev Spawner := ProcessCall → Machine → Machine × Except OsError ExitStatus

def valueIn? (name : String) : List (String × String) → Option String
  | [] => none
  | (k, v) :: rest => if k = name then some v else valueIn? name rest

def setVariable (name value : String) : List (String × String) → List (String × String)
  | [] => [(name, value)]
  | (k, v) :: rest =>
      if k = name then (name, value) :: rest else (k, v) :: setVariable name value rest

/-- The file of a program: as it is written, or else found in the search path.  A file that is there
but may not be run is remembered. -/
def findProgram (w : World) (searchPath : String) (name : String) : Except OsError String :=
  if name.toList.contains '/' then .ok name
  else
    let files := (Text.splitString ':' searchPath).map fun dir =>
      if dir.isEmpty then name
      else if dir.toList.getLast? = some '/' then dir ++ name
      else dir ++ "/" ++ name
    let state (file : String) : Option Bool :=
      match w.stat ⟨file⟩ with
      | .ok (_, .file _ _ executable) => some executable
      | .ok _ => some false
      | .error _ => none
    match files.find? (state · == some true) with
    | some file => .ok file
    | none => .error (if files.any (state · == some false) then .permissionDenied else .notFound)

end ClojureBuild
