import ClojureBuild.Process.Machine
/-!
What a separate program does: it looks at how it was called, changes the machine, and ends.

A program names itself in its messages as it was called.
-/

namespace ClojureBuild

/-- The work of a program, which may end before it is done. -/
abbrev Program := ReaderT ProcessCall (ExceptT ExitStatus (StateM Machine))

namespace Program

def world : Program World := return (← get).world

def changeWorld (change : World → World) : Program Unit :=
  modify fun m => { m with world := change m.world }

/-- Writes to a descriptor; what goes wrong is given back. -/
def writeTo (descriptor : Nat) (text : String) : Program (Option OsError) := do
  let descriptors := (← read).descriptors
  modifyGet fun m =>
    let (m, e) := m.writeTo descriptors descriptor text
    (e, m)

def warn (text : String) : Program Unit := do
  let _ ← writeTo 2 ((← read).name ++ ": " ++ text ++ "\n")

def stop {α : Type} (status : Nat) : Program α := throw (.exited status)

def refuse {α : Type} (status : Nat) (text : String) : Program α := do
  warn text
  stop status

/-- Says what is wrong with the way it was called, and ends. -/
def refuseUsage {α : Type} (status : Nat) (text : String) : Program α := do
  warn text
  let name := (← read).name
  let _ ← writeTo 2 ("Try '" ++ name ++ " --help' for more information.\n")
  stop status

def say (text : String) : Program Unit := do
  match ← writeTo 1 text with
  | none => pure ()
  | some e => refuse 1 ("write error: " ++ e.reason)

def quoted (name : String) : String :=
  if name.toList.contains '\'' then "\"" ++ name ++ "\"" else "'" ++ name ++ "'"

def faulty (name : String) (cause : OsError) : String := name ++ ": " ++ cause.reason

/-- All that the standard input still has to give. -/
def input : Program String := do
  match (← read).descriptors.lookup 0 with
  | none => return ""
  | some number => modifyGet fun m =>
      let (m, text) := m.readAll number
      (text, m)

/-- The content of a file; a lone dash means the standard input. -/
def content (name : String) : Program (Except OsError String) := do
  let descriptors := (← read).descriptors
  if name = "-" then
    match descriptors.lookup 0 with
    | none => return .error .badDescriptor
    | some number =>
        match (← get).readError? number with
        | some e => return .error e
        | none => return .ok (← input)
  else
    match (← get).openPath descriptors name .read with
    | .error e => return .error e
    | .ok (m, number) =>
        match m.readError? number with
        | some e => return .error e
        | none => return .ok (m.remaining number)

def cannotOpen (cause : OsError) : Bool := cause ≠ .isADirectory

/-- Does something with each of some things; whether all went well. -/
def each {α : Type} (things : List α) (act : α → Program Bool) : Program Bool :=
  things.foldlM (fun fine a => do return (← act a) && fine) true

def statusOf (fine : Bool) (bad : Nat) : ExitStatus := .exited (if fine then 0 else bad)

/-! ### Options -/

/-- The options that a program knows: letters without and with an argument, and long names for some
of them. -/
structure Forms where
  plain : String
  valued : String
  long : List (String × Char)
  /-- The letters whose argument may only be joined to a long name. -/
  joined : String
  /-- Whether the options end where the first operand stands. -/
  leading : Bool
  /-- The status for options that are not known. -/
  fault : Nat
deriving Inhabited

namespace Forms

def ofLetters (plain valued : String) (long : List (String × Char)) : Forms :=
  ⟨plain, valued, long, "", false, 1⟩

def findLong (forms : Forms) (text : String) : List (String × Char) :=
  match forms.long.find? (·.1 == text) with
  | some entry => [entry]
  | none => forms.long.filter fun entry => text.toList.isPrefixOf entry.1.toList

end Forms

/-- The options and operands of a program. -/
structure Arguments where
  options : List (Char × String)
  operands : List String
deriving DecidableEq, Repr, Inhabited

namespace Arguments

def has (a : Arguments) (letter : Char) : Bool := a.options.any (·.1 == letter)

def value? (a : Arguments) (letter : Char) : Option String :=
  ((a.options.filter (·.1 == letter)).getLast?).map (·.2)

def lastOf? (a : Arguments) (letters : String) : Option Char :=
  ((a.options.filter fun o => letters.toList.contains o.1).getLast?).map (·.1)

def withOption (letter : Char) (value : String) (a : Arguments) : Arguments :=
  { a with options := (letter, value) :: a.options }

def withOperand (operand : String) (a : Arguments) : Arguments :=
  { a with operands := operand :: a.operands }

end Arguments

/-- Reads the letters of one argument; the Boolean tells whether the next argument was used up. -/
def readLetters (forms : Forms) : List Char → List String → Program (Arguments × Bool)
  | [], _ => return (⟨[], []⟩, false)
  | c :: letters, rest => do
      if forms.valued.toList.contains c then
        match letters, rest with
        | [], value :: _ => return (⟨[(c, value)], []⟩, true)
        | [], [] =>
            refuseUsage forms.fault
              ("option requires an argument -- '" ++ String.singleton c ++ "'")
        | letters, _ => return (⟨[(c, String.ofList letters)], []⟩, false)
      else if forms.plain.toList.contains c then
        let (others, used) ← readLetters forms letters rest
        return (others.withOption c "", used)
      else refuseUsage forms.fault ("invalid option -- '" ++ String.singleton c ++ "'")

/-- Reads one long option; the Boolean tells whether the next argument was used up. -/
def readLong (forms : Forms) (text : String) (rest : List String) :
    Program ((Char × String) × Bool) := do
  let (name, value) := Text.breakAt '=' text.toList
  let name := String.ofList name
  match forms.findLong name with
  | [(full, c)] =>
      let takes := forms.valued.toList.contains c
      match value, takes, rest with
      | some v, true, _ => return ((c, String.ofList v), false)
      | some v, false, _ =>
          if forms.joined.toList.contains c then return ((c, String.ofList v), false)
          else refuseUsage forms.fault ("option '--" ++ full ++ "' doesn't allow an argument")
      | none, true, v :: _ => return ((c, v), true)
      | none, true, [] =>
          refuseUsage forms.fault ("option '--" ++ full ++ "' requires an argument")
      | none, false, _ => return ((c, ""), false)
  | [] => refuseUsage forms.fault ("unrecognized option '--" ++ name ++ "'")
  | _ => refuseUsage forms.fault ("option '--" ++ name ++ "' is ambiguous")

def readArguments (forms : Forms) : List String → Program Arguments
  | [] => return ⟨[], []⟩
  | arg :: rest => do
      match arg.toList with
      | ['-', '-'] => return ⟨[], rest⟩
      | '-' :: '-' :: name =>
          let (option, used) ← readLong forms (String.ofList name) rest
          let others ← match used, rest with
            | true, _ :: rest => readArguments forms rest
            | _, rest => readArguments forms rest
          return { others with options := option :: others.options }
      | '-' :: c :: letters =>
          let (found, used) ← readLetters forms (c :: letters) rest
          let others ← match used, rest with
            | true, _ :: rest => readArguments forms rest
            | _, rest => readArguments forms rest
          return { others with options := found.options ++ others.options }
      | _ =>
          if forms.leading then return ⟨[], arg :: rest⟩
          else return (← readArguments forms rest).withOperand arg

def arguments (forms : Forms) : Program Arguments := do
  readArguments forms (← read).args

/-! ### Lines -/

/-- The lines of a text, each without its end, and whether the last one has an end. -/
def linesOf (text : String) : List String × Bool :=
  let pieces := Text.splitString '\n' text
  match pieces.getLast? with
  | some "" => (pieces.dropLast, true)
  | _ => (pieces, false)

def joinLines (lines : List String) : String :=
  String.join (lines.map (· ++ "\n"))

/-- The name of a path's last piece, without separators at its end. -/
def baseName (path : String) : String :=
  let trimmed := (path.toList.reverse.dropWhile (· == '/'))
  if trimmed.isEmpty then (if path.isEmpty then "" else "/")
  else String.ofList (trimmed.takeWhile (· != '/')).reverse

def directoryName (path : String) : String :=
  let trimmed := path.toList.reverse.dropWhile (· == '/')
  if trimmed.isEmpty then (if path.isEmpty then "." else "/")
  else
    let up := trimmed.dropWhile (· != '/')
    if up.isEmpty then "."
    else
      let kept := up.dropWhile (· == '/')
      if kept.isEmpty then "/" else String.ofList kept.reverse

def joinNames (dir name : String) : String :=
  if dir.toList.getLast? = some '/' then dir ++ name else dir ++ "/" ++ name

end Program

end ClojureBuild
