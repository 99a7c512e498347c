import ClojureBuild.Compile
/-!
A runner that follows a script instead of starting programs: it notes every invocation, fails where
the script says so, and otherwise plays the Clojure compiler by writing the loader of every unit.
-/

namespace ClojureBuild.Scripted

/-- How a scripted run fails. -/
inductive Ending where
  | spawn (text : String)
  | status (text : String)
deriving DecidableEq, Repr, Inhabited

/-- A failure for the invocations that meet its conditions. -/
structure Upset where
  program : Option String
  argument : Option String
  ending : Ending
deriving DecidableEq, Repr, Inhabited

def Upset.applies (u : Upset) (i : Invocation) : Bool :=
  u.program.all (Path.ofText · == i.program) &&
    u.argument.all fun part =>
      i.args.any fun a => Text.occursIn (Octets.ofText part).toList a.toList

/-- The directory that a compiler invocation writes to, and its units. -/
def compilation? (i : Invocation) : Option (OsText × List OsText) := do
  let property := ("-D" ++ compilePathProperty ++ "=").toList
  let dir ← i.args.findSome? fun a => Text.dropFront? property a.toList
  match i.args.dropWhile (· != compilerMain) with
  | [] => none
  | _ :: units => return (String.ofList dir, units)

/-- Writes the loader of a unit; a write that fails is passed over. -/
def writeLoader (dir : OsText) (w : World) (unit : OsText) : World :=
  let file : Path := ⟨dir ++ "/" ++ (UnitId.toPath ⟨unit⟩) ++ UnitId.initSuffix⟩
  let w := match file.parent? with
    | some parent => (w.makeDirs parent).1
    | none => w
  match w.writeFile file (Octets.toBytes ("class " ++ unit)) with
  | .ok w => w
  | .error _ => w

def compileEffect (i : Invocation) (w : World) : World :=
  match compilation? i with
  | some (dir, units) => units.foldl (writeLoader dir) w
  | none => w

/-- The runner that follows a script: the first failure that applies decides. -/
def runner (script : List Upset) : Runner := fun i => do
  Task.note [.invoked i]
  match script.find? (·.applies i) with
  | some u =>
      match u.ending with
      | .spawn text => Task.ofExcept (.error (.spawn i.program.display (.other text)))
      | .status text => Task.ofExcept (.error (.processFailed i.program.display text))
  | none => Task.change (fun w => (compileEffect i w, .ok ())) (BuildError.io ⟨""⟩)

end ClojureBuild.Scripted
