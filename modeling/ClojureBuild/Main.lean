import ClojureBuild.Cli.Program
/-!
The program on a real file tree.

The places that a build depends on are read into a world: the project, the directory of a named
configuration, the repository of artifacts and the tools on the search path.  The run itself is a
function of that world, and the files that it changed are then written back.  Tools are carried out
as scripts; a tool that is no script cannot be started from here.  What the system hands over here
are texts, so a name that is none is not read.
-/

namespace ClojureBuild.Main

/-- How deep below a place the tree is read. -/
def treeDepth : Nat := 100

/-- The world with what stands at a place of the tree, and everything below it. -/
def readTree (w : World) (loc : Location) : Nat → IO World
  | 0 => return w
  | depth + 1 => do
      let place ← IO.FS.realPath (Octets.toText (World.textOf loc))
      let info ← place.metadata
      let time := info.modified.sec * 1000000000 + info.modified.nsec.toNat
      if ← place.isDir then
        let names := (← place.readDir).map (·.fileName)
        names.foldlM (fun w name => readTree w (Octets.ofText name :: loc) depth)
          ((w.makeDirs ⟨World.textOf loc⟩).1.put loc (.dir time))
      else
        let content ← IO.FS.readBinFile place
        return (w.makeDirs ⟨World.textOf loc.tail⟩).1.put loc (.file content time true)

/-- The world with what stands at a path, which may be nothing. -/
def readPlace (w : World) (p : Path) : IO World :=
  match w.cwdPath.absolute? p with
  | none => return w
  | some q => try readTree w (World.locationOf q.text) treeDepth catch _ => return w

/-- The directory to read for a run without a named configuration: the first one from here upward
that holds a configuration, or else this one. -/
def projectPlace (cwd : Path) : IO Path := do
  let up := World.ancestors cwd
  let found ← up.filterM fun dir => do
    return (← (IO.FS.readBinFile (dir / Config.fileName).display).toBaseIO).toBool
  return found.headD cwd

/-- The tools that a search path may hold. -/
def toolNames : List String := ["java", "javac", "scalac", "groovyc"]

/-- The places that a run depends on, but for the project. -/
def otherPlaces (env : Cli.Environment) (config : Option String) : List Path :=
  let around := env.surroundings
  let searchPath := Text.splitString ':' ((valueIn? "PATH" env.bindings).getD "")
  let bins := searchPath.map Path.mk ++ around.javaHome.toList.map (· / "bin")
  (Classpath.defaultRepository around.home).toOption.toList ++
    bins.flatMap (fun bin => toolNames.map fun (tool : String) => bin / tool) ++
    config.toList.map fun c => ((Path.ofText c).parent?.getD ⟨"."⟩)

def variableNames : List String :=
  ["HOME", "PATH", "JAVA_HOME", "KILN_LOG", "RUST_LOG", "NO_COLOR"]

/-- The home directory in a table of accounts, for the user with this number. -/
def homeInAccounts? (user : String) (table : String) : Option Path :=
  ((Text.splitString '\n' table).map (Text.splitString ':')).findSome? fun
    | [_, _, number, _, _, home, _] => if number = user then some (Path.ofText home) else none
    | _ => none

/-- The number of the user who runs this process, as the system shows it. -/
def userNumber? (status : String) : Option String :=
  (Text.splitString '\n' status).findSome? fun line =>
    match Text.splitString '\t' line with
    | "Uid:" :: number :: _ => some number
    | _ => none

/-- The home directory that the system knows of the user. -/
def accountHome : IO (Option Path) := do
  try
    let status ← IO.FS.readFile "/proc/self/status"
    let table ← IO.FS.readFile "/etc/passwd"
    return (userNumber? status).bind (homeInAccounts? · table)
  catch _ => return none

def readEnvironment : IO Cli.Environment := do
  let bindings ← variableNames.filterMapM fun name =>
    return (← IO.getEnv name).map fun value => (name, Octets.ofText value)
  return ⟨bindings, ← accountHome⟩

def writePlace (before : World) (loc : Location) (node : Node) : IO Unit := do
  let place := Octets.toText (World.textOf loc)
  match before.node? loc, node with
  | some (.dir _), .dir _ => pure ()
  | _, .dir _ => IO.FS.createDirAll place
  | some (.file old ..), .file new .. => if old != new then IO.FS.writeBinFile place new
  | _, .file new .. => IO.FS.writeBinFile place new
  | _, .link _ | _, .device _ => pure ()

def namedConfig (args : List String) : Option String :=
  match Cli.readArguments args with
  | .ok arguments => arguments.settings.config
  | .error _ => none

def readWorld (env : Cli.Environment) (args : List String) : IO World := do
  let cwd ← IO.currentDir
  let place := World.locationOf (Octets.ofText cwd.toString)
  let start := { Programs.install ⟨[], [], 0⟩ with cwd := place }
  let project ← projectPlace start.cwdPath
  let w ← (project :: otherPlaces env (namedConfig args)).foldlM readPlace start
  return { w with clock := (w.nodes.map (·.2.modified)).foldl max 0 + 1 }

end ClojureBuild.Main

open ClojureBuild in
/-- Runs the program on the real tree. -/
def main (args : List String) : IO UInt32 := do
  let env ← Main.readEnvironment
  let before ← Main.readWorld env args
  let outcome := Cli.run (toString (← IO.monoMsNow)) env args before
  for (loc, node) in outcome.world.nodes do
    Main.writePlace before loc node
  IO.print outcome.out
  IO.eprint outcome.err
  return UInt32.ofNat outcome.code
