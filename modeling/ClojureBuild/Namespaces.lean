import ClojureBuild.Session
import ClojureBuild.UnitId
import ClojureBuild.World.Walk
/-!
Finding units: which source entries are roots, and which units a root holds.
-/

namespace ClojureBuild

/-- The log line for what a walk meets, other than files. -/
def Sighting.event? (s : Sighting) : Option Event :=
  match s with
  | .begun cwd => some (.log .entries .trace ("automatically discovered CWD: " ++ cwd.display) [])
  | .hidden p =>
      some (.log .entries .debug ("ignoring " ++ p.display ++ ": Ignore(IgnoreMatch(Hidden))") [])
  | _ => s.complaint?.map fun text => .log .walk .warn "skipping unreadable entry" [("err", text)]

/-- The source entries that are directories.  Others are single files and are not searched. -/
def sourceRoots (w : World) (sources : List Path) : List Path :=
  sources.filter w.isDir

def hasExtension (ext : String) (p : Path) : Bool :=
  p.extension? == some ext

/-- The unit of a source file below a root.  A name that is no text names no unit. -/
def unitOf (root file : Path) : Option UnitId :=
  if hasExtension UnitId.sourceExtension file then do
    let relative ← Path.below? root file
    let names ← (relative.dropExtension.components.map Path.Component.text).mapM Octets.text?
    if names.isEmpty then none
    else return UnitId.ofPath (Text.joinStrings '/' names)
  else none

/-- What a search for units meets. -/
inductive Discovery where
  | unit (unit : UnitId)
  /-- A source file from which no unit can be named. -/
  | nameless (file : Path)
  /-- Anything else that the walk tells. -/
  | aside (sighting : Sighting)
deriving DecidableEq, Repr

namespace Discovery

/-- What is found about a sighting; files of other kinds are passed over. -/
def ofSighting (root : Path) : Sighting → Option Discovery
  | .file p =>
      if hasExtension UnitId.sourceExtension p then
        match unitOf root p with
        | some u => some (.unit u)
        | none => some (.nameless p)
      else none
  | s => some (.aside s)

def unit? : Discovery → Option UnitId
  | .unit u => some u
  | _ => none

def event? : Discovery → Option Event
  | .unit _ => none
  | .nameless p =>
      some (.log .namespaces .warn "cannot derive a unit name, skipping" [("file", p.display)])
  | .aside s => s.event?

end Discovery

/-- Everything that a search below a root meets. -/
def explore (w : World) (root : Path) : List Discovery :=
  (w.walk false root).filterMap (Discovery.ofSighting root)

/-- The units below a root, in the order of the walk. -/
def discover (w : World) (root : Path) : List UnitId :=
  (explore w root).filterMap Discovery.unit?

def discoverAll (w : World) (roots : List Path) : List UnitId :=
  roots.flatMap (discover w)

/-- What a search below every root tells. -/
def discoverEvents (w : World) (roots : List Path) : List Event :=
  roots.flatMap fun root => (explore w root).filterMap Discovery.event?

end ClojureBuild
