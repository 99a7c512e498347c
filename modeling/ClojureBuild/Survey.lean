import ClojureBuild.BuildError
import ClojureBuild.Namespaces
import ClojureBuild.Rules.Graph
/-!
Locating the requested units.  A unit belongs to the one root that holds its source file; below two
roots it is a duplicate, which ends the survey.  A unit without a source is passed over.  The rules
of the units that were found are registered in a graph.
-/

namespace ClojureBuild

/-- A requested unit, the root that holds it and its source file. -/
structure LocatedUnit where
  id : UnitId
  root : Path
  source : Path
deriving DecidableEq, Repr, Inhabited

/-- The roots that hold a source file of a unit. -/
def holders (w : World) (unit : UnitId) (roots : List Path) : List Path :=
  roots.filter (fun root => w.isFile (unit.sourceFile root))

/-- Finds the root of a unit; two are an error. -/
def locate (w : World) (roots : List Path) (unit : UnitId) :
    Except BuildError (Option LocatedUnit) :=
  match holders w unit roots with
  | [] => .ok none
  | [root] => .ok (some ⟨unit, root, unit.sourceFile root⟩)
  | _ => .error (.duplicateNamespace unit)

/-- The units looked for up to the first duplicate, with what was found, and that duplicate. -/
structure Survey where
  entries : List (UnitId × Option LocatedUnit)
  failure : Option BuildError
deriving DecidableEq, Repr

namespace Survey

def ofUnits (w : World) (roots : List Path) : List UnitId → Survey
  | [] => ⟨[], none⟩
  | unit :: rest =>
      match locate w roots unit with
      | .error e => ⟨[], some e⟩
      | .ok found =>
          let others := ofUnits w roots rest
          { others with entries := (unit, found) :: others.entries }

def located (s : Survey) : List LocatedUnit := s.entries.filterMap (·.2)

/-- The rule for a unit: its compiled loader depends on its source, and the compiler makes it. -/
def ruleFor (target : Path) (action : Nat) (u : LocatedUnit) : Rules.Rule :=
  ⟨u.id.initArtifact target, u.source, .invoke action⟩

/-- The rules that compile the located units. -/
def rules (s : Survey) (target : Path) (action : Nat) : List Rules.Rule :=
  s.located.map (ruleFor target action)

/-- What is noted about each unit. -/
def events (s : Survey) (target : Path) : List Event :=
  s.entries.map fun (unit, found) =>
    match found with
    | none =>
        .log .survey .warn "no source file found in any source root, skipping" [("unit", unit.text)]
    | some _ =>
        .log .survey .debug "registering compile rule"
          [("unit", unit.text), ("output", (unit.initArtifact target).display)]

/-- The located units, unless there was a duplicate. -/
def result (s : Survey) : Except BuildError (List LocatedUnit) :=
  match s.failure with
  | some e => .error e
  | none => .ok s.located

end Survey

/-- Registers a rule for each unit that is found, in order and behind the rules of a graph, and
gives what was found.  The first duplicate ends this; the rules of the units in front of it stay. -/
def register {ε : Type} (w : World) (roots : List Path) (target : Path) (action : Nat) :
    List UnitId → Rules.Graph ε → Except BuildError (List LocatedUnit) × Rules.Graph ε
  | [], g => (.ok [], g)
  | unit :: rest, g =>
      match locate w roots unit with
      | .error e => (.error e, g)
      | .ok none => register w roots target action rest g
      | .ok (some found) =>
          let (result, g) := register w roots target action rest
            (g.depend (unit.initArtifact target) found.source action)
          (result.map (found :: ·), g)

end ClojureBuild
