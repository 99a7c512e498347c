import ClojureBuild.Survey
/-!
Mirroring: every source that is not compiled is copied to the same relative place below the target,
so that it can be loaded from there.  Hidden directories are searched too.  Two sources for one
place are a duplicate, which ends the mirroring.  The copies are registered in a graph.
-/

namespace ClojureBuild

/-- A source to copy: its unit and its place below the target. -/
structure MirrorCopy where
  unit : UnitId
  source : Path
  target : Path
deriving DecidableEq, Repr, Inhabited

/-- The copy that a file below a root asks for, unless its unit is compiled. -/
def MirrorCopy.ofFile? (done : List UnitId) (target root file : Path) : Option MirrorCopy := do
  let unit ← unitOf root file
  if done.contains unit then none
  else
    let relative ← Path.below? root file
    return ⟨unit, file, target.join relative⟩

/-- One step of the mirroring: a copy, or anything else that the walk tells. -/
inductive MirrorStep where
  | copy (copy : MirrorCopy)
  | aside (sighting : Sighting)
deriving DecidableEq, Repr

namespace MirrorStep

/-- What the mirror does about a sighting: a file is copied unless its unit is done. -/
def ofSighting (done : List UnitId) (target root : Path) : Sighting → Option MirrorStep
  | .file p => (MirrorCopy.ofFile? done target root p).map .copy
  | s => some (.aside s)

def copy? : MirrorStep → Option MirrorCopy
  | .copy c => some c
  | .aside _ => none

def event? : MirrorStep → Option Event
  | .copy c =>
      some (.log .mirror .debug "registering copy rule"
        [("unit", c.unit.text), ("output", c.target.display)])
  | .aside s => s.event?

end MirrorStep

/-- The steps up to the first duplicate, and that duplicate. -/
structure Mirror where
  steps : List MirrorStep
  duplicate : Option UnitId
deriving DecidableEq, Repr

namespace Mirror

def allSteps (w : World) (done : List UnitId) (target : Path) (roots : List Path) :
    List MirrorStep :=
  roots.flatMap fun root => (w.walk true root).filterMap (MirrorStep.ofSighting done target root)

/-- Takes steps until one copies to a place that is already claimed. -/
def takeSteps (claimed : List Path) : List MirrorStep → Mirror
  | [] => ⟨[], none⟩
  | .aside s :: rest =>
      let others := takeSteps claimed rest
      { others with steps := .aside s :: others.steps }
  | .copy c :: rest =>
      if claimed.any (·.same c.target) then ⟨[], some c.unit⟩
      else
        let others := takeSteps (c.target :: claimed) rest
        { others with steps := .copy c :: others.steps }

/-- The mirroring of the sources below the roots that are not compiled. -/
def ofRoots (w : World) (done : List UnitId) (target : Path) (roots : List Path) : Mirror :=
  takeSteps [] (allSteps w done target roots)

def copies (m : Mirror) : List MirrorCopy := m.steps.filterMap MirrorStep.copy?

/-- The rules that copy the mirrored sources. -/
def rules (m : Mirror) : List Rules.Rule :=
  m.copies.map fun c => ⟨c.target, c.source, .copy⟩

def events (m : Mirror) : List Event := m.steps.filterMap MirrorStep.event?

/-- How many sources are mirrored, unless there was a duplicate. -/
def result (m : Mirror) : Except BuildError Nat :=
  match m.duplicate with
  | some unit => .error (.duplicateNamespace unit)
  | none => .ok m.copies.length

end Mirror

/-- Registers copies in order and behind the rules of a graph, and gives how many places are then
claimed.  A copy to a place that is claimed already ends this; the rules of those in front stay. -/
def claimCopies {ε : Type} (claimed : List Path) :
    List MirrorCopy → Rules.Graph ε → Except BuildError Nat × Rules.Graph ε
  | [], g => (.ok claimed.length, g)
  | c :: rest, g =>
      if claimed.any (·.same c.target) then (.error (.duplicateNamespace c.unit), g)
      else claimCopies (c.target :: claimed) rest (g.copy c.source c.target)

/-- Registers a copy for every file below the roots that asks for one, root by root. -/
def registerCopies {ε : Type} (w : World) (roots : List Path) (done : List UnitId) (target : Path)
    (g : Rules.Graph ε) : Except BuildError Nat × Rules.Graph ε :=
  claimCopies []
    (roots.flatMap fun root =>
      (w.filesUnder true root).filterMap (MirrorCopy.ofFile? done target root)) g

end ClojureBuild
