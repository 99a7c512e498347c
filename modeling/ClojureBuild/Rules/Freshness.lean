import ClojureBuild.World.Files
/-!
Staleness by time stamps.  A target is fresh when it exists and its source was not changed after
it.  Nothing is remembered between runs: the files are the only record.
-/

namespace ClojureBuild.Rules

/-- The state of a target against its source. -/
inductive Freshness where
  | missing
  | outdated
  | fresh
deriving DecidableEq, Repr, Inhabited

namespace Freshness

def name : Freshness → String
  | .missing => "Missing"
  | .outdated => "Outdated"
  | .fresh => "Fresh"

/-- Whether a target has to be made again. -/
def isStale (state : Freshness) : Bool := state != .fresh

end Freshness

/-- Why the rules of a graph could not all be carried out. -/
inductive Failure (ε : Type) where
  /-- A file of a rule could not be inspected or copied. -/
  | io (path : Path) (cause : OsError)
  | actionFailed (label : String) (cause : ε)
deriving DecidableEq, Repr

/-- The wording of a failure, given that of the actions' errors. -/
def Failure.message {ε : Type} (causeMessage : ε → String) : Failure ε → String
  | .io path cause => "I/O error at " ++ path.display ++ ": " ++ cause.message
  | .actionFailed label cause => label ++ ": " ++ causeMessage cause

/-- The state of a target.  A missing source is an error, and so is one that cannot be inspected;
a target that cannot be inspected counts as missing. -/
def Freshness.check {ε : Type} (w : World) (source target : Path) :
    Except (Failure ε) Freshness := do
  let sourceTime ← (w.modified source).mapError (Failure.io source)
  if !w.pathExists target then return .missing
  let targetTime ← (w.modified target).mapError (Failure.io target)
  return if targetTime < sourceTime then .outdated else .fresh

end ClojureBuild.Rules
