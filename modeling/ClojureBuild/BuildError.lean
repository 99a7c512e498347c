import ClojureBuild.Config.Load
import ClojureBuild.Coordinate
import ClojureBuild.Rules.Freshness
/-!
Why a build fails.
-/

namespace ClojureBuild

/-- The causes of a failed build. -/
inductive BuildError where
  /-- A unit has sources below more than one root. -/
  | duplicateNamespace (unit : UnitId)
  | processFailed (program status : String)
  | spawn (program : String) (cause : OsError)
  | unresolvedArtifact (coordinate : Coordinate) (path : Path)
  /-- There is no repository, because there is no home directory. -/
  | noRepository
  | config (error : ConfigError)
  | io (path : Path) (cause : OsError)
  /-- The carrying out of rules failed for a reason of its own. -/
  | rules (failure : Rules.Failure String)
deriving DecidableEq, Repr

namespace BuildError

def message : BuildError → String
  | .duplicateNamespace unit =>
      "found duplicate namespace across multiple source dirs: " ++ unit.text
  | .processFailed program status =>
      "compilation failed: \x60" ++ program ++ "\x60 " ++ status ++ ", see errors above"
  | .spawn program cause => "failed to launch \x60" ++ program ++ "\x60: " ++ cause.message
  | .unresolvedArtifact coordinate path =>
      "cannot resolve artifact " ++ coordinate.render ++ ": " ++ path.display ++ " does not exist"
  | .noRepository => "no local artifact repository: home directory is unknown"
  | .config error => error.message
  | .io path cause => "I/O error at " ++ path.display ++ ": " ++ cause.message
  | .rules failure => failure.message id

/-- What made an action fail: an error of the build, or something known by its text. -/
inductive ActionCause where
  | build (error : BuildError)
  | foreign (text : String)
deriving DecidableEq, Repr

/-- The message about why an action failed. -/
def ActionCause.message : ActionCause → String
  | .build error => error.message
  | .foreign text => text

/-- The build error that a failed execution stands for.  An error of the build inside an action
comes out as it is; all else keeps the words of the execution. -/
def ofFailure : Rules.Failure ActionCause → BuildError
  | .io path cause => .rules (.io path cause)
  | .actionFailed _ (.build error) => error
  | .actionFailed label (.foreign text) => .rules (.actionFailed label text)

end BuildError

end ClojureBuild
