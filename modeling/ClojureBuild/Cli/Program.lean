import ClojureBuild.Cli.Init
import ClojureBuild.Cli.Logging
import ClojureBuild.Cli.Test
/-!
A whole run of the program: from arguments, environment and world to an exit code, two outputs and
the world that is left.
-/

namespace ClojureBuild.Cli

def versionText : String := "kiln 0.1.0\n"

def helpText : String := "Usage: kiln [OPTIONS] <COMMAND>\n"

/-- How a run ends. -/
structure Outcome where
  code : Nat
  out : String
  err : String
  world : World

def perform (env : Environment) (runner : Runner) (arguments : Arguments) : Work Nat :=
  match arguments.action with
  | .init name => Init.run arguments.settings name
  | .build libs force format => Build.run env runner arguments.settings libs force format
  | .test name filter => Test.run env runner arguments.settings name filter

/-- The exit code of what was carried out, and what is said about an error. -/
def conclude : Except CommandError Nat → Nat × List Event
  | .ok code => (code, [])
  | .error e => (1, [.said ("error: " ++ e.message ++ "\n")])

/-- Runs the program with a runner of its own choice.  Log lines begin with the stamp. -/
def runWith (runner : Runner) (stamp : String) (env : Environment) (args : List String)
    (w : World) : Outcome :=
  match readArguments args with
  | .error .version => ⟨0, versionText, "", w⟩
  | .error .help => ⟨0, helpText, "", w⟩
  | .error (.usage e) => ⟨2, "", "error: " ++ e.message ++ "\n", w⟩
  | .ok arguments =>
      let (result, s) := (perform env runner arguments).runIn ⟨w, logComplaints env.bindings⟩
      let (code, last) := conclude result
      let journal := s.journal ++ last
      let filter := logFilter arguments.settings env.bindings
      ⟨code, shownOut journal, shownErr stamp filter journal, s.world⟩

def run (stamp : String) (env : Environment) (args : List String) (w : World) : Outcome :=
  runWith (Launch.runner env.bindings) stamp env args w

end ClojureBuild.Cli
