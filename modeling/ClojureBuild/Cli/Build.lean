import ClojureBuild.Cli.Project
/-!
`build`: compiles the project and says what was done.
-/

namespace ClojureBuild.Cli.Build

/-- The configured options; units that are named on the command line replace the configured ones. -/
def chooseOptions (configured : CompileOptions) (libs : List UnitId) : CompileOptions :=
  if libs.isEmpty then configured else { configured with libs := some libs }

def summaryLines (s : CompileSummary) (verbose : Bool) : List String :=
  let r := s.report
  let done :=
    if r.isNoop then "  Up to date (" ++ toString r.fresh.length ++ " target(s))"
    else "    Compiled " ++ toString r.rebuilt.length ++ " unit(s), copied " ++
      toString r.copied.length ++ " source(s), " ++ toString r.fresh.length ++ " up to date"
  let missing := s.libs.length - s.located.length
  [done] ++
    (if 0 < missing then
      ["warning: " ++ toString missing ++ " namespace(s) had no source file"] else []) ++
    (if s.mixed ≠ .clojureOnly then ["       Mixed " ++ s.mixed.display ++ " sources"] else []) ++
    (if verbose then (r.rebuilt ++ r.copied).map fun p => "       Wrote " ++ p.display else [])

def sayAll (lines : List String) : Work Unit :=
  Task.note (lines.map fun line => .said (line ++ "\n"))

def run (env : Environment) (runner : Runner) (settings : Settings) (libs : List UnitId)
    (force : Bool) (format : Format) : Work Nat := do
  let w ← Task.look id
  let project ← Task.ofExcept (Project.load w env settings)
  let about := project.config.project
  sayUnless settings.quiet ("   Compiling " ++ about.name ++ " v" ++ about.version)
  let options := chooseOptions project.config.cljc libs
  let repository ← Task.ofExcept ((project.repository env).mapError CommandError.build)
  let summary ← project.compile (project.toolchain repository) runner options force
  match format with
  | .json =>
      if summary.paths.all Path.isText then
        Task.note [.shown (summary.toJson.pretty 0 ++ "\n")]
      else Task.ofExcept (.error .notText)
  | .text =>
      if !settings.quiet then
        sayAll (summaryLines summary settings.verbose)
        say ("    Finished " ++ project.layout.target.display)
  return 0

end ClojureBuild.Cli.Build
