import ClojureBuild.Language
import ClojureBuild.Toolchain
/-!
Delegates: the compilers of the other languages.  Each runs once over all of its files and writes
into the same target as the Clojure compiler.
-/

namespace ClojureBuild

namespace JavacOptions

def flags (o : JavacOptions) : List String :=
  (if o.debug then ["-g"] else []) ++
    (match o.source with | some s => ["-source", s] | none => []) ++
    (match o.target with | some t => ["-target", t] | none => []) ++
    (match o.lint with | some l => ["-Xlint:" ++ l] | none => []) ++ o.other

end JavacOptions

namespace ScalacOptions

def flags (o : ScalacOptions) : List String :=
  [if o.debug then "-g:vars" else "-g:none"] ++
    (if o.deprecation then ["-deprecation"] else []) ++
    (if o.optimise then ["-optimise"] else []) ++
    (match o.target with | some t => ["-target:" ++ t] | none => []) ++ o.other

end ScalacOptions

namespace GroovycOptions

def flags (o : GroovycOptions) : List String :=
  ["-j"] ++
    (match o.encoding with | some e => ["--encoding", e] | none => []) ++
    (if o.stacktrace then ["-e"] else []) ++ o.other

end GroovycOptions

/-- What a delegate compiles: the source entries, the target, and the classpath without it. -/
structure CompileJob where
  sources : List Path
  target : Path
  classpath : List Path
deriving DecidableEq, Repr, Inhabited

namespace Delegate

def invocation (program : Path) (flags : List String) (job : CompileJob) (files : List Path) :
    Invocation :=
  ⟨program, flags.map Octets.ofText ++
    ["-classpath", Classpath.render job.classpath job.target, "-d", job.target.text] ++
    files.map (·.text)⟩

def scan (language : Language) (sources : List Path) : Task BuildError (List Path) := do
  let found ← Task.look (fun w => languageFiles w language.extension sources)
  Task.note found.events
  return found.files

/-- Makes the target and runs a compiler over files; without files nothing happens. -/
def runOver (run : Runner) (program : Path) (flags : List String) (job : CompileJob)
    (needed files : List Path) : Task BuildError Unit := do
  if needed.isEmpty then return
  Task.change (·.makeDirs job.target) (BuildError.io job.target)
  Task.note [Classpath.rendered (Classpath.render job.classpath job.target)]
  let invocation := invocation program flags job files
  Task.log .delegate .trace "secondary compile" [("command", invocation.display)]
  run invocation

def javac (t : Toolchain) (o : CompileOptions) (run : Runner) (job : CompileJob) :
    Task BuildError Unit := do
  let files ← scan .java job.sources
  runOver run t.javac o.javac.flags job files files

/-- Compiles the Scala files, which may refer to the Java files, and then the Java files. -/
def scalac (t : Toolchain) (o : CompileOptions) (run : Runner) (job : CompileJob) :
    Task BuildError Unit := do
  let scala ← scan .scala job.sources
  let java ← scan .java job.sources
  runOver run t.scalac o.scalac.flags job scala (scala ++ java)
  if java.isEmpty then return
  Task.log .delegate .debug "compiling Java sources of mixed Scala tree"
    [("files", toString java.length)]
  javac t o run job

/-- Compiles the Groovy and Java files together. -/
def groovyc (t : Toolchain) (o : CompileOptions) (run : Runner) (job : CompileJob) :
    Task BuildError Unit := do
  let groovy ← scan .groovy job.sources
  let java ← scan .java job.sources
  let files := Scan.sorted (groovy ++ java)
  runOver run t.groovyc o.groovyc.flags job files files

/-- Compiles the files of a language and of those that go with it. -/
def compile (t : Toolchain) (o : CompileOptions) (run : Runner) (language : Language)
    (job : CompileJob) : Task BuildError Unit :=
  match language with
  | .scala => scalac t o run job
  | .groovy => groovyc t o run job
  | .java => javac t o run job

/-- Decides which delegate the sources need now, and runs it. -/
def dispatch (t : Toolchain) (o : CompileOptions) (run : Runner) (job : CompileJob) :
    Task BuildError MixedMode := do
  let mode ← Task.look (MixedMode.detect · job.sources)
  let events ← Task.look (MixedMode.detectEvents · job.sources Language.priority)
  Task.note events
  match mode.language? with
  | none => return mode
  | some language =>
      Task.log .mixed .info ("compiling mixed " ++ mode.display ++ " sources") []
      compile t o run language job
      return mode

end Delegate

end ClojureBuild
