import ClojureBuild.Classpath
import ClojureBuild.Config.Layout
/-!
The tools of a build, and what runs them.
-/

namespace ClojureBuild

/-- What runs external programs. -/
abbrev Runner := Invocation → Task BuildError Unit

/-- External tools, the runtime that every classpath ends in, and the repository of artifacts. -/
structure Toolchain where
  java : Path
  javac : Path
  scalac : Path
  groovyc : Path
  runtime : List ClasspathEntry
  repository : Path
deriving DecidableEq, Repr, Inhabited

namespace Toolchain

def ofTools (tools : Tools) (runtime : List ClasspathEntry) (repository : Path) : Toolchain :=
  ⟨tools.java, tools.javac, tools.scalac, tools.groovyc, runtime, repository⟩

/-- The absolute paths of the entries, followed by those of the runtime. -/
def classpath (t : Toolchain) (w : World) (entries : List ClasspathEntry) :
    Except BuildError (List Path) :=
  Classpath.resolve w t.repository (entries ++ t.runtime)

end Toolchain

end ClojureBuild
