import ClojureBuild.Namespaces
/-!
The languages that go along with Clojure in a mixed project, and the files of each among the
sources.
-/

namespace ClojureBuild

/-- A language with a compiler of its own. -/
inductive Language where
  | scala
  | groovy
  | java
deriving DecidableEq, Repr, Inhabited

namespace Language

/-- The order in which languages are looked for; the first one present wins. -/
def priority : List Language := [.scala, .groovy, .java]

/-- The extension of the language's source files. -/
def extension : Language → String
  | .scala => "scala"
  | .groovy => "groovy"
  | .java => "java"

def name : Language → String
  | .scala => "Scala"
  | .groovy => "Groovy"
  | .java => "Java"

end Language

/-- What a source entry contributes to a scan: files, and what the search tells. -/
structure Scan where
  files : List Path
  events : List Event
deriving DecidableEq, Repr

namespace Scan

/-- Paths in ascending order, each place once. -/
def sorted (paths : List Path) : List Path := distinctBy Path.before paths

/-- The scan of one source entry: a directory is searched for an extension, and a single file counts
when `listed` says so. -/
def ofSource (w : World) (ext : String) (listed : Path → Bool) (source : Path) : Scan :=
  if w.isDir source then
    let met := w.walk false source
    { files := (met.filterMap Sighting.file?).filter (hasExtension ext)
      events := met.filterMap Sighting.event? }
  else if w.isFile source && listed source then ⟨[source], []⟩
  else ⟨[], []⟩

/-- The scan of all source entries: absolute paths, ascending, each place once. -/
def ofSources (w : World) (ext : String) (listed : Path → Bool) (sources : List Path) : Scan :=
  let scans := sources.map (ofSource w ext listed)
  { files := sorted ((scans.flatMap (·.files)).filterMap (Path.absolute? w.cwdPath))
    events := scans.flatMap (·.events) }

end Scan

/-- The files of a language among the sources.  A single file counts when it has the extension, and
an entry that does not exist contributes nothing. -/
def languageFiles (w : World) (ext : String) (sources : List Path) : Scan :=
  Scan.ofSources w ext (hasExtension ext) sources

/-- The files that make a language present.  A directory is searched for the extension, but a single
file counts whatever its extension is. -/
def languageEvidence (w : World) (ext : String) (sources : List Path) : Scan :=
  Scan.ofSources w ext (fun _ => true) sources

/-- Whether files of a language are below the sources. -/
def hasLanguage (w : World) (ext : String) (sources : List Path) : Bool :=
  !(languageEvidence w ext sources).files.isEmpty

/-- Which compiler a set of sources needs beside that of Clojure. -/
inductive MixedMode where
  | clojureOnly
  | withScala
  | withGroovy
  | withJava
deriving DecidableEq, Repr, Inhabited

namespace MixedMode

def ofLanguage : Language → MixedMode
  | .scala => .withScala
  | .groovy => .withGroovy
  | .java => .withJava

def language? : MixedMode → Option Language
  | .clojureOnly => none
  | .withScala => some .scala
  | .withGroovy => some .groovy
  | .withJava => some .java

def tag : MixedMode → String
  | .clojureOnly => "clojure_only"
  | .withScala => "with_scala"
  | .withGroovy => "with_groovy"
  | .withJava => "with_java"

def display (mode : MixedMode) : String :=
  match mode.language? with
  | none => "Clojure"
  | some .java => "Clojure/Java"
  | some language => "Clojure/" ++ language.name ++ "/Java"

/-- The mode for the first language of a list that is present. -/
def detectAmong (w : World) (sources : List Path) : List Language → MixedMode
  | [] => .clojureOnly
  | language :: rest =>
      if hasLanguage w language.extension sources then ofLanguage language
      else detectAmong w sources rest

def detect (w : World) (sources : List Path) : MixedMode :=
  detectAmong w sources Language.priority

/-- What the scans that `detectAmong` makes tell. -/
def detectEvents (w : World) (sources : List Path) : List Language → List Event
  | [] => []
  | language :: rest =>
      let scan := languageEvidence w language.extension sources
      if scan.files.isEmpty then scan.events ++ detectEvents w sources rest else scan.events

end MixedMode

end ClojureBuild
