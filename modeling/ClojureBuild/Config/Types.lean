import ClojureBuild.UnitId
/-!
The configuration of a project, as its file describes it.
-/

namespace ClojureBuild

/-- What a project is. -/
structure ProjectMeta where
  name : String
  version : String
  description : String
  /-- Source entries; without any, default directories are used. -/
  sources : Option (List String)
  target : Option String
  dependencies : List String
deriving DecidableEq, Repr, Inhabited

/-- The locations of the external tools, where they are configured. -/
structure ToolSettings where
  java : Option String
  javac : Option String
  scalac : Option String
  groovyc : Option String
  repository : Option String
deriving DecidableEq, Repr, Inhabited

/-- The options of the Java compiler. -/
structure JavacOptions where
  source : Option String
  target : Option String
  debug : Bool
  lint : Option String
  other : List String
deriving DecidableEq, Repr, Inhabited

/-- The options of the Scala compiler. -/
structure ScalacOptions where
  target : Option String
  debug : Bool
  deprecation : Bool
  optimise : Bool
  other : List String
deriving DecidableEq, Repr, Inhabited

/-- The options of the Groovy compiler. -/
structure GroovycOptions where
  encoding : Option String
  stacktrace : Bool
  other : List String
deriving DecidableEq, Repr, Inhabited

/-- What to compile and how. -/
structure CompileOptions where
  /-- The units to compile; without a list, all that are found. -/
  libs : Option (List UnitId)
  javac : JavacOptions
  scalac : ScalacOptions
  groovyc : GroovycOptions
deriving DecidableEq, Repr, Inhabited

/-- Where the tests are, and which suites to add or leave out. -/
structure TestSettings where
  sources : Option String
  added : List UnitId
  excluded : List UnitId
deriving DecidableEq, Repr, Inhabited

/-- The whole configuration. -/
structure ProjectConfig where
  project : ProjectMeta
  /-- The artifacts that hold the language's runtime. -/
  runtime : List String
  toolchain : ToolSettings
  cljc : CompileOptions
  test : TestSettings
deriving DecidableEq, Repr, Inhabited

/-! ## Defaults -/

def ProjectMeta.blank : ProjectMeta := ⟨"", "0.0.0", "", none, none, []⟩

def defaultRuntime : List String := ["org.clojure:clojure:jar:1.1.0"]

def ToolSettings.blank : ToolSettings := ⟨none, none, none, none, none⟩

def JavacOptions.default : JavacOptions := ⟨none, none, true, none, []⟩

def ScalacOptions.default : ScalacOptions := ⟨none, true, false, false, []⟩

def GroovycOptions.default : GroovycOptions := ⟨none, false, []⟩

def CompileOptions.default : CompileOptions := ⟨none, .default, .default, .default⟩

/-- The keys that the table of compile options may hold. -/
def CompileOptions.keys : List String := ["libs", "scalac", "groovyc", "javac"]

def TestSettings.blank : TestSettings := ⟨none, [], []⟩

def ProjectConfig.blank : ProjectConfig := ⟨.blank, defaultRuntime, .blank, .default, .blank⟩

end ClojureBuild
