import ClojureBuild.Config.Decode
import ClojureBuild.Toml.Document
import ClojureBuild.World.Files
/-!
Loading a project's configuration: reading its file, decoding it, and checking what the tables alone
do not guarantee.
-/

namespace ClojureBuild

/-- Why a configuration cannot be used. -/
inductive ConfigError where
  /-- The file cannot be read. -/
  | unreadable (path : Path) (cause : OsError)
  | malformed
  | mismatch (why : Config.Mismatch)
  /-- The compile options hold a key that is none. -/
  | unknownOption (key : String)
  /-- A field that has to say something is empty. -/
  | missingField (name : String)
  | missingSource (path : Path)
  /-- A value cannot be used. -/
  | invalid (reason : String)
deriving DecidableEq, Repr

def ConfigError.message : ConfigError → String
  | .unreadable path cause => "cannot read " ++ path.display ++ ": " ++ cause.message
  | .malformed => "malformed configuration"
  | .mismatch why => "malformed configuration: " ++ why.message
  | .unknownOption key => "unrecognized compiler option '" ++ key ++ "'"
  | .missingField name => "missing required field: " ++ name
  | .missingSource path => "source path does not exist: " ++ path.display
  | .invalid reason => "invalid configuration: " ++ reason

namespace Config

def fileName : String := "kiln.toml"

/-- Refuses the first key that is no compile option. -/
def checkOptions (keys : List String) : Except ConfigError Unit :=
  match keys.find? (fun k => !CompileOptions.keys.contains k) with
  | some key => .error (.unknownOption key)
  | none => .ok ()

/-- Checks what a project needs: a name, a runtime, and a target that says something. -/
def validate (config : ProjectConfig) : Except ConfigError Unit :=
  if config.project.name.isEmpty then .error (.missingField "project.name")
  else if config.runtime.isEmpty then
    .error (.invalid "clojure.spec must name at least one runtime artifact")
  else if config.project.target.any (fun t => (Text.trimString t).isEmpty) then
    .error (.invalid "project.target must not be empty")
  else .ok ()

/-- The keys of the table of compile options, if there is such a table. -/
def optionKeys (entries : List (String × Toml.Value)) : List String :=
  match Toml.entry? "cljc" entries with
  | some (.table options) => options.map (·.1)
  | _ => []

/-- The configuration that a text spells.  The keys of the compile options are checked before
anything else is decoded. -/
def ofText (content : String) : Except ConfigError ProjectConfig := do
  match Toml.parse? content with
  | none => .error .malformed
  | some entries =>
      checkOptions (optionKeys entries)
      let config ← (projectConfig.decode (.table entries)).mapError ConfigError.mismatch
      validate config
      return config

def load (w : World) (dir : Path) : Except ConfigError ProjectConfig := do
  let file := dir / fileName
  let content ← (w.readText file).mapError (ConfigError.unreadable file)
  ofText content

end Config

end ClojureBuild
