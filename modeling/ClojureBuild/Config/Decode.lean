import ClojureBuild.Config.Mismatch
import ClojureBuild.Config.Types
/-!
Decoding a document into a configuration.

Each kind of table is described by a *record*: its fields, with what reads each, and what it is
before any field is read.  A record is decoded from a table, key by key in ascending order, or from
an array, field by field in the order of the description.  The first fault wins.
-/

namespace ClojureBuild.Config

open Toml (Value)

/-- What reads a value. -/
abbrev Decoder (α : Type) := Value → Except Mismatch α

def fault {α : Type} (f : Fault) : Except Mismatch α := .error ⟨f, []⟩

/-- Fails because a value has another type than expected. -/
def wrongType {α : Type} (v : Value) (expected : String) : Except Mismatch α :=
  fault (.wrongType (.ofValue v) expected)

def text : Decoder String
  | .text s => .ok s
  | .datetime s => .ok s
  | v => wrongType v "a string"

def flag : Decoder Bool
  | .boolean b => .ok b
  | v => wrongType v "a boolean"

/-- Every item of a list, the first fault winning. -/
def each {α : Type} (item : Decoder α) : List Value → Except Mismatch (List α)
  | [] => .ok []
  | v :: rest => do
      let a ← item v
      let others ← each item rest
      return a :: others

def list {α : Type} (item : Decoder α) : Decoder (List α)
  | .array items => each item items
  | v => wrongType v "a sequence"

def unit : Decoder UnitId := fun v => do
  let s ← text v
  match UnitId.parse s with
  | .ok u => return u
  | .error e => fault (.badUnit e)

def textOrList : Decoder (List String)
  | .text s => .ok [s]
  | .datetime s => .ok [s]
  | .array items => each text items
  | v => wrongType v "a string or a list of strings"

/-- A field of a record. -/
structure Field (σ : Type) where
  name : String
  required : Bool
  /-- An array may end before the field. -/
  mayEnd : Bool
  /-- Reads the field's value into the record. -/
  read : Value → σ → Except Mismatch σ

/-- A kind of table. -/
structure Record (σ : Type) where
  name : String
  fields : List (Field σ)
  /-- Keys that no field has are faults. -/
  closed : Bool
  /-- The record before any field is read. -/
  blank : σ

namespace Record

variable {σ : Type}

/-- A field that a record may lack; an array may end before it if `mayEnd`. -/
def optional {α : Type} (name : String) (mayEnd : Bool) (decoder : Decoder α)
    (put : α → σ → σ) : Field σ :=
  ⟨name, false, mayEnd, fun v s => do
    let a ← decoder v
    return put a s⟩

def field? (r : Record σ) (name : String) : Option (Field σ) :=
  r.fields.find? (·.name == name)

def readKeys (r : Record σ) : List (String × Value) → σ → Except Mismatch σ
  | [], s => .ok s
  | (k, v) :: rest, s =>
      match r.field? k with
      | some f => do
          let s ← (f.read v s).mapError (Mismatch.under k)
          readKeys r rest s
      | none =>
          if r.closed then fault (.unknownField k (r.fields.map (·.name)))
          else readKeys r rest s

/-- What a record expects of an array's length. -/
def elementsText (r : Record σ) : String :=
  let n := r.fields.length
  "struct " ++ r.name ++ " with " ++ toString n ++ (if n = 1 then " element" else " elements")

/-- Reads the items of an array, field by field; what is left over. -/
def readItems (r : Record σ) : Nat → List (Field σ) → List Value → σ →
    Except Mismatch (σ × List Value)
  | _, [], items, s => .ok (s, items)
  | n, f :: fields, [], s =>
      if f.mayEnd then readItems r (n + 1) fields [] s
      else fault (.wrongLength n r.elementsText)
  | n, f :: fields, v :: items, s => do
      let s ← f.read v s
      readItems r (n + 1) fields items s

def decode (r : Record σ) : Decoder σ
  | .table entries => do
      let s ← r.readKeys entries r.blank
      match r.fields.find? (fun f => f.required && (Toml.entry? f.name entries).isNone) with
      | some f => fault (.missingField f.name)
      | none => return s
  | .array items => do
      let (s, rest) ← r.readItems 0 r.fields items r.blank
      if rest.isEmpty then return s
      else fault (.wrongLength items.length "fewer elements in array")
  | v => wrongType v ("struct " ++ r.name)

end Record

open Record (optional)

def projectMeta : Record ProjectMeta where
  name := "ProjectMeta"
  closed := false
  blank := .blank
  fields := [
    { name := "name", required := true, mayEnd := false,
      read := fun v s => return { s with name := ← text v } },
    optional "version" true text fun a s => { s with version := a },
    optional "description" true text fun a s => { s with description := a },
    optional "sources" true (list text) fun a s => { s with sources := some a },
    optional "target" true text fun a s => { s with target := some a },
    optional "dependencies" true (list text) fun a s => { s with dependencies := a }]

def runtimeSettings : Record (List String) where
  name := "ClojureConfig"
  closed := false
  blank := defaultRuntime
  fields := [optional "spec" true textOrList fun a _ => a]

def toolSettings : Record ToolSettings where
  name := "ToolchainConfig"
  closed := true
  blank := .blank
  fields := [
    optional "java" false text fun a s => { s with java := some a },
    optional "javac" false text fun a s => { s with javac := some a },
    optional "scalac" false text fun a s => { s with scalac := some a },
    optional "groovyc" false text fun a s => { s with groovyc := some a },
    optional "repository" false text fun a s => { s with repository := some a }]

def javacOptions : Record JavacOptions where
  name := "JavacOptions"
  closed := true
  blank := .default
  fields := [
    optional "source" false text fun a s => { s with source := some a },
    optional "target" false text fun a s => { s with target := some a },
    optional "debug" true flag fun a s => { s with debug := a },
    optional "lint" false text fun a s => { s with lint := some a },
    optional "other" true (list text) fun a s => { s with other := a }]

/-- The record of the Scala compiler's options. -/
def scalacOptions : Record ScalacOptions where
  name := "ScalacOptions"
  closed := true
  blank := .default
  fields := [
    optional "target" false text fun a s => { s with target := some a },
    optional "debug" true flag fun a s => { s with debug := a },
    optional "deprecation" true flag fun a s => { s with deprecation := a },
    optional "optimise" true flag fun a s => { s with optimise := a },
    optional "other" true (list text) fun a s => { s with other := a }]

/-- The record of the Groovy compiler's options. -/
def groovycOptions : Record GroovycOptions where
  name := "GroovycOptions"
  closed := true
  blank := .default
  fields := [
    optional "encoding" false text fun a s => { s with encoding := some a },
    optional "stacktrace" true flag fun a s => { s with stacktrace := a },
    optional "other" true (list text) fun a s => { s with other := a }]

def compileOptions : Record CompileOptions where
  name := "CompileOptions"
  closed := false
  blank := .default
  fields := [
    optional "libs" true (list unit) fun a s => { s with libs := some a },
    optional "javac" true javacOptions.decode fun a s => { s with javac := a },
    optional "scalac" true scalacOptions.decode fun a s => { s with scalac := a },
    optional "groovyc" true groovycOptions.decode fun a s => { s with groovyc := a }]

def testSettings : Record TestSettings where
  name := "TestConfig"
  closed := true
  blank := .blank
  fields := [
    optional "sources" false text fun a s => { s with sources := some a },
    optional "include" true (list unit) fun a s => { s with added := a },
    optional "exclude" true (list unit) fun a s => { s with excluded := a }]

def projectConfig : Record ProjectConfig where
  name := "ProjectConfig"
  closed := false
  blank := .blank
  fields := [
    { name := "project", required := true, mayEnd := false,
      read := fun v s => return { s with project := ← projectMeta.decode v } },
    optional "clojure" true runtimeSettings.decode fun a s => { s with runtime := a },
    optional "toolchain" true toolSettings.decode fun a s => { s with toolchain := a },
    optional "cljc" true compileOptions.decode fun a s => { s with cljc := a },
    optional "test" true testSettings.decode fun a s => { s with test := a }]

end ClojureBuild.Config
