import ClojureBuild.Session
import ClojureBuild.Cli.Arguments
import ClojureBuild.Cli.FieldPattern
import ClojureBuild.Text.Alphanumeric
import ClojureBuild.Process.Machine
/-!
Which log lines are shown, and how.

A filter is a list of directives.  Of those that fit a log line the most specific one decides, and
the line is shown when it is at least as important as that directive's level.
-/

namespace ClojureBuild.Cli

def areaName : LogArea → String
  | .classpath => "kiln_compile::classpath"
  | .compiler => "kiln_compile::compiler"
  | .mixed => "kiln_compile::dispatch"
  | .invocation => "kiln_compile::invoke"
  | .mirror => "kiln_compile::mirror"
  | .namespaces => "kiln_compile::namespace"
  | .process => "kiln_compile::process"
  | .delegate => "kiln_compile::secondary"
  | .suite => "kiln_compile::suite"
  | .survey => "kiln_compile::unit_graph"
  | .walk => "kiln_compile::walk"
  | .entries => "ignore::walk"
  | .rules => "kiln_engine::engine"

/-- The rank of a level: the greater, the more is shown. -/
def levelRank : LogLevel → Nat
  | .error => 1
  | .warn => 2
  | .info => 3
  | .debug => 4
  | .trace => 5

def levelName : LogLevel → String
  | .error => "ERROR"
  | .warn => "WARN"
  | .info => "INFO"
  | .debug => "DEBUG"
  | .trace => "TRACE"

/-- What is shown of the areas whose names begin with a text. -/
structure Directive where
  /-- The text; without one, every area fits. -/
  area : Option String
  fields : List String
  rank : Nat
deriving DecidableEq, Repr, Inhabited

namespace Directive

/-- Whether a directive fits an area and the names of a log line's fields. -/
def fits (d : Directive) (area : String) (names : List String) : Bool :=
  d.area.all (fun a => a.toList.isPrefixOf area.toList) && d.fields.all names.contains

/-- How specific a directive is: longer areas come before more fields. -/
def measure (d : Directive) : Nat × Nat :=
  ((d.area.map (·.utf8ByteSize + 1)).getD 0, d.fields.length)

/-- Whether one list of names is at most another in the order of dictionaries. -/
def namesLe : List String → List String → Bool
  | [], _ => true
  | _ :: _, [] => false
  | a :: as, b :: bs => if a = b then namesLe as bs else a < b

/-- Whether a directive gives way to another one that fits too.  Of two that are as specific the one
with greater names stays, and of two alike the second. -/
def givesWay (d e : Directive) : Bool :=
  let (a, n) := d.measure
  let (b, m) := e.measure
  if a ≠ b then a < b else if n ≠ m then n < m else namesLe d.fields e.fields

end Directive

/-- A filter: its directives. -/
abbrev LogFilter := List Directive

/-- The directive that decides about a log line of an area with the named fields. -/
def LogFilter.deciding? (filter : LogFilter) (area : LogArea) (names : List String) :
    Option Directive :=
  (filter.filter (·.fits (areaName area) names)).foldl
    (fun best d => if best.all (·.givesWay d) then some d else best) none

/-- The names of the fields that every line of an area has.  The message is a field as well; lines
about entries also tell where they come from. -/
def fieldNames : LogArea → List String
  | .entries => ["message", "log.target", "log.module_path", "log.file", "log.line"]
  | _ => ["message"]

/-- Whether a filter shows a level of an area, given the names of the line's own fields. -/
def LogFilter.shows (filter : LogFilter) (area : LogArea) (level : LogLevel)
    (names : List String) : Bool :=
  (filter.deciding? area (fieldNames area ++ names)).any (levelRank level ≤ ·.rank)

def lower (s : String) : String := String.ofList (s.toList.map Char.toLower)

/-- The rank that a word asks for in a setting; an unknown word asks for the usual one. -/
def rankOfSetting (word : String) : Nat :=
  match lower word with
  | "trace" => 5
  | "debug" => 4
  | "warn" | "warning" => 2
  | "error" => 1
  | "off" => 0
  | _ => 3

/-- The rank that a word or number asks for in a directive.  A number may have a plus sign and zeros
in front. -/
def rankOfDirective? (word : String) : Option Nat :=
  let digits := match word.toList with
    | '+' :: rest => rest
    | cs => cs
  if !digits.isEmpty && digits.all Char.isDigit then
    match digits.dropWhile (· == '0') with
    | [] => some 0
    | [c] => if c ≤ '5' then some (c.toNat - '0'.toNat) else none
    | _ => none
  else
    match lower word with
    | "trace" => some 5
    | "debug" => some 4
    | "info" => some 3
    | "warn" => some 2
    | "" | "error" => some 1
    | "off" => some 0
    | _ => none

/-- Why a directive cannot be read. -/
inductive DirectiveError where
  | malformed
  | badLevel
  /-- A field is asked to match a pattern that cannot be used. -/
  | badPattern (fault : PatternFault)
deriving DecidableEq, Repr

/-- The message about a directive that cannot be read. -/
def DirectiveError.message : DirectiveError → String
  | .malformed => "invalid filter directive"
  | .badPattern fault => "invalid field filter: " ++ fault.message
  | .badLevel =>
      "error parsing level filter: expected one of \"off\", \"error\", \"warn\", \"info\", " ++
        "\"debug\", \"trace\", or a number 0-5"

/-- A directive as it is written: an area, a span, fields with or without values, and a rank. -/
structure WrittenDirective where
  area : Option String
  span : Option String
  fields : List (String × Option String)
  rank : Nat
deriving DecidableEq, Repr, Inhabited

/-- Where the reading of a directive stands.  A number is the place of the byte at which a part
begins. -/
inductive DirectivePlace where
  | start
  /-- In an area, or in a level that stands alone. -/
  | first (begin : Nat)
  | span (begin : Nat)
  | field (begin : Nat)
  | behindFields
  | behindSpan
  | level (begin : Nat)
deriving DecidableEq, Repr

namespace WrittenDirective

/-- The bytes of a text from one place up to another. -/
def cut (text : String) (a b : Nat) : String :=
  (String.fromUTF8? (text.toUTF8.extract a b)).getD ""

/-- A field's name and the value it may be asked to have. -/
def fieldOf (text : String) : Except DirectiveError (String × Option String) :=
  let (name, value) := Text.breakAt '=' text.toList
  let value := value.map (·.takeWhile (· != '='))
  match value.bind FieldPattern.fault? with
  | some fault => .error (.badPattern fault)
  | none => .ok (String.ofList name, value.map String.ofList)

def step (text : String) (place : DirectivePlace) (d : WrittenDirective) (i : Nat) (c : Char) :
    Except DirectiveError (DirectivePlace × WrittenDirective) :=
  match place with
  | .start =>
      if c = '[' then .ok (.span (i + 1), d)
      else if c = '-' || c = ':' || c = '_' || Text.isAlphanumeric c then .ok (.first i, d)
      else .error .malformed
  | .first a =>
      if c = '=' then .ok (.level (i + 1), { d with area := some (cut text a i) })
      else if c = '[' then .ok (.span (i + 1), { d with area := some (cut text a i) })
      else .ok (place, d)
  | .span a =>
      if c = ']' then .ok (.behindSpan, { d with span := some (cut text a i) })
      else if c = Char.ofNat 0x7b then
        let name := cut text a i
        .ok (.field (i + 1), { d with span := if name.isEmpty then none else some name })
      else .ok (place, d)
  | .field a =>
      if c = Char.ofNat 0x7d then
        let name := cut text a i
        if name.isEmpty then .error .malformed
        else do
          let field ← fieldOf name
          return (.behindFields, { d with fields := d.fields ++ [field] })
      else .ok (place, d)
  | .behindFields => if c = ']' then .ok (.behindSpan, d) else .error .malformed
  | .behindSpan => if c = '=' then .ok (.level (i + 1), d) else .error .malformed
  | .level _ => .ok (place, d)

def steps (text : String) : List Char → Nat → DirectivePlace → WrittenDirective →
    Except DirectiveError (DirectivePlace × WrittenDirective)
  | [], _, place, d => .ok (place, d)
  | c :: rest, i, place, d => do
      let (place, d) ← step text place d i c
      steps text rest (i + c.utf8Size) place d

/-- Reads a directive.  Blanks around it do not count as characters, but they do when parts are cut
out. -/
def read (text : String) : Except DirectiveError WrittenDirective := do
  let (place, d) ← steps text (Text.trimString text).toList 0 .start ⟨none, none, [], 5⟩
  let rest (a : Nat) : String := cut text a text.utf8ByteSize
  match place with
  | .first a =>
      match rankOfDirective? (rest a) with
      | some rank => return { d with rank }
      | none => return { d with area := some (rest a) }
  | .level a =>
      if (rest a).isEmpty then return d
      else
        match rankOfDirective? (rest a) with
        | some rank => return { d with rank }
        | none => .error .badLevel
  | .behindSpan => return d
  | _ => .error .malformed

/-- What a directive says about log lines: nothing when it asks for a span or for a field's value,
because no line stands in a span. -/
def directive? (d : WrittenDirective) : Option Directive :=
  if d.span.isSome || d.fields.any (·.2.isSome) then none
  else some ⟨d.area, d.fields.map (·.1), d.rank⟩

end WrittenDirective

def directiveTexts (text : String) : List String :=
  (Text.splitString ',' text).filter (!·.isEmpty)

/-- The filter of a list of directives; without any, only errors are shown. -/
def filterOfDirectives (text : String) : LogFilter :=
  match (directiveTexts text).filterMap (WrittenDirective.read · |>.toOption) with
  | [] => [⟨none, [], 1⟩]
  | written => written.filterMap WrittenDirective.directive?

/-- What is said about directives that cannot be read. -/
def directiveComplaints (text : String) : List String :=
  (directiveTexts text).filterMap fun d =>
    match WrittenDirective.read d with
    | .ok _ => none
    | .error e => some ("ignoring \x60" ++ d ++ "\x60: " ++ e.message)

/-- The rank that the settings ask for: the level that is named, else the verbosity, else the
environment. -/
def rankOf (settings : Settings) (environment : Option String) : Nat :=
  match settings.logLevel with
  | some word => rankOfSetting word
  | none =>
      if settings.verbose then 4
      else if settings.quiet then 1
      else (environment.map rankOfSetting).getD 3

/-- The filter of a run.  Directives in the environment win over everything else. -/
def logFilter (settings : Settings) (environment : List (OsText × OsText)) : LogFilter :=
  match valueIn? "RUST_LOG" environment with
  | some octets => filterOfDirectives ((Octets.text? octets).getD "")
  | none =>
      let level := (valueIn? "KILN_LOG" environment).bind Octets.text?
      [⟨none, [], 1⟩, ⟨some "kiln_", [], rankOf settings level⟩]

/-- What is said before a run about the environment's directives. -/
def logComplaints (environment : List (OsText × OsText)) : List Event :=
  match (valueIn? "RUST_LOG" environment).bind Octets.text? with
  | some text => (directiveComplaints text).map fun line => Event.said (line ++ "\n")
  | none => []

/-- A character of a message.  The controls that a terminal acts upon are shown by their number. -/
def messageChar (c : Char) : List Char :=
  let n := c.toNat
  if [0x07, 0x08, 0x0c, 0x1b, 0x7f].contains n then
    ['\\', 'x'] ++ (if n < 0x10 then ['0'] else []) ++ Text.hexDigits n
  else if 0x80 ≤ n && n ≤ 0x9f then
    ['\\', 'u', Char.ofNat 0x7b] ++ Text.hexDigits n ++ [Char.ofNat 0x7d]
  else [c]

def logLine (stamp : String) (level : LogLevel) (message : String)
    (fields : List (String × String)) : String :=
  stamp ++ " " ++ levelName level ++ " " ++ String.ofList (message.toList.flatMap messageChar) ++
    String.join (fields.map fun (k, v) => " " ++ k ++ "=" ++ v)

/-- What the journal shows on the standard output. -/
def shownOut (journal : List Event) : String :=
  Octets.toText (String.join (journal.map fun
    | .out octets => octets
    | _ => ""))

/-- What the journal shows on the standard error. -/
def shownErr (stamp : String) (filter : LogFilter) (journal : List Event) : String :=
  Octets.toText (String.join (journal.map fun
    | .err octets => octets
    | .log area level message fields =>
        if filter.shows area level (fields.map (·.1)) then
          Octets.ofText (logLine stamp level message fields ++ "\n")
        else ""
    | _ => ""))

end ClojureBuild.Cli
