import ClojureBuild.Shell.Assigning
import ClojureBuild.Shell.Builtin.Variables
/-!
The built-in commands of one dialect that give variables their kinds, and those that calculate or
fill lists.
-/

namespace ClojureBuild.Shell.Builtin

/-! ### Declarations -/

/-- A text between double quotes that the shell reads back. -/
def doubleQuoted (text : String) : String :=
  let marked := text.toList.flatMap fun c =>
    if c = '"' || c = '\\' || c = '$' || c = backquote then ['\\', c] else [c]
  "\"" ++ String.ofList marked ++ "\""

def attributeLetters (v : Variable) : String :=
  let letters := [(v.elements.isSome && !v.associative, 'a'), (v.associative, 'A'),
    (v.kind = .number, 'i'), (v.readonly, 'r'), (v.exported, 'x'), (v.kind = .lower, 'l'),
    (v.kind = .upper, 'u')]
  let on := letters.filterMap fun (has, c) => if has then some c else none
  if on.isEmpty then "--" else String.ofList ('-' :: on)

def declaration (name : String) (v : Variable) : String :=
  let value := match v.elements, v.value with
    | some elements, _ =>
        let items := (sortedElements v elements).map fun (key, text) =>
          "[" ++ key ++ "]=" ++ doubleQuoted text
        "=(" ++ String.intercalate " " items ++
          (if v.associative && !elements.isEmpty then " )" else ")")
    | none, some text => "=" ++ doubleQuoted text
    | none, none => ""
  "declare " ++ attributeLetters v ++ " " ++ name ++ value ++ "\n"

/-- The letters of the attributes to set, those to take away, and what is behind them. -/
def readAttributes : List String → List Char → List Char → List Char × List Char × List String
  | [], on, off => (on, off, [])
  | arg :: rest, on, off =>
      if arg = "--" then (on, off, rest)
      else
        match arg.toList with
        | '-' :: c :: letters => readAttributes rest (on ++ c :: letters) off
        | '+' :: c :: letters => readAttributes rest on (off ++ c :: letters)
        | _ => (on, off, arg :: rest)

/-- A variable with attributes set and taken away, except that it may still be changed. -/
def withAttributes (on off : List Char) (v : Variable) : Variable :=
  let listed := on.contains 'a' || on.contains 'A'
  let kind := if on.contains 'i' then ValueKind.number
    else if on.contains 'u' then .upper
    else if on.contains 'l' then .lower
    else if off.any fun c => c = 'i' || c = 'u' || c = 'l' then .plain
    else v.kind
  { v with
    elements := if listed then some (Assignment.elementsOf v) else v.elements
    value := if listed then none else v.value
    associative := v.associative || on.contains 'A'
    exported := (v.exported || on.contains 'x') && !off.contains 'x'
    kind }

def declareOne (on off : List Char) (arg : String) : Act Unit := do
  let (front, value) := splitAssigned arg
  let added := front.toList.getLast? = some '+' && value.isSome
  let name := if added then String.ofList front.toList.dropLast else front
  checkName name
  unless on.contains 'g' do Act.makeLocal name
  Act.mark name (withAttributes on off)
  match value with
  | none => pure ()
  | some text =>
      let st ← get
      let kind := ((st.lookUp? name).map (·.kind)).getD .plain
      let old := if added then (st.value? name).getD "" else ""
      Act.assign name (← Assignment.converted kind old text)
  if on.contains 'r' then Act.mark name ({ · with readonly := true })

/-- Gives variables their kinds, or shows them. -/
def declareAll : Builtin := fun args => do
  let (on, off, names) := readAttributes args [] []
  Act.setStatus 0
  if on.contains 'p' then
    let st ← get
    if names.isEmpty then
      (sortBy (fun a b => decide (a.1 < b.1)) st.bindings).forM fun (name, v) =>
        Act.say (declaration name v)
    else
      names.forM fun name => do
        match st.lookUp? name with
        | some v => Act.say (declaration name v)
        | none => refuse 1 (name ++ ": not found")
  else if on.any fun c => c = 'f' || c = 'F' then
    names.forM fun name => do
      if ((← get).functions.lookup name).isSome then
        if on.contains 'F' then Act.say (name ++ "\n")
      else Act.setStatus 1
  else names.forM (declareOne on off)

/-- Gives variables of the function under way their kinds. -/
def localDeclareAll : Builtin := fun args => do
  if (← get).functionDepth = 0 then refuse 1 "can only be used in a function"
  else declareAll args

/-! ### Numbers and lists -/

/-- Calculates expressions; the last one decides the status. -/
def calculateAll : Builtin := fun args => do
  match args with
  | [] => refuse 1 "expression expected"
  | args => args.forM fun arg => do
      let n ← calculate arg
      Act.setStatus (if n = 0 then 1 else 0)

def endedLines (text : List Char) : List (List Char) :=
  let pieces := Text.splitOn '\n' text
  let ended := pieces.dropLast.map (· ++ ['\n'])
  match pieces.getLast? with
  | some [] | none => ended
  | some last => ended ++ [last]

def fillList : Builtin := fun args => do
  let (found, names) ← takeOptions "t" "ndsuOCc" args
  let st ← get
  let source := ((found.lookup 'u').bind String.toNat?).getD 0
  match st.descriptors.lookup source with
  | none => refuse 1 (toString source ++ ": invalid file descriptor: Bad file descriptor")
  | some file =>
      let numberOf (c : Char) : Nat := ((found.lookup c).bind String.toNat?).getD 0
      let lines := (endedLines (st.machine.remaining file).toList).drop (numberOf 's')
      let lines := if numberOf 'n' = 0 then lines else lines.take (numberOf 'n')
      let read := ((endedLines (st.machine.remaining file).toList).take
        (numberOf 's' + lines.length)).flatten.length
      modify fun st => { st with machine := st.machine.passOver file read }
      let shown := if found.any (·.1 == 't') then
          lines.map fun line => if line.getLast? = some '\n' then line.dropLast else line
        else lines
      let elements := shown.zipIdx.map fun (line, i) =>
        (toString (numberOf 'O' + i), String.ofList line)
      Act.mark (names.headD "MAPFILE") fun v =>
        { v with elements := some elements, value := none }
      Act.setStatus 0

end ClojureBuild.Shell.Builtin
