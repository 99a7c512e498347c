import ClojureBuild.Shell.Builtin.Basic
/-!
The built-in commands that change variables, options and arguments.
-/

namespace ClojureBuild.Shell.Builtin

/-! ### Variables -/

/-- The name at the front of an argument, and the value behind an equals sign. -/
def splitAssigned (arg : String) : String × Option String :=
  let (name, value) := Text.breakAt '=' arg.toList
  (String.ofList name, value.map String.ofList)

def checkName (name : String) : Act Unit := do
  unless isName name.toList do
    if (← get).isBash then Act.fail ("\x60" ++ name ++ "': not a valid identifier")
    else Act.fail (name ++ ": bad variable name")

/-- Shows variables that meet a condition, in the order of their names. -/
def showVariables (front : String) (p : Variable → Bool) : Act Unit := do
  let st ← get
  let shown := st.bindings.filter fun (_, v) => p v
  (sortBy (fun a b => decide (a.1 < b.1)) shown).forM fun (name, v) =>
    match v.value with
    | some text => Act.say (front ++ name ++ "=" ++ singleQuoted st.dialect text ++ "\n")
    | none => if front.isEmpty then pure () else Act.say (front ++ name ++ "\n")

/-- Gives variables an attribute, and perhaps values. -/
def markAll (front : String) (change : Variable → Variable) (has : Variable → Bool) :
    Builtin := fun args => do
  let (found, names) ← takeOptions (if (← get).isBash then "pnfaA" else "p") "" args
  if found.any (·.1 == 'p') || names.isEmpty then showVariables (front ++ " ") has
  else
    names.forM fun arg => do
      let (name, value) := splitAssigned arg
      checkName name
      match value with
      | some text => Act.assign name text
      | none => pure ()
      if found.any (·.1 == 'n') then Act.mark name ({ · with exported := false })
      else Act.mark name change
  Act.setStatus 0

/-- Hands variables on to the processes that are started. -/
def exportAll : Builtin := markAll "export" ({ · with exported := true }) (·.exported)

def readonlyAll : Builtin := markAll "readonly" ({ · with readonly := true }) (·.readonly)

/-- Makes variables that the function under way has for itself. -/
def localAll : Builtin := fun args => do
  if (← get).functionDepth = 0 then Act.fail "not in a function"
  args.forM fun arg => do
    let (name, value) := splitAssigned arg
    unless name = "-" do checkName name
    Act.putAside name
    match value with
    | some text => Act.assign name text
    | none => pure ()
  Act.setStatus 0

def unsetAll : Builtin := fun args => do
  let (found, names) ← takeOptions "vf" "" args
  let onlyFunctions := found.any (·.1 == 'f')
  names.forM fun name => do
    let st ← get
    let isFunction := (st.functions.lookup name).isSome
    if onlyFunctions || (st.isBash && (st.lookUp? name).isNone && isFunction) then
      modify fun st => { st with functions := st.functions.filter (·.1 != name) }
    else
      match Text.breakAt '[' name.toList, st.isBash with
      | (front, some back), true =>
          let key := String.ofList back.dropLast
          Act.mark (String.ofList front) fun v =>
            { v with elements := v.elements.map (·.filter (·.1 != key)) }
      | _, _ =>
          checkName name
          Act.unset name
  Act.setStatus 0

/-! ### Options and arguments -/

/-- The options by their names, in the order in which they are shown; some have no letter. -/
def optionNames : List (String × Option Char) :=
  [("errexit", some 'e'), ("noglob", some 'f'), ("ignoreeof", some 'I'), ("interactive", some 'i'),
    ("monitor", some 'm'), ("noexec", some 'n'), ("stdin", some 's'), ("xtrace", some 'x'),
    ("verbose", some 'v'), ("vi", some 'V'), ("emacs", some 'E'), ("noclobber", some 'C'),
    ("allexport", some 'a'), ("notify", some 'b'), ("nounset", some 'u'), ("privileged", some 'p'),
    ("nolog", none), ("debug", none)]

def putOption (on : Bool) (letter : Char) : Act Unit :=
  modify fun st => { st with
    options := (st.options.filter (· != letter)) ++ (if on then [letter] else []) }

def setLetter (on : Bool) (letter : Char) : Act Unit := do
  let st ← get
  if optionNames.any (·.2 == some letter) || (st.isBash && "hBHPETk".toList.contains letter) then
    putOption on letter
  else if (← get).isBash then
    Act.complain ("-" ++ String.singleton letter ++ ": invalid option")
    Act.setStatus 2
    throw .failed
  else Act.fail ("Illegal option -" ++ String.singleton letter)

def setNamed (on : Bool) (name : String) : Act Unit := do
  match optionNames.lookup name with
  | some (some letter) => putOption on letter
  | some none => pure ()
  | none =>
      if (← get).isBash then
        if name = "pipefail" then modify fun st => { st with pipefail := on }
        else if ["posix", "braceexpand", "hashall", "errtrace", "functrace"].contains name then
          pure ()
        else
          Act.complain (name ++ ": invalid option name")
          Act.setStatus 2
          throw .failed
      else Act.fail ("Illegal option -o " ++ name)

def showOptions (asCommands : Bool) : Act Unit := do
  let st ← get
  unless asCommands do Act.say "Current option settings\n"
  optionNames.forM fun (name, letter) => do
    let on := letter.any st.has
    if asCommands then Act.say ("set " ++ (if on then "-" else "+") ++ "o " ++ name ++ "\n")
    else
      let gap := String.ofList (List.replicate (16 - name.length) ' ')
      Act.say (name ++ gap ++ (if on then "on" else "off") ++ "\n")

/-- Sets options by the letters of one argument; an `o` takes its name from the next ones. -/
def setLetters (on : Bool) : List Char → List String → Act (List String)
  | [], rest => return rest
  | 'o' :: letters, rest => do
      match rest with
      | name :: rest =>
          setNamed on name
          setLetters on letters rest
      | [] =>
          showOptions (!on)
          setLetters on letters []
  | c :: letters, rest => do
      setLetter on c
      setLetters on letters rest

def setOptions : Nat → Builtin
  | 0, _ => pure ()
  | n + 1, args => do
      match args with
      | [] => pure ()
      | "-" :: rest =>
          putOption false 'x'
          putOption false 'v'
          unless rest.isEmpty do modify fun st => { st with args := rest }
      | "--" :: rest => modify fun st => { st with args := rest }
      | arg :: rest =>
          match arg.toList with
          | '-' :: c :: letters => setOptions n (← setLetters true (c :: letters) rest)
          | '+' :: c :: letters => setOptions n (← setLetters false (c :: letters) rest)
          | _ => modify fun st => { st with args := arg :: rest }

/-- Sets options and the arguments, or shows the variables. -/
def set : Builtin := fun args => do
  if args.isEmpty then showVariables "" (fun _ => true)
  else setOptions (args.length + 1) args
  Act.setStatus 0

def shift : Builtin := fun args => do
  let n ← match args with
    | [] => pure 1
    | a :: _ => number a
  let st ← get
  if st.args.length < n then
    if st.isBash then Act.setStatus 1 else Act.fail "can't shift that many"
  else
    Act.setStatus 0
    modify fun st => { st with args := st.args.drop n, optionIndex := 1, optionPlace := 0 }

/-- What `getopts` found: the value for its variable, the argument, a complaint, and whether the
options are at an end. -/
structure OptionFound where
  letter : Char
  argument : Option String
  complaint : Option String
  index : Nat
  place : Nat
  done : Bool

def findOption (wanted : List Char) (args : List String) (index place : Nat) : OptionFound :=
  let current := (args[index - 2]?.getD "").toList
  let inside := 1 < index && 0 < place && place < current.length
  let atEnd (index : Nat) : OptionFound := ⟨'?', none, none, index, 0, true⟩
  let started : Option (List Char × Nat) :=
    if inside then some (current.drop place, index)
    else
      match args[index - 1]?.map String.toList with
      | some ('-' :: c :: rest) => some (c :: rest, index + 1)
      | _ => none
  match started with
  | none => atEnd index
  | some (['-'], index) => if inside then atEnd index else atEnd index
  | some ([], index) => atEnd index
  | some (c :: rest, index) =>
      let silent := wanted.head? = some ':'
      let length := ((args[index - 2]?).getD "").length
      let place := if rest.isEmpty then 0 else length - rest.length
      let letters := if silent then wanted.drop 1 else wanted
      let known := c ≠ ':' && letters.contains c
      if !known then
        ⟨'?', if silent then some (String.singleton c) else none,
          if silent then none else some ("Illegal option -" ++ String.singleton c ++ "\n"),
          index, place, false⟩
      else if ((letters.dropWhile (· != c)).drop 1).head? = some ':' then
        if !rest.isEmpty then ⟨c, some (String.ofList rest), none, index, 0, false⟩
        else
          match args[index - 1]? with
          | some value => ⟨c, some value, none, index + 1, 0, false⟩
          | none =>
              ⟨if silent then ':' else '?', if silent then some (String.singleton c) else none,
                if silent then none else some ("No arg for -" ++ String.singleton c ++ " option\n"),
                index, 0, false⟩
      else ⟨c, some "", none, index, place, false⟩

/-- Takes the next option from the arguments. -/
def getopts : Builtin := fun args => do
  match args with
  | wanted :: name :: rest =>
      let st ← get
      let found := findOption wanted.toList (if rest.isEmpty then st.args else rest)
        st.optionIndex st.optionPlace
      match found.complaint with
      | some text =>
          let front := if st.isBash then st.name ++ ": " else ""
          Act.writeError (front ++ text)
      | none => pure ()
      unless found.done do
        match found.argument with
        | some value => Act.assign "OPTARG" value
        | none => Act.unset "OPTARG"
      Act.assign "OPTIND" (toString found.index)
      modify fun st => { st with optionIndex := found.index, optionPlace := found.place }
      checkName name
      Act.assign name (String.singleton found.letter)
      Act.setStatus (if found.done then 1 else 0)
  | _ => Act.fail "Usage: getopts optstring var [arg...]"

/-! ### Input -/

/-- The characters of a line, each with whether a backslash stood in front of it, and whether the
line was complete; the number bounds the characters. -/
def readLine (raw : Bool) (stop : Char) : Nat → Bool → Act (List (Char × Bool) × Bool)
  | 0, _ => return ([], false)
  | n + 1, escaped => do
      let st ← get
      match st.descriptors.lookup 0 with
      | none => return ([], false)
      | some file =>
          match (st.machine.remaining file).toList.head? with
          | none => return ([], false)
          | some c =>
              modify fun st => { st with machine := st.machine.passOver file 1 }
              if escaped then
                let (rest, whole) ← readLine raw stop n false
                return (if c = '\n' then rest else (c, true) :: rest, whole)
              else if c = stop then return ([], true)
              else if c = '\\' && !raw then readLine raw stop n true
              else if c = Char.ofNat 0 then readLine raw stop n false
              else
                let (rest, whole) ← readLine raw stop n false
                return ((c, false) :: rest, whole)

def isSeparator (separators : List Char) (c : Char × Bool) : Bool :=
  !c.2 && separators.contains c.1

/-- Whether a character separates fields and is a blank. -/
def isBlankSeparator (separators : List Char) (c : Char × Bool) : Bool :=
  isSeparator separators c && (c.1 = ' ' || c.1 = '\t' || c.1 = '\n')

/-- What is behind the separators at the front: blanks around at most one mark. -/
def passSeparator (separators : List Char) (text : List (Char × Bool)) : List (Char × Bool) :=
  let text := text.dropWhile (isBlankSeparator separators)
  match text with
  | c :: rest =>
      if isSeparator separators c then rest.dropWhile (isBlankSeparator separators) else text
  | [] => []

/-- The values of a number of variables: a field for each, and the last one gets all that is
left. -/
def readFields (separators : List Char) : Nat → List (Char × Bool) → List String
  | 0, _ => []
  | 1, text =>
      let field := text.takeWhile fun c => !isSeparator separators c
      let behind := passSeparator separators (text.drop field.length)
      let kept := if behind.isEmpty then field
        else (text.reverse.dropWhile (isBlankSeparator separators)).reverse
      [unmarked kept]
  | n + 1, text =>
      let field := text.takeWhile fun c => !isSeparator separators c
      unmarked field :: readFields separators n (passSeparator separators (text.drop field.length))

def read : Builtin := fun args => do
  let bash := (← get).isBash
  let (found, names) ← takeOptions (if bash then "rse" else "r")
    (if bash then "pdntua" else "p") args
  if names.isEmpty && !bash then Act.fail "arg count"
  let stop := match found.lookup 'd' with
    | some text => (text.toList.head?).getD (Char.ofNat 0)
    | none => '\n'
  let st ← get
  let size := match st.descriptors.lookup 0 with
    | some file => (st.machine.remaining file).length
    | none => 0
  let size := match found.lookup 'n' with
    | some text => min size ((text.toNat?).getD size)
    | none => size
  let (text, whole) ← readLine (found.any (·.1 == 'r')) stop (size + 1) false
  let separators := st.separators
  let text := text.dropWhile (isBlankSeparator separators)
  match found.lookup 'a' with
  | some name =>
      let fields := splitFields separators (text.map fun (c, escaped) =>
        Atom.char escaped (!escaped) c) none .inside
      let elements := fields.zipIdx.map fun (f, i) => (toString i, unmarked f)
      Act.mark name fun v => { v with elements := some elements }
  | none =>
      if names.isEmpty then Act.assign "REPLY" (unmarked text)
      else
        let values := readFields separators names.length text
        (names.zip values).forM fun (name, value) => do
          checkName name
          Act.assign name value
  Act.setStatus (if whole then 0 else 1)

end ClojureBuild.Shell.Builtin
