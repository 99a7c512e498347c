import ClojureBuild.Shell.Builtin.Basic
/-!
The built-in commands about the current directory and the rights of new files.
-/

namespace ClojureBuild.Shell.Builtin

/-- The absolute name that a name leads to by its text alone. -/
def logicalPath (current name : String) : String :=
  let (start, front) : String × List String :=
    match name.toList with
    | '/' :: '/' :: '/' :: _ => ("/", [])
    | '/' :: '/' :: _ => ("//", [])
    | '/' :: _ => ("/", [])
    | _ =>
        (if "//".toList.isPrefixOf current.toList then "//" else "/",
          (Text.splitString '/' current).filter (· != ""))
  let pieces := (Text.splitString '/' name).foldl (fun (acc : List String) piece =>
    if piece = "" || piece = "." then acc
    else if piece = ".." then acc.dropLast
    else acc ++ [piece]) front
  start ++ String.intercalate "/" pieces

/-- Goes to a directory; whether it could be done. -/
def goTo (physical : Bool) (name : String) : Act Bool := do
  let st ← get
  let target := if physical then name else logicalPath st.directory name
  match st.machine.world.stat ⟨target⟩ with
  | .ok (loc, .dir _) =>
      let directory := if physical then World.textOf loc else target
      modify fun st => { st with machine.world.cwd := loc, directory }
      Act.assign "OLDPWD" st.directory
      Act.mark "OLDPWD" ({ · with exported := true })
      Act.assign "PWD" directory
      Act.mark "PWD" ({ · with exported := true })
      return true
  | _ => return false

/-- The first directory of the search path for directories that holds a name. -/
def searched? (st : State) (name : String) : Option (String × Bool) :=
  let places := match st.value? "CDPATH" with
    | some path => Text.splitString ':' path
    | none => [""]
  places.findSome? fun place =>
    let full := if place.isEmpty then name else place ++ "/" ++ name
    if st.machine.world.isDir ⟨full⟩ then some (full, !place.isEmpty) else none

def cd : Builtin := fun args => do
  let (found, rest) ← match args with
    | "-" :: rest => pure ([], "-" :: rest)
    | args => takeOptions "LP" "" args
  let physical := (found.getLast?.map (·.1)) = some 'P'
  let st ← get
  let (name, shows) := match rest with
    | [] => ((st.value? "HOME").getD "", false)
    | "-" :: _ => ((st.value? "OLDPWD").getD "", true)
    | name :: _ => (name, false)
  let direct := ["/", "./", "../"].any (fun front => front.toList.isPrefixOf name.toList) ||
    name = "." || name = ".."
  let (target, shows) :=
    if direct then (name, shows)
    else
      match searched? st (if name.isEmpty then "." else name) with
      | some (full, announced) => (full, shows || announced)
      | none => (name, shows)
  if st.isBash && rest.isEmpty && (st.value? "HOME").isNone then refuse 1 "HOME not set"
  else if st.isBash && 1 < rest.length then refuse 1 "too many arguments"
  else if ← goTo physical target then
    if shows then Act.say ((← get).directory ++ "\n")
    Act.setStatus 0
  else if st.isBash then
    let reason := match st.machine.world.stat ⟨target⟩ with
      | .ok _ => OsError.notADirectory
      | .error e => e
    refuse 1 (name ++ ": " ++ reason.reason)
  else Act.fail ("can't cd to " ++ name)

def pwd : Builtin := fun args => do
  let (found, _) ← takeOptions "LP" "" args
  let st ← get
  let physical := (found.getLast?.map (·.1)) = some 'P'
  Act.say ((if physical then World.textOf st.machine.world.cwd else st.directory) ++ "\n")
  Act.setStatus 0

/-- A number in base eight with at least four digits. -/
def octalText (n : Nat) : String :=
  let digits := Nat.toDigits 8 n
  String.ofList (List.replicate (4 - digits.length) '0' ++ digits)

def rightsText (mask : Nat) : String :=
  let left := 511 - mask % 512
  let three (n : Nat) : String :=
    (if n / 4 % 2 = 1 then "r" else "") ++ (if n / 2 % 2 = 1 then "w" else "") ++
      (if n % 2 = 1 then "x" else "")
  "u=" ++ three (left / 64) ++ ",g=" ++ three (left / 8 % 8) ++ ",o=" ++ three (left % 8)

/-- Shows or sets the rights that new files are not given. -/
def umask : Builtin := fun args => do
  let (found, rest) ← takeOptions "S" "" args
  let st ← get
  match rest with
  | [] =>
      Act.say ((if found.isEmpty then octalText st.umask else rightsText st.umask) ++ "\n")
      Act.setStatus 0
  | mode :: _ =>
      if (mode.toList.head?).any Char.isDigit then
        if mode.toList.all fun c => '0' ≤ c && c ≤ '7' then
          modify fun st => { st with
            umask := (Arithmetic.readDigits 8 mode.toList).1 % 512, status := 0 }
        else Act.fail ("Illegal number: " ++ mode)
      else if mode.toList.all fun c => "ugoarwxXst=+-,".toList.contains c then Act.setStatus 0
      else Act.fail ("Illegal mode: " ++ mode)

end ClojureBuild.Shell.Builtin
