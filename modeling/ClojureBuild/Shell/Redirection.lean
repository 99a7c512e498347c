import ClojureBuild.Shell.Expansion
/-!
Redirections: which file each descriptor of a command leads to.

All targets are expanded before the first file is opened.  A file that cannot be opened ends the
command and not the shell.
-/

namespace ClojureBuild.Shell

/-- What a descriptor is to lead to. -/
inductive Opening where
  /-- The file of a name; `guarded` tells whether a file that is there may be protected. -/
  | file (mode : OpenMode) (guarded : Bool) (name : String)
  | same (descriptor : Nat)
  | closed
  | content (text : String)
deriving DecidableEq, Repr, Inhabited

namespace Opening

def descriptor? (bash : Bool) (word : String) : Option Nat :=
  if bash || word.length = 1 then
    if word.toList.all Char.isDigit then word.toNat? else none
  else none

def ofRedirect (substitute : Substitution) (r : Redirect) : Act (List (Nat × Opening)) := do
  let bash := (← get).isBash
  let file (mode : OpenMode) (guarded : Bool) : Act (List (Nat × Opening)) := do
    return [(r.descriptor, .file mode guarded (← expandText substitute r.target))]
  let both (mode : OpenMode) (name : String) : List (Nat × Opening) :=
    [(1, .file mode (mode = .write) name), (2, .same 1)]
  match r.kind with
  | .read => file .read false
  | .write => file .write true
  | .overwrite => file .write false
  | .append => file .append false
  | .readWrite => file .readWrite false
  | .writeBoth => return both .write (← expandText substitute r.target)
  | .appendBoth => return both .append (← expandText substitute r.target)
  | .text => return [(r.descriptor, .content ((← expandText substitute r.target) ++ "\n"))]
  | .document number =>
      let parts := ((← get).documents.lookup number).getD []
      let atoms ← expandParts substitute expansionFuel false parts
      return [(r.descriptor, .content (Atom.text atoms))]
  | .duplicate output =>
      let word := (← expandArguments substitute r.target).headD ""
      match descriptor? bash word with
      | some d => return [(r.descriptor, .same d)]
      | none =>
          if word = "-" then return [(r.descriptor, .closed)]
          else if bash && output && r.descriptor = 1 then return both .write word
          else if bash then Act.fail (word ++ ": ambiguous redirect")
          else Act.fail "Syntax error: Bad fd number"

def bind (descriptors : Descriptors) (descriptor number : Nat) : Descriptors :=
  (descriptor, number) :: descriptors.filter (·.1 != descriptor)

/-- The wording of a cause for which a file cannot be opened. -/
def refusal (bash creates : Bool) (name : String) (cause : OsError) : String :=
  if bash then name ++ ": " ++ cause.reason
  else
    let missing := cause = .notFound || cause = .notADirectory
    let reason := if !missing then cause.reason
      else if creates then "Directory nonexistent"
      else "No such file"
    (if creates then "cannot create " else "cannot open ") ++ name ++ ": " ++ reason

/-- Opens what a descriptor is to lead to, or says why that cannot be done. -/
def open? (st : State) (descriptor : Nat) : Opening → Except String State
  | .closed => .ok { st with descriptors := st.descriptors.filter (·.1 != descriptor) }
  | .same other =>
      match st.descriptors.lookup other with
      | some number => .ok { st with descriptors := bind st.descriptors descriptor number }
      | none => .error (toString other ++ ": " ++ OsError.badDescriptor.reason)
  | .content text =>
      let (machine, number) := st.machine.openBuffer text
      .ok { st with machine, descriptors := bind st.descriptors descriptor number }
  | .file mode guarded name =>
      let creates := mode ≠ .read
      if guarded && st.has 'C' && st.machine.world.isFile ⟨name⟩ then
        .error (if st.isBash then name ++ ": cannot overwrite existing file"
          else refusal false true name .alreadyExists)
      else
        match st.machine.openPath st.descriptors name mode with
        | .ok (machine, number) =>
            .ok { st with machine, descriptors := bind st.descriptors descriptor number }
        | .error cause => .error (refusal st.isBash creates name cause)

def openAll : List (Nat × Opening) → Act Bool
  | [] => return true
  | (descriptor, opening) :: rest => do
      match open? (← get) descriptor opening with
      | .ok st =>
          set st
          openAll rest
      | .error message =>
          Act.complain message
          return false

end Opening

/-- Runs an act, and lets the descriptors lead to what they led to before. -/
def keepingDescriptors {α : Type} (act : Act α) : Act α :=
  act.thenRestore fun before st => { st with descriptors := before.descriptors }

end ClojureBuild.Shell
