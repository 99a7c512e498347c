import ClojureBuild.Shell.Expansion
/-!
Assignments: of texts, of elements, and of whole lists.
-/

namespace ClojureBuild.Shell.Assignment

def nextSubscript (elements : List (String × String)) : Nat :=
  (elements.filterMap (·.1.toNat?)).foldl (fun m k => max m (k + 1)) 0

/-- The subscript that a word is for a variable: a name where names are subscripts, or else the
value of an expression. -/
def subscriptOf (substitute : Substitution) (name : String) (w : Word) : Act String := do
  let text ← expandText substitute w
  if ((← get).lookUp? name).any (·.associative) then return text
  else
    let n ← calculate text
    if 0 ≤ n then return toString n
    else
      let v := ((← get).lookUp? name).getD State.Variable.blank
      let size : Int := nextSubscript (v.elements.getD [])
      return toString (size + n)

/-- The elements of a variable, which may have been one text until now. -/
def elementsOf (v : Variable) : List (String × String) :=
  match v.elements with
  | some elements => elements
  | none => (v.value.map fun text => ("0", text)).toList

/-- The value that a text becomes for a variable; what was there is put in front of it. -/
def converted (kind : ValueKind) (old text : String) : Act String := do
  let change (f : Char → Char) : String := String.ofList ((old ++ text).toList.map f)
  match kind with
  | .plain => return old ++ text
  | .upper => return change upperChar
  | .lower => return change lowerChar
  | .number =>
      let a ← if old.isEmpty then pure 0 else calculate old
      return toString (a + (← calculate text))

def putElement (name key value : String) (added : Bool) : Act Unit := do
  let v := ((← get).lookUp? name).getD State.Variable.blank
  if v.readonly then Act.refuseReadonly name
  let elements := elementsOf v
  let value ← converted v.kind (if added then (elements.lookup key).getD "" else "") value
  Act.mark name fun v =>
    { v with elements := some (State.replaceEntry key value elements), value := none }

/-- A word that names its own subscript, with the word behind the equals sign. -/
def keyed? (w : Word) : Option (Word × Word) :=
  match w with
  | .char false '[' :: rest =>
      match splitWord? ']' rest with
      | some (key, .char false '=' :: value) => some (key, value)
      | _ => none
  | _ => none

/-- Puts the words of a list behind the elements that are there; the number is the next free
subscript. -/
def putElements (substitute : Substitution) (name : String) : Nat → List Word → Act Unit
  | _, [] => pure ()
  | next, w :: rest => do
      match keyed? w with
      | some (key, value) =>
          let key ← subscriptOf substitute name key
          putElement name key (← expandText substitute value) false
          putElements substitute name (((key.toNat?).getD next) + 1) rest
      | none =>
          let values ← expandArguments substitute w
          values.zipIdx.forM fun (value, i) => putElement name (toString (next + i)) value false
          putElements substitute name (next + values.length) rest

def carryOut (substitute : Substitution) (a : Assignment) : Act String := do
  match a.elements, a.subscript with
  | some words, _ =>
      let v := ((← get).lookUp? a.name).getD State.Variable.blank
      if v.readonly then Act.refuseReadonly a.name
      let kept := if a.added then elementsOf v else []
      Act.mark a.name fun v => { v with elements := some kept, value := none }
      let words := words.flatMap fun w => expandBraces (w.length + 1) w
      putElements substitute a.name (nextSubscript kept) words
      return a.name ++ "=(...)"
  | none, [] =>
      let value ← expandValue substitute a.value
      let st ← get
      let old := if a.added then (st.value? a.name).getD "" else ""
      let kind := ((st.lookUp? a.name).map (·.kind)).getD .plain
      Act.assign a.name (← converted kind old value)
      return a.name ++ (if a.added then "+=" else "=") ++ value
  | none, subscript =>
      let key ← subscriptOf substitute a.name subscript
      let value ← expandText substitute a.value
      putElement a.name key value a.added
      return a.name ++ "[" ++ key ++ "]=" ++ value

end ClojureBuild.Shell.Assignment
