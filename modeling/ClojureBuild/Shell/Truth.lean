import ClojureBuild.Process.Condition
import ClojureBuild.Shell.Expansion
import ClojureBuild.Text.Regex
/-!
The truth of a condition between double brackets.

Its words are not split and stand for no file names.  What is right of an equals sign is a pattern,
and what is compared as a number is an expression.
-/

namespace ClojureBuild.Shell.Truth

/-- The text of a regular expression in which quoted characters stand for themselves. -/
def regexText (text : Marked) : String :=
  String.ofList (text.flatMap fun (c, quoted) =>
    if quoted && !isNameChar c then ['\\', c] else [c])

/-- Whether a regular expression matches somewhere in a text; the match and its groups are kept in a
variable. -/
def matchesRegex (text : String) (expression : Marked) : Act Bool := do
  match Regex.ofText true (regexText expression) with
  | .error _ => return false
  | .ok r =>
      let subject : Regex.Subject := ⟨text.toList.toArray, false⟩
      match r.find? subject 0 with
      | none => return false
      | some (start, found) =>
          let piece (a b : Nat) : String := String.ofList ((text.toList.drop a).take (b - a))
          let count := found.groups.foldl (fun m g => max m g.1) 0
          let groups := (List.range count).map fun i =>
            match found.groups.find? (·.1 == i + 1) with
            | some (_, a, b) => piece a b
            | none => ""
          let items := (piece start found.stop :: groups).zipIdx.map fun (t, i) => (toString i, t)
          Act.mark "BASH_REMATCH" fun v => { v with elements := some items }
          return true

def ofUnary (operator text : String) : Act Bool := do
  let st ← get
  match operator with
  | "-v" => return ((st.lookUp? text).any fun v => v.value.isSome || v.elements.isSome)
  | "-o" => return text.length = 1 && text.toList.all st.has
  | _ =>
      let operator := if operator = "-a" then "-e" else operator
      match Condition.unary ⟨st.machine.world, st.descriptors, true⟩ operator text with
      | .ok truth => return truth
      | .error _ => return false

def ofBinary (substitute : Substitution) (operator : String) (left right : Word) : Act Bool := do
  let a ← expandText substitute left
  let numbers (f : Int → Int → Bool) : Act Bool := do
    let b ← expandText substitute right
    return f (← calculate a) (← calculate b)
  match operator with
  | "=" | "==" => return matchesAll (← expandPattern substitute right) a.toList
  | "!=" => return !matchesAll (← expandPattern substitute right) a.toList
  | "=~" => matchesRegex a (Atom.marked (← expandWord substitute right))
  | "-eq" => numbers (fun x y => x == y)
  | "-ne" => numbers (fun x y => x != y)
  | "-lt" => numbers (fun x y => x < y)
  | "-le" => numbers (fun x y => x ≤ y)
  | "-gt" => numbers (fun x y => x > y)
  | "-ge" => numbers (fun x y => x ≥ y)
  | _ =>
      let b ← expandText substitute right
      let st ← get
      match Condition.binary ⟨st.machine.world, st.descriptors, true⟩ a operator b with
      | .ok truth => return truth
      | .error _ => return false

def holds (substitute : Substitution) : Truth → Act Bool
  | .given w => return (← expandText substitute w) ≠ ""
  | .unary operator w => do ofUnary operator (← expandText substitute w)
  | .binary operator left right => ofBinary substitute operator left right
  | .negated t => return !(← holds substitute t)
  | .both a b => do if ← holds substitute a then holds substitute b else return false
  | .either a b => do if ← holds substitute a then return true else holds substitute b

end ClojureBuild.Shell.Truth
