import ClojureBuild.Text.Quoted
import ClojureBuild.Toml.Value
import ClojureBuild.UnitId
/-!
Why a value does not fit where it stands.
-/

namespace ClojureBuild.Config

/-- A value as a mismatch shows it. -/
inductive Found where
  | text (value : String)
  | integer (value : Int)
  | float (value : Binary64)
  /-- A floating-point number of a JSON text, where a very great or small one has an exponent. -/
  | jsonFloat (value : Binary64)
  | boolean (value : Bool)
  | sequence
  | map
  | null
deriving DecidableEq, Repr, Inhabited

def Found.describe : Found → String
  | .text s => "string " ++ Text.quote s
  | .integer n => "integer \x60" ++ toString n ++ "\x60"
  | .float x => "floating point \x60" ++ x.text ++ "\x60"
  | .jsonFloat x => "floating point \x60" ++ x.compactText ++ "\x60"
  | .boolean b => "boolean \x60" ++ (if b then "true" else "false") ++ "\x60"
  | .sequence => "sequence"
  | .map => "map"
  | .null => "null"

def Found.ofValue : Toml.Value → Found
  | .text s => .text s
  | .integer n => .integer n
  | .float x => .float x
  | .boolean b => .boolean b
  | .datetime s => .text s
  | .array _ => .sequence
  | .table _ => .map

/-- What is wrong with a value. -/
inductive Fault where
  | wrongType (found : Found) (expected : String)
  | wrongLength (length : Nat) (expected : String)
  | missingField (name : String)
  | unknownField (name : String) (known : List String)
  | badUnit (error : UnitId.Malformed)
  | complaint (text : String)
deriving DecidableEq, Repr

def Fault.message : Fault → String
  | .wrongType found expected => "invalid type: " ++ found.describe ++ ", expected " ++ expected
  | .wrongLength n expected => "invalid length " ++ toString n ++ ", expected " ++ expected
  | .missingField name => "missing field \x60" ++ name ++ "\x60"
  | .unknownField name known =>
      "unknown field \x60" ++ name ++ "\x60, expected one of " ++
        String.intercalate ", " (known.map fun k => "\x60" ++ k ++ "\x60")
  | .badUnit e => e.message
  | .complaint text => text

/-- A fault and the keys that lead to it from the top of the document. -/
structure Mismatch where
  fault : Fault
  keys : List String
deriving DecidableEq, Repr

/-- The wording of a mismatch: the fault on one line, the keys on another. -/
def Mismatch.message (m : Mismatch) : String :=
  m.fault.message ++ "\n" ++
    (if m.keys.isEmpty then ""
     else "in \x60" ++ String.intercalate "." m.keys ++ "\x60\n")

def Mismatch.under (key : String) (m : Mismatch) : Mismatch := { m with keys := key :: m.keys }

end ClojureBuild.Config
