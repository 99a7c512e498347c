import ClojureBuild.Decimal.Binary64
import ClojureBuild.Sorting
/-!
The values of a TOML document.  A table lists its keys in ascending order, each once.
-/

namespace ClojureBuild.Toml

/-- A value of a document.  A date or time is kept as its normal text. -/
inductive Value where
  | text (value : String)
  | integer (value : Int)
  | float (value : Binary64)
  | boolean (value : Bool)
  | datetime (text : String)
  | array (items : List Value)
  | table (entries : List (String × Value))
deriving Inhabited

def entry? (key : String) : List (String × Value) → Option Value
  | [] => none
  | (k, v) :: rest => if k = key then some v else entry? key rest

end ClojureBuild.Toml
