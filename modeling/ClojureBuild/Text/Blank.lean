/-!
White space in the sense of the Unicode property `White_Space`, and trimming by it.
-/

namespace ClojureBuild.Text

/-- The characters of the Unicode property `White_Space`. -/
def isBlank (c : Char) : Bool :=
  let n := c.toNat
  (0x09 ≤ n && n ≤ 0x0d) || n == 0x20 || n == 0x85 || n == 0xa0 || n == 0x1680 ||
    (0x2000 ≤ n && n ≤ 0x200a) || n == 0x2028 || n == 0x2029 || n == 0x202f || n == 0x205f ||
    n == 0x3000

/-- The text without the white space at its two ends. -/
def trim (text : List Char) : List Char :=
  ((text.dropWhile isBlank).reverse.dropWhile isBlank).reverse

/-- The string without the white space at its two ends. -/
def trimString (text : String) : String :=
  String.ofList (trim text.toList)

example : trimString " \t a b\n" = "a b" := by decide
example : isBlank '\u3000' = true ∧ isBlank '\u200b' = false := by decide

end ClojureBuild.Text
