/-!
Splitting text at a separator and joining it again.

`splitOn` never loses a piece: an empty text has one empty piece, and a separator at either end
leaves an empty piece there.  Main statement: joining the pieces gives the text back.
-/

namespace ClojureBuild.Text

/-- The pieces between the separators, in order; there is one more piece than separators. -/
def splitOn (sep : Char) : List Char → List (List Char)
  | [] => [[]]
  | c :: rest =>
      if c = sep then [] :: splitOn sep rest
      else
        match splitOn sep rest with
        | [] => [[c]]
        | piece :: pieces => (c :: piece) :: pieces

/-- The pieces with one separator between any two neighbours. -/
def joinWith (sep : Char) : List (List Char) → List Char
  | [] => []
  | [piece] => piece
  | piece :: next :: pieces => piece ++ sep :: joinWith sep (next :: pieces)

theorem splitOn_ne_nil (sep : Char) (text : List Char) : splitOn sep text ≠ [] := by
  cases text with
  | nil => simp [splitOn]
  | cons c rest =>
      simp only [splitOn]
      split
      · simp
      · split <;> simp

theorem joinWith_splitOn (sep : Char) (text : List Char) :
    joinWith sep (splitOn sep text) = text := by
  induction text with
  | nil => rfl
  | cons c rest ih =>
      simp only [splitOn]
      split
      next hsep =>
        subst hsep
        cases hpieces : splitOn c rest with
        | nil => exact absurd hpieces (splitOn_ne_nil c rest)
        | cons piece pieces => simp [joinWith, ← hpieces, ih]
      next hsep =>
        cases hpieces : splitOn sep rest with
        | nil => exact absurd hpieces (splitOn_ne_nil sep rest)
        | cons piece pieces =>
            rw [hpieces] at ih
            cases pieces with
            | nil => simpa [joinWith] using ih
            | cons next more => simpa [joinWith] using ih

/-- No piece holds the separator. -/
theorem not_mem_of_mem_splitOn {sep : Char} {text piece : List Char}
    (hpiece : piece ∈ splitOn sep text) : sep ∉ piece := by
  induction text generalizing piece with
  | nil => simp_all [splitOn]
  | cons c rest ih =>
      simp only [splitOn] at hpiece
      split at hpiece
      next hsep =>
        rcases List.mem_cons.1 hpiece with rfl | hrest
        · simp
        · exact ih hrest
      next hsep =>
        cases hpieces : splitOn sep rest with
        | nil => exact absurd hpieces (splitOn_ne_nil sep rest)
        | cons first pieces =>
            rw [hpieces] at hpiece
            rcases List.mem_cons.1 hpiece with rfl | hrest
            · have hfirst : sep ∉ first := ih (by simp [hpieces])
              simp [hfirst, Ne.symm hsep]
            · exact ih (by simp [hpieces, hrest])

def splitString (sep : Char) (text : String) : List String :=
  (splitOn sep text.toList).map String.ofList

def joinStrings (sep : Char) (pieces : List String) : String :=
  String.ofList (joinWith sep (pieces.map String.toList))

theorem joinStrings_splitString (sep : Char) (text : String) :
    joinStrings sep (splitString sep text) = text := by
  simp [joinStrings, splitString, Function.comp_def, joinWith_splitOn]

/-- The text up to the first separator, and what follows it if there is one. -/
def breakAt (sep : Char) : List Char → List Char × Option (List Char)
  | [] => ([], none)
  | c :: rest =>
      if c = sep then ([], some rest)
      else
        let (front, back) := breakAt sep rest
        (c :: front, back)

def occursIn (part : List Char) : List Char → Bool
  | [] => part.isEmpty
  | c :: rest => part.isPrefixOf (c :: rest) || occursIn part rest

def dropFront? : List Char → List Char → Option (List Char)
  | [], text => some text
  | _ :: _, [] => none
  | c :: front, d :: text => if c = d then dropFront? front text else none

theorem dropFront?_eq_some_iff {front text rest : List Char} :
    dropFront? front text = some rest ↔ text = front ++ rest := by
  induction front generalizing text with
  | nil => simp [dropFront?, eq_comm]
  | cons c front ih =>
      cases text with
      | nil => simp [dropFront?]
      | cons d text =>
          by_cases h : c = d
          · simp [dropFront?, h, ih]
          · simp [dropFront?, h, Ne.symm h]

end ClojureBuild.Text
