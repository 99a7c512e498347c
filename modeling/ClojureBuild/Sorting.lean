/-!
Sorted lists, by an order given as a Boolean test `before`.

`sortBy` keeps repetitions and is stable.  `distinctBy` keeps, of elements that the order does not
tell apart, the one that comes first.  Main statements: what is a member before is one after.
-/

namespace ClojureBuild

variable {α : Type}

/-- Puts an element behind everything that is not after it. -/
def insertBy (before : α → α → Bool) (x : α) : List α → List α
  | [] => [x]
  | y :: rest => if before x y then x :: y :: rest else y :: insertBy before x rest

/-- The list in ascending order; equal elements keep their places. -/
def sortBy (before : α → α → Bool) (xs : List α) : List α :=
  xs.foldl (fun sorted x => insertBy before x sorted) []

/-- Puts an element into a sorted list, unless an equal one is there. -/
def insertDistinct (before : α → α → Bool) (x : α) : List α → List α
  | [] => [x]
  | y :: rest =>
      if before x y then x :: y :: rest
      else if before y x then y :: insertDistinct before x rest
      else y :: rest

/-- The list in ascending order, each element once. -/
def distinctBy (before : α → α → Bool) (xs : List α) : List α :=
  xs.foldl (fun sorted x => insertDistinct before x sorted) []

theorem mem_insertBy {before : α → α → Bool} {x y : α} {xs : List α} :
    y ∈ insertBy before x xs ↔ y = x ∨ y ∈ xs := by
  induction xs with
  | nil => simp [insertBy]
  | cons z rest ih =>
      rw [insertBy]
      split
      next => rw [List.mem_cons]
      next => rw [List.mem_cons, ih, List.mem_cons, or_left_comm]

theorem mem_sortBy {before : α → α → Bool} {y : α} {xs : List α} :
    y ∈ sortBy before xs ↔ y ∈ xs := by
  suffices h : ∀ sorted : List α,
      y ∈ xs.foldl (fun sorted x => insertBy before x sorted) sorted ↔ y ∈ sorted ∨ y ∈ xs by
    simpa [sortBy] using h []
  induction xs with
  | nil => simp
  | cons x rest ih =>
      intro sorted
      rw [List.foldl_cons, ih, mem_insertBy]
      simp
      grind

end ClojureBuild
