/-!
Readers: functions that take a value off the front of a text.

A reader gives the value and the rest of the text, or nothing when the text does not begin with what
it reads.  Repetition is bounded by the length of the text, because every round takes something.
-/

namespace ClojureBuild.Toml

/-- A function that reads a value off the front of a text. -/
abbrev Reader (α : Type) := List Char → Option (α × List Char)

namespace Reader

variable {α β : Type}

def char (test : Char → Bool) : Reader Char
  | c :: rest => if test c then some (c, rest) else none
  | [] => none

def exactly (c : Char) : Reader Unit
  | d :: rest => if c = d then some ((), rest) else none
  | [] => none

def word : List Char → Reader Unit
  | [], text => some ((), text)
  | c :: w, d :: text => if c = d then word w text else none
  | _ :: _, [] => none

/-- Reads the longest run of characters that pass a test; it may be empty. -/
def run (test : Char → Bool) : Reader (List Char) := fun text =>
  some (text.takeWhile test, text.dropWhile test)

def either (p q : Reader α) : Reader α := fun text =>
  match p text with
  | some result => some result
  | none => q text

def optional (p : Reader α) : Reader (Option α) := fun text =>
  match p text with
  | some (a, rest) => some (some a, rest)
  | none => some (none, text)

/-- Reads as often as possible, at most the given number of times. -/
def manyUpTo (p : Reader α) : Nat → Reader (List α)
  | 0, text => some ([], text)
  | n + 1, text =>
      match p text with
      | none => some ([], text)
      | some (a, rest) =>
          match manyUpTo p n rest with
          | none => none
          | some (as, rest) => some (a :: as, rest)

def many (p : Reader α) : Reader (List α) := fun text => manyUpTo p text.length text

/-- Reads items with a separator between neighbours; there may be none.  A separator that no item
follows is not read. -/
def separated (item : Reader α) (sep : Reader Unit) : Reader (List α) := fun text =>
  match item text with
  | none => some ([], text)
  | some (a, rest) =>
      let next : Reader α := fun text =>
        match sep text with
        | none => none
        | some (_, text) => item text
      match many next rest with
      | none => none
      | some (as, rest) => some (a :: as, rest)

/-- One or more items with a separator between neighbours. -/
def separatedSome (item : Reader α) (sep : Reader Unit) : Reader (List α) := fun text =>
  match separated item sep text with
  | some ([], _) => none
  | result => result

end Reader

end ClojureBuild.Toml
