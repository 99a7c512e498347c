/-!
Texts of bytes.

What processes read and write are bytes, and so are the names of files; neither need be text.  An
*octet text* holds bytes as characters below 256, one for each, so that the operations on strings
serve for bytes as well.
-/

namespace ClojureBuild

/-- A name or an argument as the system keeps it: an octet text, which need not be UTF-8. -/
abbrev OsText := String

namespace Octets

def ofBytes (bytes : ByteArray) : OsText :=
  String.ofList (bytes.toList.map fun b => Char.ofNat b.toNat)

def toBytes (octets : OsText) : ByteArray :=
  ⟨(octets.toList.map fun c => UInt8.ofNat c.toNat).toArray⟩

def encodeChar (c : Char) : List Char :=
  (String.utf8EncodeChar c).map fun b => Char.ofNat b.toNat

def ofText (text : String) : OsText :=
  if text.toList.all (·.toNat < 128) then text
  else String.ofList (text.toList.flatMap encodeChar)

/-- What is expected after the first bytes of a character: how many bytes, the range of the next
one, and the number that was read so far. -/
structure Expected where
  missing : Nat
  least : Nat
  greatest : Nat
  value : Nat
deriving DecidableEq, Repr

/-- What the first byte of a longer character says about the bytes behind it. -/
def expected? (b : Nat) : Option Expected :=
  if 0xc2 ≤ b && b ≤ 0xdf then some ⟨1, 0x80, 0xbf, b % 32⟩
  else if b = 0xe0 then some ⟨2, 0xa0, 0xbf, 0⟩
  else if b = 0xed then some ⟨2, 0x80, 0x9f, 13⟩
  else if 0xe1 ≤ b && b ≤ 0xef then some ⟨2, 0x80, 0xbf, b % 16⟩
  else if b = 0xf0 then some ⟨3, 0x90, 0xbf, 0⟩
  else if b = 0xf4 then some ⟨3, 0x80, 0x8f, 4⟩
  else if 0xf1 ≤ b && b ≤ 0xf3 then some ⟨3, 0x80, 0xbf, b % 8⟩
  else none

/-- A piece of what bytes write: a character, or bytes that write none. -/
abbrev Piece := Char ⊕ List Nat

/-- A byte at the start of a character: what it is alone, or what has to follow. -/
def begin? (b : Nat) : Piece ⊕ Expected :=
  if b < 128 then .inl (.inl (Char.ofNat b))
  else
    match expected? b with
    | some e => .inr e
    | none => .inl (.inr [b])

/-- The pieces that bytes write, behind the first bytes of a character, if there are any.  A
character that breaks off is one piece. -/
def decode : Option (List Nat × Expected) → List Nat → List Piece
  | none, [] => []
  | some (front, _), [] => [.inr front]
  | none, b :: rest =>
      match begin? b with
      | .inl piece => piece :: decode none rest
      | .inr e => decode (some ([b], e)) rest
  | some (front, e), b :: rest =>
      if e.least ≤ b && b ≤ e.greatest then
        let value := e.value * 64 + b % 64
        if e.missing = 1 then .inl (Char.ofNat value) :: decode none rest
        else decode (some (front ++ [b], ⟨e.missing - 1, 0x80, 0xbf, value⟩)) rest
      else
        .inr front ::
          (match begin? b with
           | .inl piece => piece :: decode none rest
           | .inr e => decode (some ([b], e)) rest)

def pieces (octets : OsText) : List Piece := decode none (octets.toList.map Char.toNat)

/-- The stand-in for bytes that write no character. -/
def replacement : Char := Char.ofNat 0xfffd

/-- The text that octets write, with a stand-in for each piece that is no character. -/
def toText (octets : OsText) : String :=
  if octets.toList.all (·.toNat < 128) then octets
  else String.ofList ((pieces octets).map (Sum.elim id fun _ => replacement))

def text? (octets : OsText) : Option String :=
  if ofText (toText octets) = octets then some (toText octets) else none

def isText (octets : OsText) : Bool := (text? octets).isSome

example : toText (ofText "aé€😀") = "aé€😀" := by decide +kernel
example : toText "\xe9x\xe2\x82" = "\uFFFDx\uFFFD" := by decide +kernel
example : text? (ofText "é") = some "é" ∧ text? "\xe9" = none := by decide +kernel

end Octets

end ClojureBuild
