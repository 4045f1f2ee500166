import WireForm.Json.Fault

/-!
# Reading a text from the left

A reader takes the unread bytes and gives what it read and the bytes after it. When it
stops at a problem it says how many bytes were unread there, from which the place in the
whole text follows.
-/

namespace WireForm.Json

/-- A problem, the number of bytes unread when it was noticed, and how many columns
    before that place it is reported. -/
structure Stop where
  problem : Problem
  unread : Nat
  back : Nat
deriving DecidableEq

/-- What was read and the bytes after it. -/
abbrev After (α : Type) := α × List UInt8

/-- A problem noticed after the bytes read so far. -/
def Stop.here {α : Type} (problem : Problem) (rest : List UInt8) : Except Stop α :=
  .error ⟨problem, rest.length, 0⟩

/-- A problem with the next byte: its place counts as passed. At the end of the text
    there is none to count. -/
def Stop.peek {α : Type} (problem : Problem) (rest : List UInt8) : Except Stop α :=
  .error ⟨problem, rest.length - 1, 0⟩

/-- The fault of a stop within a text. -/
def Stop.fault (text : List UInt8) (stop : Stop) : Fault :=
  let place := Position.after (text.take (text.length - stop.unread))
  ⟨stop.problem, { place with column := place.column - stop.back }⟩

/-! ## Bytes -/

/-- Space, tab, newline and carriage return. -/
def isBlank (b : UInt8) : Bool := b == 0x20 || b == 0x09 || b == 0x0A || b == 0x0D

/-- Skips blanks. -/
def skipBlanks (text : List UInt8) : List UInt8 := text.dropWhile isBlank

/-- The value of a decimal digit. -/
def digit? (b : UInt8) : Option Nat :=
  if 0x30 ≤ b ∧ b ≤ 0x39 then some (b.toNat - 0x30) else none

/-- The value of a hexadecimal digit of either case. -/
def hexDigit? (b : UInt8) : Option Nat :=
  if 0x30 ≤ b ∧ b ≤ 0x39 then some (b.toNat - 0x30)
  else if 0x61 ≤ b ∧ b ≤ 0x66 then some (b.toNat - 0x61 + 10)
  else if 0x41 ≤ b ∧ b ≤ 0x46 then some (b.toNat - 0x41 + 10)
  else none

/-- Reads the given letters, noticing a wrong one after it was read. -/
def readWord : List UInt8 → List UInt8 → Except Stop (After Unit)
  | [], rest => .ok ((), rest)
  | _ :: _, [] => Stop.here .endInValue []
  | letter :: letters, b :: rest =>
    if b = letter then readWord letters rest else Stop.here .expectedIdent rest

end WireForm.Json
