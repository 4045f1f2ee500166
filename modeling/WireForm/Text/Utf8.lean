/-!
# UTF-8

Characters as bytes. Reading takes the longest valid beginning and says what is left,
so that a caller can tell where a text stops being valid.
-/

namespace WireForm.Text.Utf8

/-- The bytes of a list of characters. -/
def encode (chars : List Char) : List UInt8 := chars.flatMap String.utf8EncodeChar

/-- The bytes of a text. -/
def encodeText (text : String) : List UInt8 := encode text.toList

/-! ## One character -/

/-- Whether a byte continues a character. -/
def isTail (b : UInt8) : Bool := b.toNat / 64 == 2

/-- The character with a scalar value, unless a shorter form could hold it or the value
    is no scalar value. -/
def scalar? (least value : Nat) : Option Char :=
  if least ≤ value ∧ value.isValidChar then some (Char.ofNat value) else none

/-- A character of two bytes. -/
def two? (a b : UInt8) : Option Char :=
  if a.toNat / 32 = 6 ∧ isTail b then
    scalar? 0x80 (a.toNat % 32 * 64 + b.toNat % 64)
  else none

/-- A character of three bytes. -/
def three? (a b c : UInt8) : Option Char :=
  if a.toNat / 16 = 14 ∧ isTail b ∧ isTail c then
    scalar? 0x800 ((a.toNat % 16 * 64 + b.toNat % 64) * 64 + c.toNat % 64)
  else none

/-- A character of four bytes. -/
def four? (a b c d : UInt8) : Option Char :=
  if a.toNat / 8 = 30 ∧ isTail b ∧ isTail c ∧ isTail d then
    scalar? 0x10000
      (((a.toNat % 8 * 64 + b.toNat % 64) * 64 + c.toNat % 64) * 64 + d.toNat % 64)
  else none

/-! ## Texts -/

/-- Reads characters as long as they are valid; `read` holds those before, last first.
    The second part is what follows the longest valid beginning. -/
def decodeFrom (read : List Char) : List UInt8 → List Char × List UInt8
  | [] => (read.reverse, [])
  | a :: afterA =>
    if a.toNat < 0x80 then decodeFrom (Char.ofNat a.toNat :: read) afterA
    else
      match afterA with
      | [] => (read.reverse, [a])
      | b :: afterB =>
        match two? a b with
        | some char => decodeFrom (char :: read) afterB
        | none =>
          match afterB with
          | [] => (read.reverse, [a, b])
          | c :: afterC =>
            match three? a b c with
            | some char => decodeFrom (char :: read) afterC
            | none =>
              match afterC with
              | [] => (read.reverse, [a, b, c])
              | d :: afterD =>
                match four? a b c d with
                | some char => decodeFrom (char :: read) afterD
                | none => (read.reverse, a :: b :: c :: d :: afterD)

/-- The characters of the longest valid beginning, and the bytes after it. -/
def decode (bytes : List UInt8) : List Char × List UInt8 := decodeFrom [] bytes

end WireForm.Text.Utf8
