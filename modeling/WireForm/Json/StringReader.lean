import WireForm.Json.Reading
import WireForm.Text.Utf8

/-!
# Reading strings

Escapes are resolved first and give bytes; whether all bytes together are a valid text is
decided at the closing quote.
-/

namespace WireForm.Json

/-- The byte a one-letter escape stands for. -/
def simpleEscape? (letter : UInt8) : Option UInt8 :=
  if letter = 0x22 then some 0x22
  else if letter = 0x5C then some 0x5C
  else if letter = 0x2F then some 0x2F
  else if letter = 0x62 then some 0x08
  else if letter = 0x66 then some 0x0C
  else if letter = 0x6E then some 0x0A
  else if letter = 0x72 then some 0x0D
  else if letter = 0x74 then some 0x09
  else none

/-- Reads four hexadecimal digits. -/
def readHex : List UInt8 → Except Stop (After Nat)
  | a :: b :: c :: d :: rest =>
    match hexDigit? a, hexDigit? b, hexDigit? c, hexDigit? d with
    | some a, some b, some c, some d => .ok (((a * 16 + b) * 16 + c) * 16 + d, rest)
    | _, _, _, _ => Stop.here .invalidEscape rest
  | _ => Stop.here .endInString []

/-- Whether a 16-bit unit is the second half of a pair. -/
def isTrailing (unit : Nat) : Bool := 0xDC00 ≤ unit && unit ≤ 0xDFFF

/-- Whether a 16-bit unit is the first half of a pair. -/
def isLeading (unit : Nat) : Bool := 0xD800 ≤ unit && unit ≤ 0xDBFF

/-- Reads the second half of a pair, which must be written as an escape too. -/
def readTrailing (leading : Nat) (text : List UInt8) : Except Stop (After Char) :=
  match text with
  | [] => Stop.here .endInString []
  | b :: rest =>
    if b ≠ 0x5C then Stop.here .unpairedEscape rest
    else
      match rest with
      | [] => Stop.here .endInString []
      | b :: rest =>
        if b ≠ 0x75 then Stop.here .unpairedEscape rest
        else do
          let (unit, rest) ← readHex rest
          if isTrailing unit then
            .ok (Char.ofNat (0x10000 + (leading - 0xD800) * 0x400 + (unit - 0xDC00)), rest)
          else Stop.here .loneSurrogate rest

/-- Reads the character of a numeric escape after its `u`. -/
def readCodeUnits (text : List UInt8) : Except Stop (After Char) := do
  let (unit, rest) ← readHex text
  if isTrailing unit then Stop.here .loneSurrogate rest
  else if isLeading unit then readTrailing unit rest
  else .ok (Char.ofNat unit, rest)

/-- Reads an escape after its backslash and gives the bytes it stands for. -/
def readEscape (text : List UInt8) : Except Stop (After (List UInt8)) :=
  match text with
  | [] => Stop.here .endInString []
  | letter :: rest =>
    match simpleEscape? letter with
    | some b => .ok ([b], rest)
    | none =>
      if letter = 0x75 then do
        let (char, rest) ← readCodeUnits rest
        .ok (String.utf8EncodeChar char, rest)
      else Stop.here .invalidEscape rest

/-- Reads up to the closing quote and gives the bytes of the content. `read` holds the
    bytes before, last first. The first list bounds the steps: it loses a byte at each, and
    the text loses at least one. -/
def readContent : List UInt8 → List UInt8 → List UInt8 → Except Stop (After (List UInt8))
  | [], _, _ => Stop.here .endInString []
  | _ :: _, _, [] => Stop.here .endInString []
  | _ :: steps, read, b :: rest =>
    if b = 0x22 then .ok (read.reverse, rest)
    else if b = 0x5C then do
      let (bytes, rest) ← readEscape rest
      readContent steps (bytes.reverse ++ read) rest
    else if b < 0x20 then Stop.here .controlCharacter rest
    else readContent steps (b :: read) rest

/-- Reads a string after its opening quote. Bytes that are no valid text are reported as
    many columns before the closing quote as there are bytes after the valid beginning. -/
def readString (text : List UInt8) : Except Stop (After String) := do
  let (bytes, rest) ← readContent text [] text
  let (chars, invalid) := Text.Utf8.decode bytes
  if invalid.isEmpty then .ok (String.ofList chars, rest)
  else .error ⟨.invalidCodePoint, rest.length, invalid.length⟩

end WireForm.Json
