import WireForm.Json.Reading
import WireForm.Number

/-!
# Reading numbers

Digits are gathered into a 64-bit significand for as long as they fit; the digits after
that only shift the decimal exponent. A number without fraction or exponent that fits
an integer stays one; any other becomes a binary64 number by scaling the significand
with powers of ten, which rounds at every step.
-/

namespace WireForm.Json

/-- The largest significand. -/
def maxSignificand : Nat := 0xFFFFFFFFFFFFFFFF

/-- The largest explicit exponent. -/
def maxExponent : Nat := 0x7FFFFFFF

/-- Gathers digits while the significand stays within a bound. Gives the significand,
    how many digits were gathered and the rest. -/
def gather (bound : Nat) : Nat → Nat → List UInt8 → Nat × Nat × List UInt8
  | significand, count, [] => (significand, count, [])
  | significand, count, b :: rest =>
    match digit? b with
    | none => (significand, count, b :: rest)
    | some d =>
      if significand * 10 + d ≤ bound then gather bound (significand * 10 + d) (count + 1) rest
      else (significand, count, b :: rest)

/-- Whether the next byte is a digit. -/
def startsWithDigit : List UInt8 → Bool
  | [] => false
  | b :: _ => (digit? b).isSome

/-- Passes over digits and counts them. -/
def skipDigits : Nat → List UInt8 → Nat × List UInt8
  | count, [] => (count, [])
  | count, b :: rest =>
    if (digit? b).isSome then skipDigits (count + 1) rest else (count, b :: rest)

/-- The binary64 number of a significand and a decimal exponent. -/
def floatOf (negative : Bool) (significand : Nat) (exponent : Int) (rest : List UInt8) :
    Except Stop (After Number) :=
  match (Binary64.ofNat? significand).bind (·.scaleTen? exponent) with
  | some x => .ok (.float { x with negative := negative }, rest)
  | none => Stop.here .numberOutOfRange rest

/-- Reads what follows the `e` of an exponent part. An exponent too long to hold makes a
    zero of a zero significand or a negative exponent, and is out of range otherwise. -/
def readExponent (negative : Bool) (significand : Nat) (exponent : Int) (text : List UInt8) :
    Except Stop (After Number) :=
  let (down, digits) :=
    match text with
    | 0x2B :: rest => (false, rest)
    | 0x2D :: rest => (true, rest)
    | rest => (false, rest)
  match digits with
  | [] => Stop.here .endInValue []
  | b :: rest =>
    match digit? b with
    | none => Stop.here .invalidNumber rest
    | some d =>
      let (explicit, _, rest) := gather maxExponent d 1 rest
      if startsWithDigit rest then
        if significand ≠ 0 ∧ !down then Stop.here .numberOutOfRange rest.tail
        else .ok (.float { Binary64.zero with negative := negative }, (skipDigits 0 rest).2)
      else
        floatOf negative significand
          (if down then exponent - explicit else exponent + explicit) rest

/-- Reads an exponent part, if there is one. -/
def readScale (negative : Bool) (significand : Nat) (exponent : Int) (text : List UInt8) :
    Except Stop (After Number) :=
  match text with
  | 0x65 :: rest => readExponent negative significand exponent rest
  | 0x45 :: rest => readExponent negative significand exponent rest
  | rest => floatOf negative significand exponent rest

/-- Reads what follows the point of a fraction. `exponent` counts the digits before the
    point that did not fit. -/
def readFraction (negative : Bool) (significand : Nat) (exponent : Nat) (text : List UInt8) :
    Except Stop (After Number) :=
  let (significand, count, rest) := gather maxSignificand significand 0 text
  let scale : Int := exponent - count
  if startsWithDigit rest then
    readScale negative significand scale (skipDigits 0 rest).2
  else if count = 0 then
    match rest with
    | [] => Stop.here .endInValue []
    | _ => Stop.peek .invalidNumber rest
  else readScale negative significand scale rest

/-- The number of a digit string without fraction and exponent. A negative zero and an
    integer outside the range are binary64 numbers. -/
def wholeNumber (negative : Bool) (significand : Nat) (rest : List UInt8) :
    Except Stop (After Number) :=
  let value : Int := if negative then -significand else significand
  if h : (-0x8000000000000000 ≤ value ∧ value < 0x10000000000000000) ∧
      ¬(negative ∧ significand = 0) then
    .ok (.int value h.1, rest)
  else floatOf negative significand 0 rest

/-- Reads a number after its sign. -/
def readUnsigned (negative : Bool) (text : List UInt8) : Except Stop (After Number) :=
  match text with
  | [] => Stop.here .endInValue []
  | b :: rest =>
    match digit? b with
    | none => Stop.here .invalidNumber rest
    | some 0 =>
      match rest with
      | 0x2E :: rest => readFraction negative 0 0 rest
      | 0x65 :: rest => readExponent negative 0 0 rest
      | 0x45 :: rest => readExponent negative 0 0 rest
      | rest =>
        if startsWithDigit rest then Stop.peek .invalidNumber rest
        else wholeNumber negative 0 rest
    | some d =>
      let (significand, _, rest) := gather maxSignificand d 1 rest
      let (dropped, rest) := skipDigits 0 rest
      match rest with
      | 0x2E :: rest => readFraction negative significand dropped rest
      | 0x65 :: rest => readExponent negative significand dropped rest
      | 0x45 :: rest => readExponent negative significand dropped rest
      | rest =>
        if dropped = 0 then wholeNumber negative significand rest
        else floatOf negative significand dropped rest

/-- Reads a number. -/
def readNumber (text : List UInt8) : Except Stop (After Number) :=
  match text with
  | 0x2D :: rest => readUnsigned true rest
  | rest => readUnsigned false rest

end WireForm.Json
