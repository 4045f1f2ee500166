import WireForm.Binary64.Shortest

/-!
# Wire numbers

A wire number is an integer or a finite binary64 number, and stays what it was
written as: the integer 1 and the number 1.0 are different numbers.
-/

namespace WireForm

/-- A wire number. Integers span the unsigned and the signed 64-bit range. -/
inductive Number where
  | int (value : Int)
      (inRange : -0x8000000000000000 ≤ value ∧ value < 0x10000000000000000)
  | float (value : Binary64)
deriving DecidableEq

namespace Number

/-- A small natural number as a wire number. -/
def ofNat (n : Nat) (h : n < 0x10000000000000000 := by decide) : Number := .int n (by omega)

/-- The nearest binary64 number. It exists for every wire number: integers of 64
    bits are far from overflow. -/
def toBinary64? : Number → Option Binary64
  | .int value _ => Binary64.ofInt? value
  | .float value => some value

/-- Equality of wire numbers: integers by value, floats by value, and never an
    integer and a float. -/
def same : Number → Number → Bool
  | .int a _, .int b _ => a == b
  | .float a, .float b => a.same b
  | _, _ => false

/-- The decimal text of an integer. -/
def intText (value : Int) : List Char :=
  if value < 0 then '-' :: Nat.toDigits 10 value.natAbs else Nat.toDigits 10 value.natAbs

/-- The text of a number, which shows whether it is an integer. -/
def text : Number → List Char
  | .int value _ => intText value
  | .float value => value.text

theorem same_refl (n : Number) : n.same n = true := by
  cases n with
  | int => simp [same]
  | float x => exact x.same_refl

end Number

end WireForm
