/-
  WireForm.Binary64

  Finite binary64 numbers, as a sign and a place in the order of magnitudes.

  Every operation is exact integer arithmetic: a magnitude is a whole number of
  units of 2^-1074, and a quotient of two such numbers is rounded once, to the
  nearest magnitude, a tie to the even one. Nothing here depends on machine
  floating point, so closed instances reduce in the kernel.
-/

namespace WireForm

/-- A finite binary64 number. `ordinal` counts the magnitudes below it, so it is
    also the number's bit pattern without the sign, and lies below that of infinity. -/
structure Binary64 where
  negative : Bool
  ordinal : Nat
  finite : ordinal < 0x7FF0000000000000
deriving DecidableEq

namespace Binary64

/-! ## Magnitudes -/

/-- How many magnitudes a binade has. -/
def binadeSize : Nat := 0x10000000000000

/-- The magnitude with the given ordinal, in units of 2^-1074. -/
def unitsOf (ordinal : Nat) : Nat :=
  let binade := ordinal / binadeSize
  let fraction := ordinal % binadeSize
  if binade = 0 then fraction else (binadeSize + fraction) <<< (binade - 1)

/-- The magnitude of `x`, in units of 2^-1074. -/
def units (x : Binary64) : Nat := unitsOf x.ordinal

/-- A quotient rounded to the nearest whole number, a tie to the even one. -/
def roundDiv (num den : Nat) : Nat :=
  let q := num / den
  let r := num % den
  if 2 * r < den then q
  else if den < 2 * r then q + 1
  else if q % 2 = 0 then q else q + 1

/-- The ordinal of the magnitude nearest to `num / den` units, a tie to the even
    ordinal. Ordinals past the finite range stand for overflow. -/
def nearestOrdinal (num den : Nat) : Nat :=
  let shift := Nat.log2 (num / den) - 52
  shift * binadeSize + roundDiv num (den <<< shift)

/-- The number with this sign and ordinal, unless it overflows. -/
def ofOrdinal? (negative : Bool) (ordinal : Nat) : Option Binary64 :=
  if h : ordinal < 0x7FF0000000000000 then some ⟨negative, ordinal, h⟩ else none

/-- The number nearest to `num / den` units, unless it overflows. -/
def ofUnits? (negative : Bool) (num den : Nat) : Option Binary64 :=
  ofOrdinal? negative (nearestOrdinal num den)

/-! ## Arithmetic -/

/-- Positive zero. -/
def zero : Binary64 := ⟨false, 0, by decide⟩

/-- The same magnitude with the other sign. -/
def neg (x : Binary64) : Binary64 := { x with negative := !x.negative }

/-- The number nearest to a natural number, unless it overflows. -/
def ofNat? (n : Nat) : Option Binary64 := ofUnits? false (n <<< 1074) 1

/-- The number nearest to an integer, unless it overflows. -/
def ofInt? (n : Int) : Option Binary64 := ofUnits? (decide (n < 0)) (n.natAbs <<< 1074) 1

/-- The product, rounded once, unless it overflows. -/
def mul? (x y : Binary64) : Option Binary64 :=
  ofUnits? (x.negative != y.negative) (x.units * y.units) (1 <<< 1074)

/-- The quotient by a nonzero number, rounded once, unless it overflows. -/
def div? (x y : Binary64) : Option Binary64 :=
  ofUnits? (x.negative != y.negative) (x.units <<< 1074) y.units

/-- Equality of values: the two zeros are equal. -/
def same (x y : Binary64) : Bool :=
  x.ordinal == y.ordinal && (x.negative == y.negative || x.ordinal == 0)

theorem same_refl (x : Binary64) : x.same x = true := by simp [same]

/-! ## Powers of ten -/

/-- The number nearest to 10^k, unless it overflows. -/
def powTen? (k : Nat) : Option Binary64 := ofNat? (Nat.pow 10 k)

/-- Divides by the power of ten 10^308 up to `times` times; zero stays zero. -/
def shrink : Nat → Binary64 → Option Binary64
  | 0, x => some x
  | times + 1, x =>
    if x.ordinal = 0 then some x
    else do shrink times (← x.div? (← powTen? 308))

/-- Multiplies by a power of ten of any exponent, rounding at every step: one
    product for exponents up to 308, one quotient for exponents down to -308, and
    a further quotient by 10^308 for each 308 below that. -/
def scaleTen? (x : Binary64) : Int → Option Binary64
  | .ofNat e =>
    if e ≤ 308 then do x.mul? (← powTen? e)
    else if x.ordinal = 0 then some x
    else none
  | .negSucc k => do
    let e := k + 1
    let times := (e - 1) / 308
    (← shrink times x).div? (← powTen? (e - 308 * times))

end Binary64

end WireForm
