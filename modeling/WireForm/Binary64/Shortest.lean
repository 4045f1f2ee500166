import WireForm.Binary64

/-!
# Shortest decimal text of a binary64 number

A magnitude is written with the fewest decimal digits that read back to it; of
several such numerals the one nearest to the exact value is taken, a tie going to
the even last digit. How the digits are laid out is a separate decision, kept in
`Layout`.
-/

namespace WireForm.Binary64

/-! ## Selecting the digits -/

/-- The decimal number `significand * 10 ^ exponent`. -/
structure Decimal where
  significand : Nat
  exponent : Int
deriving DecidableEq

/-- `10 ^ exponent` as a numerator and a denominator. -/
def tenPower : Int → Nat × Nat
  | .ofNat e => (Nat.pow 10 e, 1)
  | .negSucc k => (1, Nat.pow 10 (k + 1))

/-- The ordinal that the decimal number is rounded to. -/
def Decimal.ordinal (d : Decimal) : Nat :=
  let (num, den) := tenPower d.exponent
  nearestOrdinal ((d.significand * num) <<< 1074) den

/-- The exponent of the first significant decimal digit of a nonzero magnitude.
    The scale 10^400 is finer than the smallest magnitude. -/
def leadingExponent (ordinal : Nat) : Int :=
  ((Nat.toDigits 10 (unitsOf ordinal * Nat.pow 10 400 / (1 <<< 1074))).length : Int) - 401

/-- Of the two multiples of `10 ^ exponent` around a magnitude, the one that reads
    back to it; of two, the nearer, and of two equally near ones the even one. -/
def readsBackAt? (ordinal : Nat) (exponent : Int) : Option Decimal :=
  let (num, den) := tenPower exponent
  let scaled := unitsOf ordinal * den
  let unit := num <<< 1074
  let below : Decimal := ⟨scaled / unit, exponent⟩
  let above : Decimal := ⟨scaled / unit + 1, exponent⟩
  let nearer := if roundDiv scaled unit = below.significand then below else above
  let farther := if roundDiv scaled unit = below.significand then above else below
  if nearer.ordinal = ordinal then some nearer
  else if farther.ordinal = ordinal then some farther
  else none

/-- The shortest decimal number that reads back to a nonzero magnitude. Seventeen
    digits always suffice. -/
def shortest (ordinal : Nat) : Decimal :=
  let leading := leadingExponent ordinal
  ((List.range 17).findSome? fun (k : Nat) => readsBackAt? ordinal (leading - (k : Int))).getD
    ⟨unitsOf ordinal, -1074⟩

/-! ## Laying the digits out -/

/-- How a decimal number is written: which exponents of the first digit are written
    without an exponent part. -/
structure Layout where
  leastPlain : Int
  greatestPlain : Int

/-- Numbers from 0.00001 up to below 10^16 are written plainly. -/
def plainRange : Layout := ⟨-5, 15⟩

/-- The digits of a significand without the zeros at its end. -/
def significantDigits (significand : Nat) : List Char :=
  ((Nat.toDigits 10 significand).reverse.dropWhile (· == '0')).reverse

/-- Plain notation, with at least one digit on either side of the point. -/
def plainText (digits : List Char) (exponent : Int) : List Char :=
  match exponent with
  | .ofNat e =>
    let whole := digits.take (e + 1)
    let fraction := digits.drop (e + 1)
    whole ++ List.replicate (e + 1 - whole.length) '0' ++
      '.' :: (if fraction.isEmpty then ['0'] else fraction)
  | .negSucc k => '0' :: '.' :: List.replicate k '0' ++ digits

/-- Notation with an exponent part whose sign is always written. -/
def exponentText (digits : List Char) (exponent : Int) : List Char :=
  let mantissa :=
    match digits with
    | first :: second :: rest => first :: '.' :: second :: rest
    | _ => digits
  let sign := if exponent < 0 then '-' else '+'
  mantissa ++ 'e' :: sign :: Nat.toDigits 10 exponent.natAbs

/-- The text of a magnitude. -/
def magnitudeText (layout : Layout) (ordinal : Nat) : List Char :=
  if ordinal = 0 then "0.0".toList
  else
    let d := shortest ordinal
    let exponent := d.exponent + ((Nat.toDigits 10 d.significand).length : Int) - 1
    let digits := significantDigits d.significand
    if layout.leastPlain ≤ exponent ∧ exponent ≤ layout.greatestPlain then
      plainText digits exponent
    else exponentText digits exponent

/-- The text of a number: a zero keeps its sign. -/
def text (x : Binary64) : List Char :=
  if x.negative then '-' :: magnitudeText plainRange x.ordinal
  else magnitudeText plainRange x.ordinal

end WireForm.Binary64
