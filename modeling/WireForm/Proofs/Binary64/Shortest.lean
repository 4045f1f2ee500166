import Mathlib.Algebra.Order.Field.Basic
import Mathlib.Data.Rat.Cast.Order
import Mathlib.Tactic.FieldSimp
import Mathlib.Tactic.Positivity
import WireForm.Proofs.Binary64.Scaling

/-!
# The shortest decimal number

Seventeen digits tell every magnitude from its neighbours: a multiple of a power of ten that has
so many digits is closer to the magnitude than half a step. So the search for the fewest digits
always ends with a decimal number that is rounded to the magnitude.
-/

namespace WireForm.Binary64

/-! ## Values of decimal numbers -/

/-- The exact value of a decimal number. -/
def Decimal.value (d : Decimal) : ℚ := d.significand * 10 ^ d.exponent

theorem tenPower_pos (e : Int) : 0 < (tenPower e).2 := by
  cases e with
  | ofNat k => exact Nat.one_pos
  | negSucc k => exact Nat.pow_pos (by decide)

theorem tenPower_eq (e : Int) : ((tenPower e).1 : ℚ) = 10 ^ e * (tenPower e).2 := by
  cases e with
  | ofNat k => simp [tenPower]
  | negSucc k => simp [tenPower, zpow_negSucc]

theorem Decimal.ordinal_eq (d : Decimal) :
    d.ordinal = nearestOrdinal (d.significand * (tenPower d.exponent).1 * oneUnits)
      (tenPower d.exponent).2 := by
  rw [← shiftLeft_1074]
  rfl

theorem Decimal.value_eq (d : Decimal) :
    ((d.significand * (tenPower d.exponent).1 * oneUnits : ℕ) : ℚ) =
      d.value * oneUnits * (tenPower d.exponent).2 := by
  push_cast
  rw [tenPower_eq, value]
  ring

/-- Decimal numbers of the same value are rounded alike. -/
theorem Decimal.ordinal_congr {d d' : Decimal} (h : d.value = d'.value) :
    d.ordinal = d'.ordinal := by
  rw [d.ordinal_eq, d'.ordinal_eq]
  refine nearestOrdinal_congr (tenPower_pos _) (tenPower_pos _) ?_
  have hcast : ((d.significand * (tenPower d.exponent).1 * oneUnits * (tenPower d'.exponent).2 :
      ℕ) : ℚ) = (d'.significand * (tenPower d'.exponent).1 * oneUnits * (tenPower d.exponent).2 :
      ℕ) := by
    rw [Nat.cast_mul, Nat.cast_mul _ (tenPower d.exponent).2, d.value_eq, d'.value_eq, h]
    ring
  exact_mod_cast hcast

/-- A decimal number between the midpoints around a magnitude is rounded to it. -/
theorem Decimal.ordinal_eq_of_between {d : Decimal} {n : Nat}
    (hbelow : (unitsOf n + unitsOf (n + 1) : ℚ) < 2 * (d.value * oneUnits))
    (habove : 2 * (d.value * oneUnits) < (unitsOf (n + 1) + unitsOf (n + 2) : ℚ)) :
    d.ordinal = n + 1 := by
  have hden : (0 : ℚ) < (tenPower d.exponent).2 := Nat.cast_pos.mpr (tenPower_pos _)
  have hnum := d.value_eq
  rw [d.ordinal_eq]
  refine nearestOrdinal_eq (tenPower_pos _) (.inr ?_) ?_
  · have hcast := mul_lt_mul_of_pos_right hbelow hden
    rw [mul_assoc 2, ← hnum] at hcast
    exact_mod_cast hcast
  · have hcast := mul_lt_mul_of_pos_right habove hden
    rw [mul_assoc 2, ← hnum] at hcast
    exact_mod_cast hcast

/-! ## The first digit -/

/-- The number of digits of a positive number is one more than the exponent of its first digit. -/
theorem toDigits_bounds {n : Nat} (h : 0 < n) :
    10 ^ ((Nat.toDigits 10 n).length - 1) ≤ n ∧ n < 10 ^ (Nat.toDigits 10 n).length := by
  have hlen : 0 < (Nat.toDigits 10 n).length := Nat.length_toDigits_pos
  refine ⟨?_, (Nat.length_toDigits_le_iff (by decide) hlen).mp (Nat.le_refl _)⟩
  refine Nat.not_lt.mp fun hlt => ?_
  by_cases hone : (Nat.toDigits 10 n).length = 1
  · rw [hone] at hlt
    simp at hlt
    omega
  · have hle := (Nat.length_toDigits_le_iff (by decide) (by omega)).mpr hlt
    omega

theorem tenTo_cast (k : Nat) : ((tenTo k : ℕ) : ℚ) = 10 ^ (k : Int) := by
  rw [tenTo, zpow_natCast]
  push_cast
  rfl

/-- A power of ten with the scale of the first digit taken off. -/
theorem zpow_mul_tenTo {length : Nat} (h : 0 < length) (scale : Nat) :
    (10 : ℚ) ^ ((length : Int) - (scale + 1)) * tenTo scale = (10 ^ (length - 1) : ℕ) := by
  obtain ⟨k, rfl⟩ := Nat.exists_eq_add_one_of_ne_zero h.ne'
  have hexp : ((k + 1 : ℕ) : Int) - (scale + 1) = k - scale := by
    push_cast
    ring
  rw [hexp, tenTo_cast, ← zpow_add₀ (by norm_num), sub_add_cancel, zpow_natCast, Nat.add_sub_cancel]
  push_cast
  rfl

/-- A quotient that is not too small lies between the powers of ten around its first digit, as it
    is found on a finer scale. -/
theorem first_digit_spec {units one scale length : Nat} (hone : 0 < one)
    (hscaled : one ≤ units * tenTo scale)
    (hlength : (Nat.toDigits 10 (units * tenTo scale / one)).length = length) :
    (10 : ℚ) ^ ((length : Int) - (scale + 1)) * one ≤ units ∧
      (units : ℚ) < 10 ^ ((length : Int) - (scale + 1) + 1) * one := by
  -- The quotient is known up to a remainder, which does not reach the next power of ten.
  have hlow := Nat.div_mul_le_self (units * tenTo scale) one
  have hhigh := Nat.lt_mul_div_succ (units * tenTo scale) hone
  obtain ⟨hfirst, hnext⟩ := toDigits_bounds (Nat.div_pos hscaled hone)
  have hlen : 0 < (Nat.toDigits 10 (units * tenTo scale / one)).length := Nat.length_toDigits_pos
  rw [hlength] at hfirst hnext hlen
  have hten : (0 : ℚ) < tenTo scale := Nat.cast_pos.mpr (Nat.pow_pos (by decide))
  constructor
  · have hnat : 10 ^ (length - 1) * one ≤ units * tenTo scale :=
      Nat.le_trans (Nat.mul_le_mul_right _ hfirst) hlow
    refine le_of_mul_le_mul_right ?_ hten
    rw [mul_right_comm, zpow_mul_tenTo hlen]
    exact_mod_cast hnat
  · have hnat : units * tenTo scale < 10 ^ (length + 1 - 1) * one := by
      rw [Nat.mul_comm _ one]
      exact Nat.lt_of_lt_of_le hhigh (Nat.mul_le_mul_left _ hnext)
    have hexp : (length : Int) - (scale + 1) + 1 = (length + 1 : ℕ) - (scale + 1) := by
      push_cast
      ring
    refine lt_of_mul_lt_mul_right ?_ hten.le
    rw [hexp, mul_right_comm, zpow_mul_tenTo (Nat.succ_pos length)]
    exact_mod_cast hnat

theorem leadingExponent_eq (n : Nat) :
    leadingExponent n =
      ((Nat.toDigits 10 (unitsOf n * tenTo 400 / oneUnits)).length : Int) - ((400 : ℕ) + 1) := by
  have hpow (k : Nat) : Nat.pow 10 k = tenTo k := rfl
  simp only [leadingExponent, hpow]
  rfl

theorem oneUnits_le_tenTo : oneUnits ≤ tenTo 400 := by decide +kernel

/-- A magnitude lies between the powers of ten around its first digit. -/
theorem leadingExponent_spec {n : Nat} (h : 0 < n) :
    (10 : ℚ) ^ leadingExponent n * oneUnits ≤ unitsOf n ∧
      (unitsOf n : ℚ) < 10 ^ (leadingExponent n + 1) * oneUnits := by
  rw [leadingExponent_eq]
  refine first_digit_spec oneUnits_pos ?_ rfl
  exact Nat.le_trans oneUnits_le_tenTo (Nat.le_mul_of_pos_left _ (unitsOf_strictMono h))

theorem leadingExponent_range {n : Nat} (h : 0 < n) (hfinite : n ≤ largest) :
    -400 ≤ leadingExponent n ∧ leadingExponent n ≤ 308 := by
  constructor
  · have hlen : 0 < (Nat.toDigits 10 (unitsOf n * tenTo 400 / oneUnits)).length :=
      Nat.length_toDigits_pos
    rw [leadingExponent_eq]
    omega
  · refine Int.not_lt.mp fun hlt => ?_
    have hone : (0 : ℚ) < oneUnits := Nat.cast_pos.mpr oneUnits_pos
    have hunits : unitsOf n < tenTo 309 * oneUnits := by
      have hn := unitsOf_strictMono.monotone hfinite
      have hnext := unitsOf_strictMono (Nat.lt_add_one largest)
      have hover := overflowUnits_lt
      unfold overflowUnits at hover
      omega
    have hpow : (10 : ℚ) ^ leadingExponent n < tenTo 309 := by
      refine lt_of_mul_lt_mul_right (lt_of_le_of_lt (leadingExponent_spec h).1 ?_) hone.le
      exact_mod_cast hunits
    rw [tenTo_cast] at hpow
    have := (zpow_lt_zpow_iff_right₀ (by norm_num)).mp hpow
    push_cast at this
    omega

/-! ## The search -/

theorem tenPower_units_pos (e : Int) : 0 < (tenPower e).1 <<< 1074 := by
  rw [shiftLeft_1074]
  refine Nat.mul_pos ?_ oneUnits_pos
  cases e with
  | ofNat k => exact Nat.pow_pos (by decide)
  | negSucc k => exact Nat.one_pos

theorem tenPower_units_eq (e : Int) :
    (((tenPower e).1 <<< 1074 : ℕ) : ℚ) = 10 ^ e * oneUnits * (tenPower e).2 := by
  rw [shiftLeft_1074]
  push_cast
  rw [tenPower_eq]
  ring

/-- The multiple of a power of ten that is nearest to a magnitude is found if it is rounded to it. -/
theorem readsBackAt?_isSome {n : Nat} {e : Int}
    (h : Decimal.ordinal ⟨roundDiv (unitsOf n * (tenPower e).2) ((tenPower e).1 <<< 1074), e⟩ = n) :
    (readsBackAt? n e).isSome := by
  obtain ⟨hlow, hhigh, -, -⟩ := roundDiv_spec (unitsOf n * (tenPower e).2) (tenPower_units_pos e)
  unfold readsBackAt?
  dsimp only
  split
  · next hbelow =>
    rw [hbelow] at h
    rw [if_pos h]
    rfl
  · next hbelow =>
    have habove : roundDiv (unitsOf n * (tenPower e).2) ((tenPower e).1 <<< 1074) =
        unitsOf n * (tenPower e).2 / (tenPower e).1 <<< 1074 + 1 := by omega
    rw [habove] at h
    rw [if_pos h]
    rfl

/-- What is found is rounded to the magnitude, and one step above it at most. -/
theorem readsBackAt?_spec {n : Nat} {e : Int} {d : Decimal} (h : readsBackAt? n e = some d) :
    d.ordinal = n ∧ d.exponent = e ∧
      d.significand ≤ unitsOf n * (tenPower e).2 / (tenPower e).1 <<< 1074 + 1 := by
  have hfound : ∀ {nearer farther : Decimal}, (if nearer.ordinal = n then some nearer
      else if farther.ordinal = n then some farther else none) = some d →
      d.ordinal = n ∧ (d = nearer ∨ d = farther) := by
    intro nearer farther hd
    split at hd
    · next hn =>
      obtain rfl := Option.some.inj hd
      exact ⟨hn, .inl rfl⟩
    split at hd
    · next hf =>
      obtain rfl := Option.some.inj hd
      exact ⟨hf, .inr rfl⟩
    · exact nomatch hd
  unfold readsBackAt? at h
  dsimp only at h
  split at h
  · obtain ⟨hd, rfl | rfl⟩ := hfound h
    · exact ⟨hd, rfl, Nat.le_succ _⟩
    · exact ⟨hd, rfl, Nat.le_refl _⟩
  · obtain ⟨hd, rfl | rfl⟩ := hfound h
    · exact ⟨hd, rfl, Nat.le_refl _⟩
    · exact ⟨hd, rfl, Nat.le_succ _⟩

/-- The step above a magnitude, in proportion to it. -/
theorem unitsOf_succ_le_step (n : Nat) :
    unitsOf (n + 1) ≤ 2 ^ 53 * (unitsOf (n + 1) - unitsOf n) := by
  obtain ⟨s, m, hsum, hlow, hhigh, hs⟩ := exists_binade n
  have hself : unitsOf n = m * 2 ^ s := by
    rw [hsum]
    exact unitsOf_add hlow hhigh.le
  rw [unitsOf_succ, ← hs, hself, Nat.add_sub_cancel_left, ← Nat.succ_mul]
  refine Nat.mul_le_mul_right _ ?_
  rw [binadeSize] at hhigh
  omega

/-- The nearest multiple of a power of ten is no more than half of it away. -/
theorem roundDiv_near {n m : Nat} {e : Int}
    (hm : roundDiv (unitsOf n * (tenPower e).2) ((tenPower e).1 <<< 1074) = m) :
    2 * (unitsOf n : ℚ) ≤ 2 * (Decimal.value ⟨m, e⟩ * oneUnits) + 10 ^ e * oneUnits ∧
      2 * (Decimal.value ⟨m, e⟩ * oneUnits) ≤ 2 * (unitsOf n : ℚ) + 10 ^ e * oneUnits := by
  have hden : (0 : ℚ) < (tenPower e).2 := Nat.cast_pos.mpr (tenPower_pos e)
  have hvalue : Decimal.value ⟨m, e⟩ = m * 10 ^ e := rfl
  have hunit := tenPower_units_eq e
  obtain ⟨-, -, habove, hbelow⟩ :=
    roundDiv_spec (unitsOf n * (tenPower e).2) (tenPower_units_pos e)
  rw [hm] at habove hbelow
  rw [hvalue]
  generalize (tenPower e).1 <<< 1074 = unit at hunit habove hbelow
  have habove' : (2 * (unitsOf n * (tenPower e).2) : ℚ) ≤ (2 * m + 1) * unit := by
    exact_mod_cast habove
  have hbelow' : (2 * m * unit : ℚ) ≤ 2 * (unitsOf n * (tenPower e).2) + unit := by
    exact_mod_cast hbelow
  rw [hunit] at habove' hbelow'
  constructor
  · refine le_of_mul_le_mul_right ?_ hden
    linarith
  · refine le_of_mul_le_mul_right ?_ hden
    linarith

/-- With seventeen digits the search succeeds. -/
theorem readsBackAt?_seventeen {n : Nat} (h : 0 < n) :
    (readsBackAt? n (leadingExponent n - 16)).isSome := by
  refine readsBackAt?_isSome ?_
  obtain ⟨k, rfl⟩ := Nat.exists_eq_add_one_of_ne_zero h.ne'
  obtain ⟨hlow, hhigh⟩ := roundDiv_near (n := k + 1) (e := leadingExponent (k + 1) - 16) rfl
  -- The last of seventeen digits counts for less than the steps on either side: it is one part in
  -- 10^16 of the magnitude at most, and a step is one part in 2^53 at least.
  have hunit : 10 ^ 16 * ((10 : ℚ) ^ (leadingExponent (k + 1) - 16) * oneUnits) ≤ unitsOf (k + 1) := by
    have hexp : (10 : ℚ) ^ leadingExponent (k + 1) =
        10 ^ 16 * 10 ^ (leadingExponent (k + 1) - 16) := by
      rw [← zpow_natCast, ← zpow_add₀ (by norm_num)]
      congr 1
      push_cast
      ring
    have hleading := (leadingExponent_spec h).1
    rwa [hexp, mul_assoc] at hleading
  have hprev := unitsOf_strictMono (Nat.lt_add_one k)
  have hnext : unitsOf (k + 1) < unitsOf (k + 2) := unitsOf_strictMono (Nat.lt_add_one (k + 1))
  have hbelow : (unitsOf (k + 1) + 2 ^ 53 * unitsOf k : ℚ) ≤ 2 ^ 53 * unitsOf (k + 1) := by
    have hstep := unitsOf_succ_le_step k
    rw [Nat.mul_sub] at hstep
    have hnat : unitsOf (k + 1) + 2 ^ 53 * unitsOf k ≤ 2 ^ 53 * unitsOf (k + 1) := by omega
    exact_mod_cast hnat
  have habove : (unitsOf (k + 2) + 2 ^ 53 * unitsOf (k + 1) : ℚ) ≤ 2 ^ 53 * unitsOf (k + 2) := by
    have hstep : unitsOf (k + 2) ≤ 2 ^ 53 * (unitsOf (k + 2) - unitsOf (k + 1)) :=
      unitsOf_succ_le_step (k + 1)
    rw [Nat.mul_sub] at hstep
    have hnat : unitsOf (k + 2) + 2 ^ 53 * unitsOf (k + 1) ≤ 2 ^ 53 * unitsOf (k + 2) := by omega
    exact_mod_cast hnat
  have hprev' : (unitsOf k : ℚ) < unitsOf (k + 1) := by exact_mod_cast hprev
  have hnext' : (unitsOf (k + 1) : ℚ) < unitsOf (k + 2) := by exact_mod_cast hnext
  refine Decimal.ordinal_eq_of_between ?_ ?_
  · refine lt_of_lt_of_le ?_ (sub_le_iff_le_add.mpr hlow)
    linarith
  · refine lt_of_le_of_lt hhigh ?_
    linarith

/-- A multiple of a power of ten below a magnitude has the digits from the first to that of the
    power. -/
theorem floor_lt {n : Nat} (h : 0 < n) (k : Nat) :
    unitsOf n * (tenPower (leadingExponent n - k)).2 / (tenPower (leadingExponent n - k)).1 <<< 1074 <
      10 ^ (k + 1) := by
  have hexp : (10 : ℚ) ^ (leadingExponent n + 1) =
      10 ^ (leadingExponent n - k) * 10 ^ (k + 1) := by
    rw [← zpow_natCast, ← zpow_add₀ (by norm_num)]
    congr 1
    push_cast
    ring
  have hhigh := (leadingExponent_spec h).2
  rw [hexp] at hhigh
  generalize leadingExponent n - k = e at hhigh
  have hden : (0 : ℚ) < (tenPower e).2 := Nat.cast_pos.mpr (tenPower_pos e)
  have hunit : (0 : ℚ) < 10 ^ e * oneUnits :=
    mul_pos (zpow_pos (by norm_num) e) (Nat.cast_pos.mpr oneUnits_pos)
  have hvalue := tenPower_units_eq e
  have hfloor := Nat.div_mul_le_self (unitsOf n * (tenPower e).2) ((tenPower e).1 <<< 1074)
  generalize (tenPower e).1 <<< 1074 = unit at hvalue hfloor ⊢
  generalize unitsOf n * (tenPower e).2 / unit = floor at hfloor ⊢
  have hfloor' : (floor * unit : ℚ) ≤ unitsOf n * (tenPower e).2 := by exact_mod_cast hfloor
  rw [hvalue, ← mul_assoc] at hfloor'
  have hbelow := lt_of_le_of_lt (le_of_mul_le_mul_right hfloor' hden) hhigh
  have hlt : (floor : ℚ) < 10 ^ (k + 1) := by
    refine lt_of_mul_lt_mul_right ?_ hunit.le
    calc (floor * (10 ^ e * oneUnits) : ℚ) < 10 ^ e * 10 ^ (k + 1) * oneUnits := hbelow
      _ = 10 ^ (k + 1) * (10 ^ e * oneUnits) := by ring
  exact_mod_cast hlt

/-- The shortest decimal number has seventeen digits at most and is rounded to the magnitude. -/
theorem shortest_spec {n : Nat} (h : 0 < n) :
    ∃ k : Nat, k < 17 ∧ (shortest n).exponent = leadingExponent n - (k : Int) ∧
      (shortest n).significand ≤ 10 ^ (k + 1) ∧ (shortest n).ordinal = n := by
  -- Whichever number of digits the search stops at, the number found is one of those tried.
  have hfound : ((List.range 17).findSome? fun (k : Nat) =>
      readsBackAt? n (leadingExponent n - (k : Int))).isSome := by
    rw [List.findSome?_isSome_iff]
    exact ⟨16, List.mem_range.mpr (by decide), readsBackAt?_seventeen h⟩
  obtain ⟨d, hd⟩ := Option.isSome_iff_exists.mp hfound
  have hshortest : shortest n = d := by
    rw [shortest, hd, Option.getD_some]
  obtain ⟨k, hk, hat⟩ := List.exists_of_findSome?_eq_some hd
  obtain ⟨hord, hexp, hsig⟩ := readsBackAt?_spec hat
  rw [hshortest]
  exact ⟨k, List.mem_range.mp hk, hexp, Nat.le_trans hsig (floor_lt h k), hord⟩

end WireForm.Binary64
