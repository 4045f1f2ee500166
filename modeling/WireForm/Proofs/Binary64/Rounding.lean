import Mathlib.Order.Monotone.Basic
import Mathlib.Tactic.Linarith
import Mathlib.Tactic.Ring
import WireForm.Binary64

/-!
# Rounding to the nearest magnitude

The magnitudes grow with their ordinals, by a step that doubles from binade to binade. A quotient
is rounded to an ordinal when it lies between the midpoints on either side of its magnitude, so
what is rounded, how it is written as a quotient and which neighbour a tie goes to need not be
known to say where the rounding ends.
-/

namespace WireForm.Binary64

/-! ## Magnitudes -/

/-- In its binade, and at the beginning of the next, a magnitude is a multiple of the step. -/
theorem unitsOf_add {s m : Nat} (hlow : s = 0 ∨ binadeSize ≤ m) (hhigh : m ≤ 2 * binadeSize) :
    unitsOf (s * binadeSize + m) = m * 2 ^ s := by
  have hpos : 0 < binadeSize := by decide
  by_cases hsmall : m < binadeSize
  · obtain rfl := hlow.resolve_right (Nat.not_le.mpr hsmall)
    rw [Nat.zero_mul, Nat.zero_add, pow_zero, Nat.mul_one, unitsOf, Nat.div_eq_of_lt hsmall,
      if_pos rfl, Nat.mod_eq_of_lt hsmall]
  obtain ⟨rest, rfl⟩ := Nat.exists_eq_add_of_le (Nat.not_lt.mp hsmall)
  have hsum : s * binadeSize + (binadeSize + rest) = rest + (s + 1) * binadeSize := by ring
  by_cases hrest : rest < binadeSize
  · have hdiv : (rest + (s + 1) * binadeSize) / binadeSize = s + 1 := by
      rw [Nat.add_mul_div_right _ _ hpos, Nat.div_eq_of_lt hrest, Nat.zero_add]
    have hmod : (rest + (s + 1) * binadeSize) % binadeSize = rest := by
      rw [Nat.add_mul_mod_self_right, Nat.mod_eq_of_lt hrest]
    simp [unitsOf, hsum, hdiv, hmod, Nat.shiftLeft_eq]
  · -- The end of a binade is the beginning of the next, where the step is twice as wide.
    obtain rfl : rest = binadeSize := by omega
    have hdiv : (binadeSize + (s + 1) * binadeSize) / binadeSize = s + 2 := by
      rw [Nat.add_mul_div_right _ _ hpos, Nat.div_self hpos, Nat.add_comm]
    have hmod : (binadeSize + (s + 1) * binadeSize) % binadeSize = 0 := by
      rw [Nat.add_mul_mod_self_right, Nat.mod_self]
    simp only [unitsOf, hsum, hdiv, hmod, Nat.shiftLeft_eq]
    simp only [Nat.add_eq_zero_iff, OfNat.ofNat_ne_zero, and_false, if_false, Nat.add_zero,
      Nat.reduceSubDiff]
    ring

/-- Every ordinal is in a binade. -/
theorem exists_binade (n : Nat) : ∃ s m, n = s * binadeSize + m ∧ (s = 0 ∨ binadeSize ≤ m) ∧
    m < 2 * binadeSize ∧ s = n / binadeSize - 1 := by
  have hpos : 0 < binadeSize := by decide
  have hsplit := Nat.div_add_mod n binadeSize
  have hmod := Nat.mod_lt n hpos
  cases hdiv : n / binadeSize with
  | zero =>
    rw [hdiv] at hsplit
    exact ⟨0, n, by omega, .inl rfl, by omega, rfl⟩
  | succ s =>
    rw [hdiv, Nat.mul_comm, Nat.succ_mul] at hsplit
    exact ⟨s, binadeSize + n % binadeSize, by omega, .inr (by omega), by omega, rfl⟩

/-- The step from one magnitude to the next. -/
theorem unitsOf_succ (n : Nat) : unitsOf (n + 1) = unitsOf n + 2 ^ (n / binadeSize - 1) := by
  obtain ⟨s, m, hn, hlow, hhigh, hs⟩ := exists_binade n
  have hnext : unitsOf (s * binadeSize + (m + 1)) = (m + 1) * 2 ^ s :=
    unitsOf_add (hlow.imp_right Nat.le_succ_of_le) (by omega)
  rw [← hs, hn, Nat.add_assoc, hnext, unitsOf_add hlow hhigh.le, Nat.succ_mul]

theorem unitsOf_strictMono : StrictMono unitsOf := by
  refine strictMono_nat_of_lt_succ fun n => ?_
  rw [unitsOf_succ]
  exact Nat.lt_add_of_pos_right (Nat.two_pow_pos _)

/-- The last step before a binade is half of its steps. -/
theorem unitsOf_below_binade {t m : Nat} (hm : m + 1 = binadeSize) :
    unitsOf (t.succ * binadeSize + m) = (2 * m + 1) * 2 ^ t := by
  have hsame : t.succ * binadeSize + m = t * binadeSize + (2 * m + 1) := by
    rw [Nat.succ_mul]
    omega
  rw [hsame]
  exact unitsOf_add (.inr (by omega)) (by omega)

/-! ## Quotients -/

section Quotients

variable {num den : Nat}

/-- A rounded quotient is one of the two whole numbers around the quotient, and no more than half
    away from it. -/
theorem roundDiv_spec (num : Nat) (hden : 0 < den) :
    num / den ≤ roundDiv num den ∧ roundDiv num den ≤ num / den + 1 ∧
      2 * num ≤ (2 * roundDiv num den + 1) * den ∧
      2 * roundDiv num den * den ≤ 2 * num + den := by
  have hsplit := Nat.div_add_mod num den
  have hmod := Nat.mod_lt num hden
  have hbelow : 2 * (num / den) * den = 2 * (den * (num / den)) := by ring
  have habove : 2 * (num / den + 1) * den = 2 * (den * (num / den)) + 2 * den := by ring
  -- A tie may go either way: both roundings are as close as it takes.
  have hdown : 2 * (num % den) ≤ den → 2 * num ≤ (2 * (num / den) + 1) * den ∧
      2 * (num / den) * den ≤ 2 * num + den := by
    intro h
    rw [Nat.add_mul, hbelow]
    omega
  have hup : den ≤ 2 * (num % den) → 2 * num ≤ (2 * (num / den + 1) + 1) * den ∧
      2 * (num / den + 1) * den ≤ 2 * num + den := by
    intro h
    rw [Nat.add_mul, habove]
    omega
  unfold roundDiv
  dsimp only
  split
  · exact ⟨Nat.le_refl _, Nat.le_succ _, hdown (by omega)⟩
  split
  · exact ⟨Nat.le_succ _, Nat.le_refl _, hup (by omega)⟩
  split
  · exact ⟨Nat.le_refl _, Nat.le_succ _, hdown (by omega)⟩
  · exact ⟨Nat.le_succ _, Nat.le_refl _, hup (by omega)⟩

/-- How a quotient is rounded: to a multiple of the step in its binade, which is no more than half
    a step away. -/
theorem nearestOrdinal_spec (num : Nat) (hden : 0 < den) :
    ∃ s m, nearestOrdinal num den = s * binadeSize + m ∧
      (s = 0 ∨ binadeSize ≤ m ∧ binadeSize * (den * 2 ^ s) ≤ num) ∧ m ≤ 2 * binadeSize ∧
      2 * num ≤ (2 * m + 1) * (den * 2 ^ s) ∧ 2 * m * (den * 2 ^ s) ≤ 2 * num + den * 2 ^ s := by
  generalize hs : Nat.log2 (num / den) - 52 = s
  have hunit : 0 < den * 2 ^ s := Nat.mul_pos hden (Nat.two_pow_pos s)
  obtain ⟨hlow, hhigh, habove, hbelow⟩ := roundDiv_spec num hunit
  refine ⟨s, _, by rw [nearestOrdinal, hs, Nat.shiftLeft_eq], ?_, ?_, habove, hbelow⟩
  · -- Past the first binade the leading bit of the quotient is that of the binade.
    by_cases hzero : s = 0
    · exact .inl hzero
    have hlog : Nat.log2 (num / den) = s + 52 := by omega
    have hquotient : num / den ≠ 0 := by
      intro h
      rw [h, Nat.log2_zero] at hlog
      omega
    have hnum : binadeSize * (den * 2 ^ s) ≤ num := by
      calc binadeSize * (den * 2 ^ s) = den * 2 ^ (s + 52) := by rw [binadeSize]; ring
        _ ≤ den * (num / den) :=
          Nat.mul_le_mul_left _ (by rw [← hlog]; exact Nat.log2_self_le hquotient)
        _ ≤ num := Nat.mul_div_le num den
    exact .inr ⟨Nat.le_trans ((Nat.le_div_iff_mul_le hunit).mpr hnum) hlow, hnum⟩
  · have hquotient : num / den < 2 * binadeSize * 2 ^ s := by
      calc num / den < 2 ^ (Nat.log2 (num / den) + 1) := Nat.lt_log2_self
        _ ≤ 2 ^ (s + 53) := Nat.pow_le_pow_right (by decide) (by omega)
        _ = 2 * binadeSize * 2 ^ s := by rw [binadeSize]; ring
    have hnum : num < 2 * binadeSize * (den * 2 ^ s) := by
      rw [Nat.div_lt_iff_lt_mul hden] at hquotient
      calc num < 2 * binadeSize * 2 ^ s * den := hquotient
        _ = 2 * binadeSize * (den * 2 ^ s) := by ring
    have hdiv := (Nat.div_lt_iff_lt_mul hunit).mpr hnum
    omega

/-- What is rounded lies below the midpoint above. -/
theorem le_midpoint_above (num : Nat) (hden : 0 < den) :
    2 * num ≤ (unitsOf (nearestOrdinal num den) + unitsOf (nearestOrdinal num den + 1)) * den := by
  obtain ⟨s, m, hn, hlow, hhigh, habove, -⟩ := nearestOrdinal_spec num hden
  have hself : unitsOf (s * binadeSize + m) = m * 2 ^ s := unitsOf_add (hlow.imp_right And.left) hhigh
  -- The step above is that of the binade or, at the end of the binade, a wider one.
  have hnext : (m + 1) * 2 ^ s ≤ unitsOf (s * binadeSize + m + 1) := by
    have hpos : 0 < binadeSize := by decide
    have hstep : s ≤ (s * binadeSize + m) / binadeSize - 1 := by
      obtain rfl | ⟨hm, -⟩ := hlow
      · exact Nat.zero_le _
      · have hdiv : s + 1 ≤ (s * binadeSize + m) / binadeSize := by
          rw [Nat.le_div_iff_mul_le hpos, Nat.succ_mul]
          exact Nat.add_le_add_left hm _
        omega
    rw [unitsOf_succ, hself, Nat.succ_mul]
    exact Nat.add_le_add_left (Nat.pow_le_pow_right (by decide) hstep) _
  rw [hn, hself]
  calc 2 * num ≤ (2 * m + 1) * (den * 2 ^ s) := habove
    _ = (m * 2 ^ s + (m + 1) * 2 ^ s) * den := by ring
    _ ≤ _ := Nat.mul_le_mul_right _ (Nat.add_le_add_left hnext _)

/-- What is rounded lies above the midpoint below. -/
theorem midpoint_below_le (hden : 0 < den) {n : Nat} (hn : nearestOrdinal num den = n + 1) :
    (unitsOf n + unitsOf (n + 1)) * den ≤ 2 * num := by
  obtain ⟨s, m, hsum, hlow, hhigh, -, hbelow⟩ := nearestOrdinal_spec num hden
  rw [hn] at hsum
  have hself : unitsOf (n + 1) = m * 2 ^ s := by
    rw [hsum]
    exact unitsOf_add (hlow.imp_right And.left) hhigh
  cases m with
  | zero =>
    have hpos : 0 < binadeSize := by decide
    obtain rfl | ⟨hm, -⟩ := hlow <;> omega
  | succ m =>
    obtain rfl : n = s * binadeSize + m := by omega
    by_cases hinside : s = 0 ∨ binadeSize ≤ m
    · rw [hself, unitsOf_add hinside (by omega)]
      calc (m * 2 ^ s + (m + 1) * 2 ^ s) * den = (2 * m + 1) * (den * 2 ^ s) := by ring
        _ ≤ 2 * num := by
          rw [show 2 * (m + 1) * (den * 2 ^ s) = (2 * m + 1) * (den * 2 ^ s) + den * 2 ^ s by ring]
            at hbelow
          exact Nat.le_of_add_le_add_right hbelow
    · -- At the beginning of a binade the step below is half the step above.
      obtain ⟨hs, hm⟩ := not_or.mp hinside
      obtain ⟨hm', hnum⟩ := hlow.resolve_left hs
      obtain ⟨t, rfl⟩ := Nat.exists_eq_succ_of_ne_zero hs
      have hedge : m + 1 = binadeSize := by omega
      rw [hself, unitsOf_below_binade hedge]
      calc ((2 * m + 1) * 2 ^ t + (m + 1) * 2 ^ t.succ) * den
          ≤ 2 * ((m + 1) * (den * 2 ^ t.succ)) := by
            rw [Nat.succ_eq_add_one, pow_succ]
            nlinarith [Nat.zero_le (2 ^ t * den)]
        _ ≤ 2 * num := by
          rw [hedge]
          exact Nat.mul_le_mul_left 2 hnum

/-! ## Where a quotient is rounded to -/

/-- What lies below the midpoint above an ordinal is not rounded past it. -/
theorem nearestOrdinal_le (hden : 0 < den) {n : Nat}
    (h : 2 * num < (unitsOf n + unitsOf (n + 1)) * den) : nearestOrdinal num den ≤ n := by
  refine Nat.not_lt.mp fun hlt => ?_
  obtain ⟨k, hk⟩ := Nat.exists_eq_add_one_of_ne_zero (Nat.ne_zero_of_lt hlt)
  have hnk : n ≤ k := by omega
  have hmono : unitsOf n + unitsOf (n + 1) ≤ unitsOf k + unitsOf (k + 1) :=
    Nat.add_le_add (unitsOf_strictMono.monotone hnk)
      (unitsOf_strictMono.monotone (Nat.add_le_add_right hnk 1))
  have hbelow := midpoint_below_le hden hk
  exact absurd (Nat.lt_of_lt_of_le h (Nat.mul_le_mul_right den hmono)) (Nat.not_lt.mpr hbelow)

/-- What lies above the midpoint above an ordinal is rounded past it. -/
theorem lt_nearestOrdinal (hden : 0 < den) {n : Nat}
    (h : (unitsOf n + unitsOf (n + 1)) * den < 2 * num) : n < nearestOrdinal num den := by
  refine Nat.not_le.mp fun hle => ?_
  have hmono := Nat.add_le_add (unitsOf_strictMono.monotone hle)
    (unitsOf_strictMono.monotone (Nat.add_le_add_right hle 1))
  have habove := le_midpoint_above num hden
  exact absurd (Nat.lt_of_lt_of_le h habove) (Nat.not_lt.mpr (Nat.mul_le_mul_right den hmono))

theorem nearestOrdinal_le_of_le (hden : 0 < den) {n : Nat} (h : num ≤ unitsOf n * den) :
    nearestOrdinal num den ≤ n := by
  refine nearestOrdinal_le hden ?_
  have hstep := Nat.mul_lt_mul_of_pos_right (unitsOf_strictMono (Nat.lt_add_one n)) hden
  rw [Nat.add_mul]
  omega

theorem le_nearestOrdinal_of_le (hden : 0 < den) {n : Nat} (h : unitsOf n * den ≤ num) :
    n ≤ nearestOrdinal num den := by
  cases n with
  | zero => exact Nat.zero_le _
  | succ n =>
    refine lt_nearestOrdinal hden ?_
    have hstep := Nat.mul_lt_mul_of_pos_right (unitsOf_strictMono (Nat.lt_add_one n)) hden
    rw [Nat.add_mul]
    omega

/-- A magnitude is rounded to itself. -/
theorem nearestOrdinal_of_eq (hden : 0 < den) {n : Nat} (h : num = unitsOf n * den) :
    nearestOrdinal num den = n :=
  Nat.le_antisymm (nearestOrdinal_le_of_le hden h.le) (le_nearestOrdinal_of_le hden h.ge)

/-- What lies between the midpoints around a magnitude is rounded to it. -/
theorem nearestOrdinal_eq (hden : 0 < den) {n : Nat}
    (hbelow : n = 0 ∨ (unitsOf (n - 1) + unitsOf n) * den < 2 * num)
    (habove : 2 * num < (unitsOf n + unitsOf (n + 1)) * den) : nearestOrdinal num den = n := by
  refine Nat.le_antisymm (nearestOrdinal_le hden habove) ?_
  obtain rfl | hbelow := hbelow
  · exact Nat.zero_le _
  · cases n with
    | zero => exact Nat.zero_le _
    | succ n => exact lt_nearestOrdinal hden hbelow

/-! ## One quotient written in two ways -/

theorem roundDiv_mul_left {k : Nat} (hk : 0 < k) (num den : Nat) :
    roundDiv (k * num) (k * den) = roundDiv num den := by
  have htwice : 2 * (k * (num % den)) = k * (2 * (num % den)) := by ring
  simp only [roundDiv, Nat.mul_div_mul_left _ _ hk, Nat.mul_mod_mul_left, htwice,
    Nat.mul_lt_mul_left hk]

theorem nearestOrdinal_mul_left {k : Nat} (hk : 0 < k) (num den : Nat) :
    nearestOrdinal (k * num) (k * den) = nearestOrdinal num den := by
  have hshift : ∀ s, (k * den) <<< s = k * den <<< s := by
    intro s
    rw [Nat.shiftLeft_eq, Nat.shiftLeft_eq, Nat.mul_assoc]
  simp only [nearestOrdinal, Nat.mul_div_mul_left _ _ hk, hshift, roundDiv_mul_left hk]

/-- Equal quotients are rounded alike. -/
theorem nearestOrdinal_congr {num' den' : Nat} (hden : 0 < den) (hden' : 0 < den')
    (h : num * den' = num' * den) : nearestOrdinal num den = nearestOrdinal num' den' := by
  -- Both are written over the product of the denominators.
  rw [← nearestOrdinal_mul_left hden' num den, ← nearestOrdinal_mul_left hden num' den',
    Nat.mul_comm den' num, h, Nat.mul_comm num' den, Nat.mul_comm den' den]

/-! ## How far rounding goes -/

/-- Above the first binade rounding adds no more than one part in 2^53. -/
theorem unitsOf_nearestOrdinal_le (hden : 0 < den) (hnum : (binadeSize + 1) * den ≤ num) :
    2 ^ 53 * unitsOf (nearestOrdinal num den) * den ≤ (2 ^ 53 + 1) * num := by
  have hfirst : unitsOf (binadeSize + 1) = binadeSize + 1 :=
    (unitsOf_add (s := 0) (m := binadeSize + 1) (.inl rfl) (by decide)).trans (Nat.mul_one _)
  have hle : binadeSize + 1 ≤ nearestOrdinal num den :=
    le_nearestOrdinal_of_le hden (by rw [hfirst]; exact hnum)
  obtain ⟨k, hk⟩ := Nat.exists_eq_add_one_of_ne_zero (by omega : nearestOrdinal num den ≠ 0)
  have hbelow := midpoint_below_le hden hk
  -- The step above a magnitude is less than one part in 2^52 of it.
  obtain ⟨s, m, hsum, hlow, hhigh, hs⟩ := exists_binade k
  have hself : unitsOf k = m * 2 ^ s := by
    rw [hsum]
    exact unitsOf_add hlow hhigh.le
  have hstep : binadeSize * 2 ^ s ≤ unitsOf k := by
    rw [hself]
    refine Nat.mul_le_mul_right _ ?_
    obtain rfl | hm := hlow <;> omega
  rw [hk, unitsOf_succ, ← hs]
  rw [unitsOf_succ, ← hs] at hbelow
  have hscaled := Nat.mul_le_mul_right den hstep
  simp only [binadeSize] at hscaled
  nlinarith

end Quotients

end WireForm.Binary64
