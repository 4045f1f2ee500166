import WireForm.Proofs.Binary64.Rounding
import WireForm.Binary64.Shortest

/-!
# Scaling by powers of ten

A significand that is scaled by a power of ten is rounded up to three times: itself, the power,
and their product or quotient. Where the significand and the power are both small nothing is lost
before the last of these, so that the result is the decimal number rounded once. Elsewhere the
result is a number still, unless it is too large.
-/

namespace WireForm.Binary64

/-! ## Units -/

/-- The magnitude of one. -/
def oneUnits : Nat := 1 <<< 1074

theorem oneUnits_pos : 0 < oneUnits := by decide +kernel

theorem shiftLeft_eq_mul (n k : Nat) : n <<< k = n * 1 <<< k := by
  rw [Nat.shiftLeft_eq, Nat.shiftLeft_eq, Nat.one_mul]

theorem shiftLeft_1074 (n : Nat) : n <<< 1074 = n * oneUnits := shiftLeft_eq_mul n 1074

/-- The largest ordinal of a finite number. -/
def largest : Nat := 0x7FEFFFFFFFFFFFFF

/-- Twice the magnitude from which on a number overflows. -/
def overflowUnits : Nat := unitsOf largest + unitsOf (largest + 1)

/-- Multiples of powers of two are magnitudes, if the factor has 53 bits. -/
theorem exists_unitsOf {m : Nat} (hm : m ≤ 2 * binadeSize) (e : Nat) :
    ∃ n, unitsOf n = m * 2 ^ e := by
  induction e generalizing m with
  | zero => exact ⟨0 * binadeSize + m, unitsOf_add (.inl rfl) hm⟩
  | succ e ih =>
    by_cases hlow : binadeSize ≤ m
    · exact ⟨_, unitsOf_add (.inr hlow) hm⟩
    · -- A factor that does not fill the binade takes over a power of two.
      obtain ⟨n, hn⟩ := ih (m := 2 * m) (by omega)
      exact ⟨n, by rw [hn, pow_succ]; ring⟩

theorem exists_unitsOf_whole {m : Nat} (hm : m ≤ 2 * binadeSize) (e : Nat) :
    ∃ n, unitsOf n = m * 2 ^ e * oneUnits := by
  have hsplit : ∀ k, m * 2 ^ (e + k) = m * 2 ^ e * 1 <<< k := by
    intro k
    rw [Nat.shiftLeft_eq, Nat.one_mul, pow_add, Nat.mul_assoc]
  obtain ⟨n, hn⟩ := exists_unitsOf hm (e + 1074)
  exact ⟨n, hn.trans (hsplit 1074)⟩

section Rounded

variable {num den : Nat}

/-- What lies below the limit is rounded to a finite number. -/
theorem exists_ofUnits? (negative : Bool) (hden : 0 < den) (h : 2 * num < overflowUnits * den) :
    ∃ x, ofUnits? negative num den = some x ∧ x.negative = negative ∧
      x.ordinal = nearestOrdinal num den := by
  have hle : nearestOrdinal num den ≤ largest := nearestOrdinal_le hden h
  have hfinite : nearestOrdinal num den < 0x7FF0000000000000 := by
    rw [largest] at hle
    omega
  exact ⟨⟨negative, nearestOrdinal num den, hfinite⟩, dif_pos hfinite, rfl, rfl⟩

/-- What lies below a finite magnitude is rounded to one no larger. -/
theorem exists_ofUnits?_le (negative : Bool) (hden : 0 < den) {x : Binary64}
    (h : num ≤ x.units * den) :
    ∃ y, ofUnits? negative num den = some y ∧ y.negative = negative ∧ y.ordinal ≤ x.ordinal := by
  have hle : nearestOrdinal num den ≤ x.ordinal := nearestOrdinal_le_of_le hden h
  have hfinite := Nat.lt_of_le_of_lt hle x.finite
  exact ⟨⟨negative, nearestOrdinal num den, hfinite⟩, dif_pos hfinite, rfl, hle⟩

end Rounded

/-! ## Natural numbers -/

/-- A power of ten. -/
def tenTo (k : Nat) : Nat := 10 ^ k

theorem tenTo_le {k n : Nat} (h : k ≤ n) : tenTo k ≤ tenTo n := Nat.pow_le_pow_right (by decide) h

theorem pow_le_tenTo {k n : Nat} (h : k ≤ n) : 10 ^ k ≤ tenTo n := tenTo_le h

theorem tenTo_308_lt : 2 * (tenTo 308 * oneUnits) < overflowUnits := by decide +kernel

/-- Natural numbers below the largest power of ten are rounded to finite numbers. -/
theorem exists_ofNat? {n : Nat} (h : n ≤ tenTo 308) :
    ∃ x, ofNat? n = some x ∧ x.negative = false ∧ x.ordinal = nearestOrdinal (n * oneUnits) 1 := by
  unfold ofNat?
  rw [shiftLeft_1074]
  refine exists_ofUnits? false Nat.one_pos ?_
  rw [Nat.mul_one]
  exact Nat.lt_of_le_of_lt (Nat.mul_le_mul_left 2 (Nat.mul_le_mul_right _ h)) tenTo_308_lt

/-- A natural number whose odd part has 53 bits is not changed. -/
theorem exists_ofNat?_exact {m e : Nat} (hm : m ≤ 2 * binadeSize)
    (h : m * 2 ^ e ≤ tenTo 308) :
    ∃ x, ofNat? (m * 2 ^ e) = some x ∧ x.negative = false ∧ x.units = m * 2 ^ e * oneUnits := by
  obtain ⟨x, hx, hneg, hord⟩ := exists_ofNat? h
  obtain ⟨n, hn⟩ := exists_unitsOf_whole hm e
  have hexact : m * 2 ^ e * oneUnits = unitsOf n * 1 := by rw [hn, Nat.mul_one]
  rw [nearestOrdinal_of_eq Nat.one_pos hexact] at hord
  exact ⟨x, hx, hneg, by rw [units, hord, hexact, Nat.mul_one]⟩

/-! ## Powers of ten -/

/-- Powers of ten up to 10^308 are at least one, and rounding makes them larger by no more than
    one part in 2^53. -/
theorem exists_powTen? {k : Nat} (h : k ≤ 308) :
    ∃ p, powTen? k = some p ∧ p.negative = false ∧ oneUnits ≤ p.units ∧
      2 ^ 53 * p.units ≤ (2 ^ 53 + 1) * (10 ^ k * oneUnits) := by
  obtain ⟨p, hp, hneg, hord⟩ := exists_ofNat? (pow_le_tenTo h)
  have hpow : 1 ≤ 10 ^ k := Nat.one_le_pow _ _ (by decide)
  have hunits : p.units = unitsOf (nearestOrdinal (10 ^ k * oneUnits) 1) := by rw [units, hord]
  obtain ⟨one, hone⟩ := exists_unitsOf_whole (show 1 ≤ 2 * binadeSize by decide) 0
  rw [pow_zero, Nat.one_mul, Nat.one_mul] at hone
  refine ⟨p, hp, hneg, ?_, ?_⟩
  · rw [hunits, ← hone]
    refine unitsOf_strictMono.monotone (le_nearestOrdinal_of_le Nat.one_pos ?_)
    rw [Nat.mul_one, hone]
    exact Nat.le_mul_of_pos_left _ hpow
  · have hfirst : (binadeSize + 1) * 1 ≤ 10 ^ k * oneUnits :=
      Nat.le_trans (by decide +kernel : (binadeSize + 1) * 1 ≤ 1 * oneUnits)
        (Nat.mul_le_mul_right _ hpow)
    have hclose := unitsOf_nearestOrdinal_le Nat.one_pos hfirst
    rwa [Nat.mul_one, ← hunits] at hclose

/-- Powers of ten up to 10^22 are exact. -/
theorem exists_powTen?_exact {k : Nat} (h : k ≤ 22) :
    ∃ p, powTen? k = some p ∧ p.negative = false ∧ p.units = 10 ^ k * oneUnits := by
  -- Only the power of five takes up bits, and 5^22 has 52 of them.
  have hsplit : 10 ^ k = 5 ^ k * 2 ^ k := by rw [← Nat.mul_pow]
  have hfive : 5 ^ k ≤ 2 * binadeSize :=
    Nat.le_trans (Nat.pow_le_pow_right (by decide) h) (by decide)
  have hbound : 5 ^ k * 2 ^ k ≤ tenTo 308 := hsplit ▸ pow_le_tenTo (by omega)
  obtain ⟨p, hp, hneg, hunits⟩ := exists_ofNat?_exact hfive hbound
  rw [← hsplit] at hp hunits
  exact ⟨p, hp, hneg, hunits⟩

/-! ## Quotients -/

/-- A quotient by a power of ten is no larger than what is divided. -/
theorem exists_div? (x : Binary64) {p : Binary64} (hneg : p.negative = false)
    (hp : oneUnits ≤ p.units) :
    ∃ y, x.div? p = some y ∧ y.negative = x.negative ∧ y.ordinal ≤ x.ordinal := by
  have hsign : (x.negative != p.negative) = x.negative := by rw [hneg, Bool.bne_false]
  unfold div?
  rw [hsign, shiftLeft_1074]
  exact exists_ofUnits?_le _ (Nat.lt_of_lt_of_le oneUnits_pos hp) (Nat.mul_le_mul_left _ hp)

theorem exists_shrink (times : Nat) (x : Binary64) :
    ∃ y, shrink times x = some y ∧ y.negative = x.negative ∧ y.ordinal ≤ x.ordinal := by
  induction times generalizing x with
  | zero => exact ⟨x, rfl, rfl, Nat.le_refl _⟩
  | succ times ih =>
    unfold shrink
    split
    · exact ⟨x, rfl, rfl, Nat.le_refl _⟩
    · obtain ⟨p, hp, hneg, hone, -⟩ := exists_powTen? (Nat.le_refl 308)
      obtain ⟨y, hy, hsign, hle⟩ := exists_div? x hneg hone
      obtain ⟨z, hz, hsign', hle'⟩ := ih y
      refine ⟨z, ?_, hsign'.trans hsign, Nat.le_trans hle' hle⟩
      rw [hp, Option.bind_eq_bind, Option.bind_some, hy, Option.bind_some, hz]

/-- Scaling by a negative power of ten always gives a number, and of the same sign. -/
theorem exists_scaleTen?_negSucc (x : Binary64) (k : Nat) :
    ∃ y, x.scaleTen? (.negSucc k) = some y ∧ y.negative = x.negative ∧ y.ordinal ≤ x.ordinal := by
  obtain ⟨y, hy, hsign, hle⟩ := exists_shrink ((k + 1 - 1) / 308) x
  have hrest : k + 1 - 308 * ((k + 1 - 1) / 308) ≤ 308 := by omega
  obtain ⟨p, hp, hneg, hone, -⟩ := exists_powTen? hrest
  obtain ⟨z, hz, hsign', hle'⟩ := exists_div? y hneg hone
  refine ⟨z, ?_, hsign'.trans hsign, Nat.le_trans hle' hle⟩
  rw [scaleTen?, hy, hp, Option.bind_eq_bind, Option.bind_some, Option.bind_some, hz]

/-! ## Products -/

theorem mul?_eq (x y : Binary64) :
    x.mul? y = ofUnits? (x.negative != y.negative) (x.units * y.units) oneUnits := rfl

/-- A product with a power of ten is a number, if the limit is not reached by what is multiplied
    with both of their errors on top. -/
theorem exists_scaleTen?_ofNat {x : Binary64} {s k : Nat} (hneg : x.negative = false) (hk : k ≤ 308)
    (hx : 2 ^ 53 * x.units ≤ (2 ^ 53 + 1) * (s * oneUnits))
    (h : (2 ^ 53 + 1) ^ 2 * (2 * (s * 10 ^ k * oneUnits)) < 2 ^ 106 * overflowUnits) :
    ∃ y, x.scaleTen? (.ofNat k) = some y ∧ y.negative = false := by
  obtain ⟨p, hp, hpneg, -, hclose⟩ := exists_powTen? hk
  have hsign : (x.negative != p.negative) = false := by rw [hneg, hpneg, bne_self_eq_false]
  have hlimit : 2 * (x.units * p.units) < overflowUnits * oneUnits := by
    -- Each factor is too large by one part in 2^53 at most, and so the product by two of them.
    have hproduct := Nat.mul_le_mul hx hclose
    refine Nat.lt_of_mul_lt_mul_left (a := 2 ^ 106) ?_
    calc 2 ^ 106 * (2 * (x.units * p.units))
        = 2 * (2 ^ 53 * x.units * (2 ^ 53 * p.units)) := by ring
      _ ≤ 2 * ((2 ^ 53 + 1) * (s * oneUnits) * ((2 ^ 53 + 1) * (10 ^ k * oneUnits))) :=
        Nat.mul_le_mul_left 2 hproduct
      _ = (2 ^ 53 + 1) ^ 2 * (2 * (s * 10 ^ k * oneUnits)) * oneUnits := by ring
      _ < 2 ^ 106 * overflowUnits * oneUnits := Nat.mul_lt_mul_of_pos_right h oneUnits_pos
      _ = 2 ^ 106 * (overflowUnits * oneUnits) := Nat.mul_assoc _ _ _
  obtain ⟨y, hy, hyneg, -⟩ := exists_ofUnits? false oneUnits_pos hlimit
  refine ⟨y, ?_, hyneg⟩
  rw [scaleTen?, if_pos hk, hp, Option.bind_eq_bind, Option.bind_some, mul?_eq, hsign]
  exact hy

/-! ## Decimal numbers -/

theorem Decimal.ordinal_ofNat (s k : Nat) :
    Decimal.ordinal ⟨s, .ofNat k⟩ = nearestOrdinal (s * 10 ^ k * oneUnits) 1 :=
  congrArg (nearestOrdinal · 1) (shiftLeft_1074 _)

theorem Decimal.ordinal_negSucc (s k : Nat) :
    Decimal.ordinal ⟨s, .negSucc k⟩ = nearestOrdinal (s * oneUnits) (10 ^ (k + 1)) := by
  have hpow : Nat.pow 10 (k + 1) = 10 ^ (k + 1) := rfl
  rw [Decimal.ordinal, tenPower]
  dsimp only
  rw [Nat.mul_one, shiftLeft_1074, hpow]

theorem unitsOf_near_largest :
    (2 ^ 53 + 1) ^ 2 * (unitsOf (largest - 3) + unitsOf (largest - 2)) <
      2 ^ 106 * overflowUnits := by decide +kernel

theorem overflowUnits_lt : overflowUnits < 2 * (tenTo 309 * oneUnits) := by decide +kernel

/-- Decimal numbers that are rounded to one of all but the largest magnitudes are numbers when
    they are scaled step by step as well. -/
theorem exists_scaled {d : Decimal} (hpos : 0 < d.significand) (hs : d.significand ≤ tenTo 308)
    (h : d.ordinal ≤ largest - 3) :
    ∃ y, (ofNat? d.significand).bind (·.scaleTen? d.exponent) = some y ∧ y.negative = false := by
  obtain ⟨s, e⟩ := d
  obtain ⟨x, hx, hneg, hord⟩ := exists_ofNat? hs
  rw [hx, Option.bind_some]
  cases e with
  | negSucc k =>
    obtain ⟨y, hy, hsign, -⟩ := exists_scaleTen?_negSucc x k
    exact ⟨y, hy, hsign.trans hneg⟩
  | ofNat k =>
    have hunit : oneUnits ≤ s * oneUnits := Nat.le_mul_of_pos_left _ hpos
    -- The decimal number lies below the midpoint above the ordinal that it is rounded to.
    have hbelow : 2 * (s * 10 ^ k * oneUnits) ≤ unitsOf (largest - 3) + unitsOf (largest - 2) := by
      rw [Decimal.ordinal_ofNat] at h
      have habove := le_midpoint_above (s * 10 ^ k * oneUnits) Nat.one_pos
      rw [Nat.mul_one] at habove
      refine Nat.le_trans habove (Nat.add_le_add ?_ ?_)
      · exact unitsOf_strictMono.monotone h
      · exact unitsOf_strictMono.monotone (Nat.add_le_add_right h 1)
    have hk : k ≤ 308 := by
      refine Nat.not_lt.mp fun hlt => ?_
      have hpow : tenTo 309 * oneUnits ≤ s * 10 ^ k * oneUnits := by
        refine Nat.mul_le_mul_right _ (Nat.le_trans ?_ (Nat.le_mul_of_pos_left _ hpos))
        exact tenTo_le hlt
      have hlimit : unitsOf (largest - 3) + unitsOf (largest - 2) ≤ overflowUnits :=
        Nat.add_le_add (unitsOf_strictMono.monotone (by decide))
          (unitsOf_strictMono.monotone (by decide))
      have := overflowUnits_lt
      omega
    refine exists_scaleTen?_ofNat (s := s) hneg hk ?_ ?_
    · have hfirst : (binadeSize + 1) * 1 ≤ s * oneUnits :=
        Nat.le_trans (by decide +kernel : (binadeSize + 1) * 1 ≤ oneUnits) hunit
      have hclose := unitsOf_nearestOrdinal_le Nat.one_pos hfirst
      rwa [Nat.mul_one, ← hord] at hclose
    · exact Nat.lt_of_le_of_lt (Nat.mul_le_mul_left _ hbelow) unitsOf_near_largest

/-- A decimal number of 53 bits and a small exponent is rounded once. -/
theorem scaled_exact {d : Decimal} (hs : d.significand ≤ 2 * binadeSize)
    (hlow : -22 ≤ d.exponent) (hhigh : d.exponent ≤ 22) :
    (ofNat? d.significand).bind (·.scaleTen? d.exponent) = ofOrdinal? false d.ordinal := by
  obtain ⟨s, e⟩ := d
  have hten : s * 2 ^ 0 ≤ tenTo 308 := by
    rw [pow_zero, Nat.mul_one]
    exact Nat.le_trans hs (Nat.le_trans (by decide : _ ≤ tenTo 16) (tenTo_le (by decide)))
  obtain ⟨x, hx, hneg, hunits⟩ := exists_ofNat?_exact hs hten
  rw [pow_zero, Nat.mul_one] at hx hunits
  dsimp only at hlow hhigh ⊢
  rw [hx, Option.bind_some]
  cases e with
  | ofNat k =>
    have hk : k ≤ 22 := by
      have : (k : Int) ≤ 22 := hhigh
      omega
    obtain ⟨p, hp, hpneg, hpunits⟩ := exists_powTen?_exact hk
    have hsign : (x.negative != p.negative) = false := by rw [hneg, hpneg, bne_self_eq_false]
    rw [scaleTen?, if_pos (Nat.le_trans hk (by decide)), hp, Option.bind_eq_bind, Option.bind_some,
      mul?_eq, hsign, ofUnits?, hunits, hpunits, Decimal.ordinal_ofNat]
    refine congrArg (ofOrdinal? false) (nearestOrdinal_congr oneUnits_pos Nat.one_pos ?_)
    ring
  | negSucc k =>
    have hk : k + 1 ≤ 22 := by
      have : -22 ≤ Int.negSucc k := hlow
      omega
    obtain ⟨p, hp, hpneg, hpunits⟩ := exists_powTen?_exact hk
    have hsign : (x.negative != p.negative) = false := by rw [hneg, hpneg, bne_self_eq_false]
    have htimes : (k + 1 - 1) / 308 = 0 := Nat.div_eq_of_lt (by omega)
    rw [scaleTen?, htimes, Nat.mul_zero, Nat.sub_zero, shrink, hp, Option.bind_eq_bind,
      Option.bind_some, Option.bind_some, div?, hsign, ofUnits?, shiftLeft_1074, hunits, hpunits,
      Decimal.ordinal_negSucc]
    refine congrArg (ofOrdinal? false) (nearestOrdinal_congr ?_ (Nat.pow_pos (by decide)) ?_)
    · exact Nat.mul_pos (Nat.pow_pos (by decide)) oneUnits_pos
    · ring

end WireForm.Binary64
