import Mathlib.Data.List.TakeWhile
import WireForm.Proofs.Binary64.Shortest

/-!
# The decimal number that a text spells

A magnitude is written with the digits of its shortest decimal number, without the zeros at their
end and perhaps with a zero behind the point. What the digits of the text spell is the same value
with another exponent, and they are seventeen at most.
-/

namespace WireForm.Binary64

/-! ## Digits without the zeros at the end -/

/-- The digits of a number are its significant ones and zeros. -/
theorem toDigits_eq_significantDigits (n : Nat) :
    ∃ zeros, Nat.toDigits 10 n = significantDigits n ++ List.replicate zeros '0' := by
  have hsplit := List.takeWhile_append_dropWhile (p := (· == '0')) (l := (Nat.toDigits 10 n).reverse)
  have hzeros : ∀ c ∈ (Nat.toDigits 10 n).reverse.takeWhile (· == '0'), c = '0' := by
    intro c hc
    have hzero := List.mem_takeWhile_imp hc
    exact beq_iff_eq.mp hzero
  rw [List.eq_replicate_of_mem hzeros] at hsplit
  refine ⟨((Nat.toDigits 10 n).reverse.takeWhile (· == '0')).length, ?_⟩
  rw [← List.reverse_inj, List.reverse_append, List.reverse_replicate, significantDigits,
    List.reverse_reverse]
  exact hsplit.symm

theorem mem_significantDigits {n : Nat} {c : Char} (h : c ∈ significantDigits n) :
    c.isDigit = true := by
  obtain ⟨zeros, hn⟩ := toDigits_eq_significantDigits n
  have hmem : c ∈ Nat.toDigits 10 n := by
    rw [hn]
    exact List.mem_append_left _ h
  exact Nat.isDigit_of_mem_toDigits (by decide) (by decide) hmem

/-- The significant digits of a number, with the zeros after them, make the number. -/
theorem ofDigitChars_significantDigits (n : Nat) :
    n = Nat.ofDigitChars 10 (significantDigits n) 0 *
      10 ^ ((Nat.toDigits 10 n).length - (significantDigits n).length) := by
  obtain ⟨zeros, hn⟩ := toDigits_eq_significantDigits n
  have hvalue : Nat.ofDigitChars 10 (Nat.toDigits 10 n) 0 = n := Nat.ofDigitChars_ten_toDigits
  have hlen := congrArg List.length hn
  rw [List.length_append, List.length_replicate] at hlen
  rw [hn, Nat.ofDigitChars_append, Nat.ofDigitChars_replicate_zero, Nat.mul_comm] at hvalue
  rw [hlen, Nat.add_sub_cancel_left, hvalue]

theorem length_significantDigits_le (n : Nat) :
    (significantDigits n).length ≤ (Nat.toDigits 10 n).length := by
  obtain ⟨zeros, hn⟩ := toDigits_eq_significantDigits n
  rw [hn, List.length_append]
  exact Nat.le_add_right _ _

/-! ## Plain notation -/

/-- A whole number is filled up with zeros, and one zero stands behind the point. -/
theorem plainText_of_length_le {digits : List Char} {e : Nat} (h : digits.length ≤ e + 1) :
    plainText digits (.ofNat e) =
      digits ++ List.replicate (e + 1 - digits.length) '0' ++ '.' :: ['0'] := by
  unfold plainText
  dsimp only
  rw [List.take_of_length_le h, List.drop_of_length_le h]
  rfl

/-- Where the digits go on behind the point no zeros are needed. -/
theorem plainText_of_lt_length {digits : List Char} {e : Nat} (h : e + 1 < digits.length) :
    plainText digits (.ofNat e) = digits.take (e + 1) ++ '.' :: digits.drop (e + 1) := by
  have hlength : (digits.take (e + 1)).length = e + 1 := List.length_take_of_le h.le
  have hdrop : digits.drop (e + 1) ≠ [] := List.drop_eq_nil_iff.not.mpr (Nat.not_le.mpr h)
  unfold plainText
  dsimp only
  rw [hlength, Nat.sub_self, List.isEmpty_eq_false_iff.mpr hdrop]
  simp

/-! ## What is spelled -/

/-- The decimal number that digits spell when the first of them has a given exponent. A whole
    number in plain notation has a zero behind the point, which is a digit as well. -/
def spelled (layout : Layout) (digits : List Char) (exponent : Int) : Decimal :=
  if layout.leastPlain ≤ exponent ∧ exponent ≤ layout.greatestPlain ∧
      (digits.length : Int) ≤ exponent + 1 then
    ⟨Nat.ofDigitChars 10 digits 0 * 10 ^ (exponent + 2 - digits.length).toNat, -1⟩
  else ⟨Nat.ofDigitChars 10 digits 0, exponent + 1 - digits.length⟩

/-- The decimal number that the text of a magnitude spells. -/
def written (ordinal : Nat) : Decimal :=
  let d := shortest ordinal
  spelled plainRange (significantDigits d.significand)
    (d.exponent + ((Nat.toDigits 10 d.significand).length : Int) - 1)

theorem written_eq (n : Nat) :
    written n = spelled plainRange (significantDigits (shortest n).significand)
      ((shortest n).exponent + ((Nat.toDigits 10 (shortest n).significand).length : Int) - 1) := rfl

theorem magnitudeText_eq (layout : Layout) {n : Nat} (h : 0 < n) :
    magnitudeText layout n =
      if layout.leastPlain ≤
          (shortest n).exponent + ((Nat.toDigits 10 (shortest n).significand).length : Int) - 1 ∧
        (shortest n).exponent + ((Nat.toDigits 10 (shortest n).significand).length : Int) - 1 ≤
          layout.greatestPlain then
        plainText (significantDigits (shortest n).significand)
          ((shortest n).exponent + ((Nat.toDigits 10 (shortest n).significand).length : Int) - 1)
      else exponentText (significantDigits (shortest n).significand)
        ((shortest n).exponent + ((Nat.toDigits 10 (shortest n).significand).length : Int) - 1) :=
  if_neg h.ne'

theorem spelled_value (layout : Layout) (digits : List Char) (exponent : Int) :
    (spelled layout digits exponent).value =
      Nat.ofDigitChars 10 digits 0 * 10 ^ (exponent + 1 - digits.length) := by
  unfold spelled
  split
  · next h =>
    have hexp : exponent + 1 - digits.length =
        ((exponent + 2 - digits.length).toNat : Int) + -1 := by omega
    rw [hexp, zpow_add₀ (by norm_num), zpow_natCast, Decimal.value]
    push_cast
    ring
  · rfl

/-- A text spells the value of the shortest decimal number. -/
theorem written_value (n : Nat) : (written n).value = (shortest n).value := by
  have hlen := length_significantDigits_le (shortest n).significand
  have hsig := ofDigitChars_significantDigits (shortest n).significand
  have hcast : ((shortest n).significand : ℚ) =
      Nat.ofDigitChars 10 (significantDigits (shortest n).significand) 0 *
        10 ^ ((Nat.toDigits 10 (shortest n).significand).length -
          (significantDigits (shortest n).significand).length) := by exact_mod_cast hsig
  have hexp : (shortest n).exponent + ((Nat.toDigits 10 (shortest n).significand).length : Int) - 1
      + 1 - (significantDigits (shortest n).significand).length =
      (((Nat.toDigits 10 (shortest n).significand).length -
        (significantDigits (shortest n).significand).length : ℕ) : Int) + (shortest n).exponent := by
    omega
  rw [written, spelled_value, hexp, zpow_add₀ (by norm_num), zpow_natCast, ← mul_assoc, ← hcast]
  rfl

theorem written_ordinal {n : Nat} (h : 0 < n) : (written n).ordinal = n := by
  obtain ⟨k, -, -, -, hord⟩ := shortest_spec h
  rw [Decimal.ordinal_congr (written_value n), hord]

theorem Decimal.pos_of_ordinal {d : Decimal} (h : 0 < d.ordinal) : 0 < d.significand := by
  refine Nat.pos_of_ne_zero fun hzero => h.ne' ?_
  rw [d.ordinal_eq, hzero]
  exact nearestOrdinal_of_eq (tenPower_pos _) (by simp [unitsOf])

theorem written_pos {n : Nat} (h : 0 < n) : 0 < (written n).significand :=
  Decimal.pos_of_ordinal ((written_ordinal h).symm ▸ h)

/-- The shortest decimal number of a magnitude has at most one digit more than it needs. -/
theorem length_toDigits_shortest_le {n : Nat} (h : 0 < n) :
    (Nat.toDigits 10 (shortest n).significand).length ≤ 18 := by
  obtain ⟨k, hk, -, hsig, -⟩ := shortest_spec h
  rw [Nat.length_toDigits_le_iff (by decide) (by decide)]
  exact Nat.lt_of_le_of_lt (Nat.le_trans hsig (Nat.pow_le_pow_right (by decide) hk)) (by decide)

/-- The exponent of the first digit is that of a magnitude, give or take a digit. -/
theorem natAbs_firstExponent_lt {n : Nat} (h : 0 < n) (hfinite : n ≤ largest) :
    ((shortest n).exponent + ((Nat.toDigits 10 (shortest n).significand).length : Int) - 1).natAbs <
      1000 := by
  obtain ⟨k, hk, hexp, -, -⟩ := shortest_spec h
  have hrange := leadingExponent_range h hfinite
  have hlength := length_toDigits_shortest_le h
  omega

/-- Significant digits make less than the power of ten that they count. -/
theorem ofDigitChars_significantDigits_lt {n : Nat} (h : 0 < n) :
    Nat.ofDigitChars 10 (significantDigits n) 0 < 10 ^ (significantDigits n).length := by
  have hlen := length_significantDigits_le n
  have hlt := (toDigits_bounds h).2
  rw [← Nat.sub_add_cancel hlen, Nat.pow_add, Nat.mul_comm] at hlt
  refine Nat.lt_of_mul_lt_mul_right (a := 10 ^ ((Nat.toDigits 10 n).length -
    (significantDigits n).length)) ?_
  rwa [← ofDigitChars_significantDigits n]

/-- A text spells seventeen digits at most. -/
theorem written_significand_le {n : Nat} (h : 0 < n) : (written n).significand ≤ 10 ^ 17 := by
  obtain ⟨k, hk, -, hsig, hord⟩ := shortest_spec h
  have hpos : 0 < (shortest n).significand := Decimal.pos_of_ordinal (hord.symm ▸ h)
  rw [written, spelled]
  split
  · next hplain =>
    -- In plain notation the exponent says how many digits there are.
    obtain ⟨-, hgreatest, hlen⟩ := hplain
    have hgreatest : _ ≤ (15 : Int) := hgreatest
    refine Nat.le_trans (Nat.mul_le_mul_right _ (ofDigitChars_significantDigits_lt hpos).le) ?_
    rw [← Nat.pow_add]
    exact Nat.pow_le_pow_right (by decide) (by omega)
  · have hle : Nat.ofDigitChars 10 (significantDigits (shortest n).significand) 0 ≤
        (shortest n).significand := by
      conv_rhs => rw [ofDigitChars_significantDigits (shortest n).significand]
      exact Nat.le_mul_of_pos_right _ (Nat.pow_pos (by decide))
    exact Nat.le_trans hle (Nat.le_trans hsig (Nat.pow_le_pow_right (by decide) hk))

end WireForm.Binary64
