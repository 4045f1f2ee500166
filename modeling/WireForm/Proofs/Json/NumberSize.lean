import WireForm.Json.Writer
import WireForm.Proofs.Json.FloatReadBack
import WireForm.Proofs.Json.NumberText

/-!
# How long texts of numbers are

The text of a number has 26 characters at most, each of them a byte: a sign, eighteen digits, and
a point with zeros or an exponent part.
-/

namespace WireForm.Json

open Text.Utf8

/-! ## Bytes -/

theorem lt_of_isNumeric {c : Char} (h : isNumeric c = true) : c.toNat < 0x80 := by
  rcases Bool.or_eq_true_iff.mp h with hdigit | hmark
  · exact lt_of_isDigit hdigit
  · have hmark := of_decide_eq_true hmark
    simp only [List.mem_cons, List.not_mem_nil, or_false] at hmark
    obtain rfl | rfl | rfl | rfl := hmark <;> decide

/-- Texts of numbers have as many bytes as characters. -/
theorem length_encode_numeric {chars : List Char} (h : Numeric chars) :
    (encode chars).length = chars.length := by
  induction chars with
  | nil => rfl
  | cons c chars ih =>
    obtain ⟨hc, hchars⟩ := numeric_cons.mp h
    rw [encode_cons_of_ascii (lt_of_isNumeric hc), List.length_cons, List.length_cons, ih hchars]

/-! ## Characters -/

theorem length_intText_le {value : Int}
    (inRange : -0x8000000000000000 ≤ value ∧ value < 0x10000000000000000) :
    (Number.intText value).length ≤ 21 := by
  have hdigits : (Nat.toDigits 10 value.natAbs).length ≤ 20 := by
    rw [Nat.length_toDigits_le_iff (by decide) (by decide)]
    omega
  rw [Number.intText]
  split
  · exact Nat.succ_le_succ hdigits
  · exact Nat.le_succ_of_le hdigits

theorem length_plainText_le {digits : List Char} {exponent : Int} (hd : digits.length ≤ 18)
    (hlow : -5 ≤ exponent) (hhigh : exponent ≤ 15) :
    (Binary64.plainText digits exponent).length ≤ 25 := by
  cases exponent with
  | ofNat e =>
    rw [Int.ofNat_eq_natCast] at hhigh
    have hwhole := List.length_take (i := e + 1) (l := digits)
    have hfraction : (if (digits.drop (e + 1)).isEmpty then ['0'] else digits.drop (e + 1)).length ≤
        digits.length - (e + 1) + 1 := by
      split
      · exact Nat.le_add_left _ _
      · exact List.length_drop.trans_le (Nat.le_succ _)
    simp only [Binary64.plainText, List.length_append, List.length_cons, List.length_replicate]
    omega
  | negSucc k =>
    simp only [Binary64.plainText, List.length_append, List.length_cons, List.length_replicate]
    omega

theorem length_exponentText_le {digits : List Char} {exponent : Int} (hd : digits.length ≤ 18)
    (he : exponent.natAbs < 1000) : (Binary64.exponentText digits exponent).length ≤ 25 := by
  have hexponent : (Nat.toDigits 10 exponent.natAbs).length ≤ 3 := by
    rw [Nat.length_toDigits_le_iff (by decide) (by decide)]
    exact he
  unfold Binary64.exponentText
  simp only [List.length_append, List.length_cons]
  split
  · simp only [List.length_cons] at hd ⊢
    omega
  · omega

theorem length_magnitudeText_le {n : Nat} (hfinite : n ≤ Binary64.largest) :
    (Binary64.magnitudeText Binary64.plainRange n).length ≤ 25 := by
  by_cases hzero : n = 0
  · rw [hzero]
    decide
  · have hpos := Nat.pos_of_ne_zero hzero
    have hdigits := Nat.le_trans
      (Binary64.length_significantDigits_le (Binary64.shortest n).significand)
      (Binary64.length_toDigits_shortest_le hpos)
    rw [Binary64.magnitudeText_eq _ hpos]
    split
    · next hplain => exact length_plainText_le hdigits hplain.1 hplain.2
    · exact length_exponentText_le hdigits (Binary64.natAbs_firstExponent_lt hpos hfinite)

/-- The text of a number is short. -/
theorem length_text_le (n : Number) : n.text.length ≤ 26 := by
  cases n with
  | int value inRange => exact Nat.le_trans (length_intText_le inRange) (by decide)
  | float x =>
    have hmagnitude := length_magnitudeText_le (Nat.le_of_lt_succ x.finite)
    rw [Number.text, Binary64.text]
    split
    · exact Nat.succ_le_succ hmagnitude
    · exact Nat.le_succ_of_le hmagnitude

end WireForm.Json
