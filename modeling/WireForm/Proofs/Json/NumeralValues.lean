import WireForm.Proofs.Json.NumberSize
import WireForm.Proofs.Json.Numerals
import WireForm.Proofs.Json.ReadBack

/-!
# Numerals of one value

A whole number has numerals without end: its digits with zeros behind them and an exponent that
takes them back, and a point anywhere. If it is no multiple of ten and far within the bound, the
digits that do not fit are all zeros, so that the reader always has the number itself in the
significand, times a power of ten that the exponent takes back.
-/

namespace WireForm.Json

open Binary64 (Decimal)

/-! ## Digits and powers of ten -/

section Digits

variable {n m significand : Nat} {digits front back later : List Char}

/-- Digits are worth less than the power of ten that has one digit more. -/
theorem ofDigitChars_lt (h : Digits digits) :
    Nat.ofDigitChars 10 digits 0 < 10 ^ digits.length := by
  induction digits using List.reverseRecOn with
  | nil => exact Nat.one_pos
  | append_singleton digits c ih =>
    have hfront := ih fun x hx => h x (List.mem_append_left _ hx)
    have hc := toNat_of_isDigit (h c (List.mem_append_right _ List.mem_cons_self))
    have hzero : '0'.toNat = 48 := rfl
    rw [Nat.ofDigitChars_append, Nat.ofDigitChars_cons, Nat.ofDigitChars_nil, List.length_append,
      List.length_singleton, pow_succ]
    omega

/-- A number that is no multiple of ten is shifted by as many digits as it has zeros behind it. -/
theorem exists_shift (hn : ¬10 ∣ n) {a k : Nat} (h : a * 10 ^ k = n * 10 ^ m) :
    ∃ j, m = j + k ∧ a = n * 10 ^ j := by
  have hpos (e : Nat) : 0 < 10 ^ e := Nat.pow_pos (by decide)
  obtain hlt | hle := Nat.lt_or_ge m k
  · -- With fewer zeros than that the number would be a multiple of ten.
    obtain ⟨j, rfl⟩ := Nat.exists_eq_add_of_lt hlt
    have hmul : 10 * (a * 10 ^ j) = n := by
      apply Nat.eq_of_mul_eq_mul_right (hpos m)
      rw [← h]
      ring
    exact absurd ⟨_, hmul.symm⟩ hn
  · obtain ⟨j, rfl⟩ := Nat.exists_eq_add_of_le' hle
    refine ⟨j, rfl, ?_⟩
    apply Nat.eq_of_mul_eq_mul_right (hpos k)
    rw [h, pow_add, Nat.mul_assoc]

/-- The decimal numbers that are worth such a number are it with zeros and the exponent that takes
    them back. -/
theorem exists_zeros_of_value (hn : ¬10 ∣ n) {d : Decimal} (h : d.value = n) :
    ∃ m : Nat, d.significand = n * 10 ^ m ∧ d.exponent = -(m : Int) := by
  obtain ⟨significand, exponent⟩ := d
  rw [Decimal.value] at h
  cases exponent with
  | ofNat k =>
    rw [Int.ofNat_eq_natCast, zpow_natCast] at h
    have hmul : significand * 10 ^ k = n * 10 ^ 0 := by
      rw [pow_zero, Nat.mul_one]
      exact_mod_cast h
    obtain ⟨j, hj, hsignificand⟩ := exists_shift hn hmul
    obtain ⟨rfl, rfl⟩ : j = 0 ∧ k = 0 := by omega
    exact ⟨0, hsignificand, rfl⟩
  | negSucc k =>
    refine ⟨k + 1, ?_, rfl⟩
    rw [zpow_negSucc, ← div_eq_mul_inv, div_eq_iff (by positivity)] at h
    exact_mod_cast h

/-- Digits are all zeros if they take a number to a smaller one with zeros behind it. -/
theorem ofDigitChars_eq_zero (h : Digits digits) (hlt : n < significand)
    (hvalue : Nat.ofDigitChars 10 digits significand = n * 10 ^ m) :
    Nat.ofDigitChars 10 digits 0 = 0 := by
  have hsmall := ofDigitChars_lt h
  rw [Nat.ofDigitChars_eq_ofDigitChars_zero] at hvalue
  -- There are as many zeros as digits: with fewer it would not be the smaller number.
  have hle : digits.length ≤ m := by
    refine Nat.not_lt.mp fun hshort => ?_
    have hpow : 10 ^ m ≤ 10 ^ digits.length := Nat.pow_le_pow_right (by decide) hshort.le
    have hpos : 0 < 10 ^ digits.length := Nat.pow_pos (by decide)
    have hprod : n * 10 ^ m < 10 ^ digits.length * significand := by
      calc n * 10 ^ m ≤ n * 10 ^ digits.length := Nat.mul_le_mul_left n hpow
        _ = 10 ^ digits.length * n := Nat.mul_comm _ _
        _ < 10 ^ digits.length * significand := Nat.mul_lt_mul_of_pos_left hlt hpos
    omega
  have hdvd : 10 ^ digits.length ∣ Nat.ofDigitChars 10 digits 0 := by
    rw [← Nat.dvd_add_right (Nat.dvd_mul_right (10 ^ digits.length) significand), hvalue]
    exact Nat.dvd_mul_left_of_dvd (Nat.pow_dvd_pow 10 hle) n
  exact Nat.eq_zero_of_dvd_of_lt hdvd hsmall

/-- There are fewer zeros behind a number than there are digits that spell both. -/
theorem zeros_lt (h : Digits digits) (hn : n ≠ 0)
    (hvalue : Nat.ofDigitChars 10 digits 0 = n * 10 ^ m) : m < digits.length := by
  have hlt := ofDigitChars_lt h
  rw [hvalue] at hlt
  have hle : 10 ^ m ≤ n * 10 ^ m := Nat.le_mul_of_pos_left _ (Nat.pos_of_ne_zero hn)
  apply (Nat.pow_lt_pow_iff_right (by decide : 1 < 10)).mp
  omega

/-- If digits with a cut in them take the significand to a number that is far within the bound,
    with zeros behind it, then those behind the cut are zeros too, and are as good as an
    exponent. -/
theorem CutAt.value_dropped {bound : Nat} (hcut : CutAt bound significand front back)
    (hb : Digits back) (hl : Digits later) (hfar : n * 10 + 9 < bound)
    (hvalue : Nat.ofDigitChars 10 (front ++ back ++ later) significand = n * 10 ^ m) :
    Nat.ofDigitChars 10 later (Nat.ofDigitChars 10 front significand) * 10 ^ back.length =
      n * 10 ^ m := by
  cases back with
  | nil =>
    rw [List.append_nil, Nat.ofDigitChars_append] at hvalue
    rw [List.length_nil, pow_zero, Nat.mul_one]
    exact hvalue
  | cons c dropped =>
    have hpast := hcut.past c dropped rfl
    have hc := toNat_of_isDigit (hb c List.mem_cons_self)
    have hlt : n < Nat.ofDigitChars 10 front significand := by
      have hzero : '0'.toNat = 48 := rfl
      omega
    rw [List.append_assoc, Nat.ofDigitChars_append] at hvalue
    generalize Nat.ofDigitChars 10 front significand = gathered at hvalue hlt ⊢
    have hall := ofDigitChars_eq_zero (fun x hx => (List.mem_append.mp hx).elim (hb x) (hl x)) hlt
      hvalue
    have hlater : Nat.ofDigitChars 10 later 0 = 0 := by
      rw [Nat.ofDigitChars_append, Nat.ofDigitChars_eq_ofDigitChars_zero] at hall
      exact Nat.eq_zero_of_add_eq_zero_left hall
    rw [Nat.ofDigitChars_eq_ofDigitChars_zero, hall, List.length_append, pow_add] at hvalue
    rw [Nat.ofDigitChars_eq_ofDigitChars_zero, hlater, ← hvalue]
    ring

end Digits

/-! ## Numerals -/

theorem numeric_digits {digits : List Char} (h : Digits digits) : Numeric digits := by
  intro c hc
  rw [isNumeric, h c hc, Bool.true_or]

namespace Numeral

open Text.Utf8

variable {n : Nat} {numeral : Numeral} {rest : List UInt8}

/-- A numeral has a byte for each of its digits. -/
theorem length_digits_le (numeral : Numeral) :
    numeral.whole.length + numeral.fraction.length ≤ numeral.bytes.length := by
  have hwhole := length_encode_numeric (numeric_digits numeral.whole_digits)
  have hfraction := length_encode_numeric (numeric_digits numeral.fraction_digits)
  have hpoint : numeral.fraction.length ≤ (encode numeral.fractionChars).length := by
    rw [fractionChars]
    split
    · next hf => rw [hf, List.length_nil]; omega
    · rw [encode_cons_of_ascii (by decide), List.length_cons]; omega
  have hunsigned : (encode numeral.unsignedChars).length ≤ numeral.bytes.length := by
    rw [bytes, chars]
    split
    · rw [encode_cons_of_ascii (by decide), List.length_cons]; omega
    · exact Nat.le_refl _
  rw [unsignedChars, encode_append, encode_append, List.length_append, List.length_append]
    at hunsigned
  omega

/-- A numeral with the value of a natural number has no minus sign, unless that is zero. -/
theorem eq_of_value (hn : n ≠ 0) (h : numeral.value = n) :
    numeral.negative = false ∧ numeral.decimal.value = n := by
  rw [value] at h
  split at h
  · have hpos : (0 : ℚ) < n := by exact_mod_cast Nat.pos_of_ne_zero hn
    have hnonneg : 0 ≤ numeral.decimal.value :=
      mul_nonneg (Nat.cast_nonneg _) (zpow_nonneg (by norm_num) _)
    linarith
  · exact ⟨Bool.eq_false_iff.mpr ‹_›, h⟩

/-- However a natural number is written that is no multiple of ten and far within the bound, it is
    read as itself, or with some zeros behind it and an exponent that takes them back. -/
theorem readNumber_of_value (hn : ¬10 ∣ n) (hfar : n * 10 + 9 < maxSignificand)
    (h : numeral.value = n) (hlen : numeral.bytes.length ≤ maxExponent) (hr : EndsNumber rest) :
    readNumber (numeral.bytes ++ rest) = wholeNumber false n rest ∨
      ∃ j : Nat, n * 10 ^ j ≤ maxSignificand ∧
        readNumber (numeral.bytes ++ rest) = floatOf false (n * 10 ^ j) (-(j : Int)) rest := by
  have hzero : n ≠ 0 := by
    rintro rfl
    exact hn (Nat.dvd_zero 10)
  obtain ⟨hsign, hdecimal⟩ := eq_of_value hzero h
  obtain ⟨m, hdigits, hscale⟩ := exists_zeros_of_value hn hdecimal
  replace hdigits : Nat.ofDigitChars 10 (numeral.whole ++ numeral.fraction) 0 = n * 10 ^ m :=
    hdigits
  replace hscale : numeral.scale - numeral.fraction.length = -(m : Int) := hscale
  -- There are fewer zeros than digits, so that the exponent is not too long.
  have hm := zeros_lt (List.forall_mem_append.mpr
    ⟨numeral.whole_digits, numeral.fraction_digits⟩) hzero hdigits
  have hexponent : numeral.scale.natAbs ≤ maxExponent := by
    have hlength := numeral.length_digits_le
    rw [List.length_append] at hm
    omega
  obtain ⟨front, back, gathered, dropped, hwhole, hfraction, hcut, hcut', hread⟩ :=
    numeral.readNumber_cases hexponent hr
  -- What was dropped were zeros, first before the point and then behind it.
  have hback : Digits back := fun c hc =>
    numeral.whole_digits c (hwhole ▸ List.mem_append_right _ hc)
  have hdropped : Digits dropped := fun c hc =>
    numeral.fraction_digits c (hfraction ▸ List.mem_append_right _ hc)
  rw [hwhole] at hdigits
  have hnone : Digits [] := List.forall_mem_nil _
  obtain ⟨k, rfl, hgathered⟩ := exists_shift hn
    (hcut.value_dropped hback numeral.fraction_digits hfar hdigits)
  rw [hfraction, ← List.append_nil (gathered ++ dropped)] at hgathered
  obtain ⟨j, rfl, hsignificand⟩ := exists_shift hn
    (hcut'.value_dropped hdropped hnone hfar hgathered)
  rw [Nat.ofDigitChars_nil] at hsignificand
  rw [hfraction, List.length_append] at hscale
  obtain ⟨⟨hf, he⟩, hread⟩ | hread := hread
  · -- A whole numeral has nothing that zeros could be taken back by.
    have hnoscale : numeral.scale = 0 := by rw [scale, he]
    rw [hfraction] at hf
    obtain ⟨rfl, rfl⟩ := List.append_eq_nil_iff.mp hf
    obtain rfl : j = 0 := by
      simp only [hnoscale, List.length_nil] at hscale
      omega
    rw [Nat.ofDigitChars_nil, pow_zero, Nat.mul_one] at hsignificand
    left
    rw [hread, hsign, hsignificand]
  · right
    refine ⟨j, hsignificand ▸ hcut'.le, ?_⟩
    rw [hread, hsign, hsignificand]
    congr 1
    omega

end Numeral

/-! ## Texts that hold a numeral -/

/-- That bytes are all blanks. -/
def Blank (bytes : List UInt8) : Prop := ∀ b ∈ bytes, isBlank b = true

section Texts

variable {before after : List UInt8} {numeral : Numeral}

theorem Blank.skipBlanks_append (h : Blank before) (text : List UInt8) :
    skipBlanks (before ++ text) = skipBlanks text :=
  List.dropWhile_append_of_pos h

theorem Blank.skipBlanks_eq_nil (h : Blank after) : skipBlanks after = [] :=
  List.dropWhile_eq_nil_iff.mpr h

/-- Blanks end a number. -/
theorem Blank.endsNumber (h : Blank after) : EndsNumber after := by
  cases after with
  | nil => trivial
  | cons b rest =>
    have hb := h b List.mem_cons_self
    simp only [isBlank, Bool.or_eq_true, beq_iff_eq] at hb
    obtain ((rfl | rfl) | rfl) | rfl := hb <;> exact ⟨rfl, by decide, by decide, by decide⟩

/-- A text with a numeral among blanks is read as the number that the numeral is read as. -/
theorem read_numeral_iff (hb : Blank before) {n : Number} :
    read (before ++ numeral.bytes ++ after) = .ok (.number n) ↔
      ∃ rest, readNumber (numeral.bytes ++ after) = .ok (n, rest) ∧ skipBlanks rest = [] := by
  obtain ⟨b, tail, hbytes, hhead⟩ := numeral.exists_head
  have hbegins : BeginsValue (b :: (tail ++ after)) := beginsValue_of_number hhead
  have hvalue : readValue maxDepth (before ++ numeral.bytes ++ after) =
      readNumber (numeral.bytes ++ after) >>= fun read => .ok (.number read.1, read.2) := by
    rw [List.append_assoc, skipsBlanks_readValue maxDepth (hb.skipBlanks_append _), hbytes,
      List.cons_append, ← readScalar_of_head hhead]
    refine readValue_scalar (skipBlanks_of_begins hbegins) ?_ ?_
    · rintro rfl
      exact absurd hhead (by decide)
    · rintro rfl
      exact absurd hhead (by decide)
  rw [read, readDocument, hvalue]
  cases readNumber (numeral.bytes ++ after) with
  | error stop => simp [Except.mapError]
  | ok result =>
    obtain ⟨m, rest⟩ := result
    simp only [ok_bind]
    split
    · next hend => simp [hend, Except.mapError]
    · next hend =>
      have hrest : skipBlanks rest ≠ [] := hend
      simp [Except.mapError, Stop.peek, hrest]

end Texts

end WireForm.Json
