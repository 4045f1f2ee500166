import WireForm.Proofs.Binary64.Written
import WireForm.Proofs.Json.NumberReadBack

/-!
# Written floats are read

The text of a float spells a decimal number of so few digits that the reader drops none of them.
What the reader makes of the decimal number is always a number again, and of the same sign; where
the digits and the exponent are small it is the float that was written.
-/

namespace WireForm.Json

open Text.Utf8
open Binary64 (Decimal)

/-! ## Parts of a number -/

section Parts

variable {negative : Bool} {rest : List UInt8}

/-- That a text is made of digits. -/
def Digits (chars : List Char) : Prop := ∀ c ∈ chars, c.isDigit = true

theorem digits_toDigits (n : Nat) : Digits (Nat.toDigits 10 n) :=
  fun _ hc => Nat.isDigit_of_mem_toDigits (by decide) (by decide) hc

/-- The digits of a fraction are gathered, and each of them takes one off the exponent. -/
theorem readFraction_digits {fraction : List Char} (hf : Digits fraction) (hne : fraction ≠ [])
    {significand : Nat} (hb : Nat.ofDigitChars 10 fraction significand ≤ maxSignificand)
    (hr : startsWithDigit rest = false) :
    readFraction negative significand 0 (encode fraction ++ rest) =
      readScale negative (Nat.ofDigitChars 10 fraction significand) (-fraction.length) rest := by
  have hlen : fraction.length ≠ 0 := List.length_eq_zero_iff.not.mpr hne
  simp only [readFraction, gather_digits maxSignificand hr fraction hf significand 0 hb, hr,
    Nat.zero_add, hlen, if_false, Bool.false_eq_true]
  congr 1
  omega

/-- The digits of a number within a bound are gathered from the first on. -/
theorem gather_toDigits {bound k : Nat} (hk : k ≤ bound) (hr : startsWithDigit rest = false) :
    ∃ b tail d count, encode (Nat.toDigits 10 k) ++ rest = b :: tail ∧ digit? b = some d ∧
      gather bound d 1 tail = (k, count, rest) := by
  have hdigits := digits_toDigits k
  have hvalue : Nat.ofDigitChars 10 (Nat.toDigits 10 k) 0 = k := Nat.ofDigitChars_ten_toDigits
  cases hds : Nat.toDigits 10 k with
  | nil => exact absurd hds Nat.toDigits_ne_nil
  | cons c digits =>
    rw [hds] at hdigits hvalue
    obtain ⟨hc, hdigits⟩ := List.forall_mem_cons.mp hdigits
    rw [Nat.ofDigitChars_cons, Nat.mul_zero, Nat.zero_add] at hvalue
    have hg := gather_digits bound hr digits hdigits _ 1 (hvalue.trans_le hk)
    rw [hvalue] at hg
    refine ⟨_, _, _, _, ?_, digit?_ofNat hc, hg⟩
    rw [encode_cons_of_ascii (lt_of_isDigit hc), List.cons_append]

/-- An exponent part is added to the exponent. -/
theorem readScale_exponent {significand : Nat} {scale exponent : Int}
    (he : exponent.natAbs ≤ maxExponent) (hr : EndsNumber rest) :
    readScale negative significand scale
        (encode ('e' :: (if exponent < 0 then '-' else '+') :: Nat.toDigits 10 exponent.natAbs) ++
          rest) =
      floatOf negative significand (scale + exponent) rest := by
  obtain ⟨b, tail, d, count, htext, hd, hg⟩ := gather_toDigits he hr.startsWithDigit
  by_cases hneg : exponent < 0
  · have hsum : scale - (exponent.natAbs : Int) = scale + exponent := by omega
    rw [if_pos hneg, encode_cons_of_ascii (by decide), encode_cons_of_ascii (by decide),
      List.cons_append, List.cons_append, htext]
    show readExponent negative significand scale (0x2D :: b :: tail) = _
    simp only [readExponent, hd, hg, hr.startsWithDigit, hsum, if_true, Bool.false_eq_true, if_false]
  · have hsum : scale + (exponent.natAbs : Int) = scale + exponent := by omega
    rw [if_neg hneg, encode_cons_of_ascii (by decide), encode_cons_of_ascii (by decide),
      List.cons_append, List.cons_append, htext]
    show readExponent negative significand scale (0x2B :: b :: tail) = _
    simp only [readExponent, hd, hg, hr.startsWithDigit, hsum, Bool.false_eq_true, if_false]

/-- What ends a number is no exponent part. -/
theorem readScale_of_endsNumber {significand : Nat} {scale : Int} (hr : EndsNumber rest) :
    readScale negative significand scale rest = floatOf negative significand scale rest := by
  unfold readScale
  split
  · exact absurd rfl hr.2.2.1
  · exact absurd rfl hr.2.2.2
  · rfl

/-- Digits before a point or an exponent part are gathered. -/
theorem gather_whole {c : Char} {digits : List Char} (hd : Digits (c :: digits)) (hc : c ≠ '0')
    (hb : Nat.ofDigitChars 10 (c :: digits) 0 ≤ maxSignificand)
    (hr : startsWithDigit rest = false) :
    ∃ d count, digit? (.ofNat c.toNat) = some d ∧ d ≠ 0 ∧
      gather maxSignificand d 1 (encode digits ++ rest) =
        (Nat.ofDigitChars 10 (c :: digits) 0, count, rest) := by
  obtain ⟨hdigit, hdigits⟩ := List.forall_mem_cons.mp hd
  rw [Nat.ofDigitChars_cons, Nat.mul_zero, Nat.zero_add] at hb ⊢
  refine ⟨_, _, digit?_ofNat hdigit, ?_, gather_digits maxSignificand hr digits hdigits _ 1 hb⟩
  intro hzero
  obtain ⟨hlow, -⟩ := toNat_of_isDigit hdigit
  exact hc (Char.toNat_inj.mp (by simp at hzero ⊢; omega))

/-- A number with digits before the point and behind it. -/
theorem readUnsigned_point {c : Char} {digits : List Char} (hd : Digits (c :: digits))
    (hc : c ≠ '0') (hb : Nat.ofDigitChars 10 (c :: digits) 0 ≤ maxSignificand) :
    readUnsigned negative (encode (c :: digits) ++ 0x2E :: rest) =
      readFraction negative (Nat.ofDigitChars 10 (c :: digits) 0) 0 rest := by
  have hstop : startsWithDigit (0x2E :: rest) = false := rfl
  obtain ⟨d, count, hdigit, hne, hg⟩ := gather_whole hd hc hb hstop
  rw [encode_cons_of_ascii (lt_of_isDigit (List.forall_mem_cons.mp hd).1), List.cons_append]
  simp only [readUnsigned, hdigit, hg, skipDigits_of_noDigit hstop]

/-- A number with digits before the exponent part and no point. -/
theorem readUnsigned_exponent {c : Char} {digits : List Char} (hd : Digits (c :: digits))
    (hc : c ≠ '0') (hb : Nat.ofDigitChars 10 (c :: digits) 0 ≤ maxSignificand) :
    readUnsigned negative (encode (c :: digits) ++ 0x65 :: rest) =
      readScale negative (Nat.ofDigitChars 10 (c :: digits) 0) 0 (0x65 :: rest) := by
  have hstop : startsWithDigit (0x65 :: rest) = false := rfl
  obtain ⟨d, count, hdigit, hne, hg⟩ := gather_whole hd hc hb hstop
  rw [encode_cons_of_ascii (lt_of_isDigit (List.forall_mem_cons.mp hd).1), List.cons_append]
  simp only [readUnsigned, hdigit, hg, skipDigits_of_noDigit hstop]
  rfl

end Parts

/-! ## Notations -/

section Notations

variable {negative : Bool} {c : Char} {digits : List Char} {rest : List UInt8}

/-- Digits in front make no more than all digits do. -/
theorem ofDigitChars_le (front back : List Char) :
    Nat.ofDigitChars 10 front 0 ≤ Nat.ofDigitChars 10 (front ++ back) 0 := by
  rw [Nat.ofDigitChars_append, Nat.ofDigitChars_eq_ofDigitChars_zero (l := back)]
  have hpow : 0 < 10 ^ back.length := Nat.pow_pos (by decide)
  exact Nat.le_trans (Nat.le_mul_of_pos_left _ hpow) (Nat.le_add_right _ _)

/-- Digits around a point spell a number with as many digits after the point. -/
theorem readUnsigned_around_point {fraction : List Char} (hd : Digits (c :: digits)) (hc : c ≠ '0')
    (hf : Digits fraction) (hne : fraction ≠ [])
    (hb : Nat.ofDigitChars 10 (c :: digits ++ fraction) 0 ≤ maxSignificand)
    (hr : startsWithDigit rest = false) :
    readUnsigned negative (encode (c :: digits ++ '.' :: fraction) ++ rest) =
      readScale negative (Nat.ofDigitChars 10 (c :: digits ++ fraction) 0) (-fraction.length)
        rest := by
  rw [encode_append, encode_cons_of_ascii (c := '.') (by decide), List.append_assoc,
    List.cons_append]
  show readUnsigned negative (encode (c :: digits) ++ 0x2E :: (encode fraction ++ rest)) = _
  rw [readUnsigned_point hd hc (Nat.le_trans (ofDigitChars_le _ _) hb)]
  rw [Nat.ofDigitChars_append] at hb ⊢
  exact readFraction_digits hf hne hb hr

theorem digits_zeros (n : Nat) : Digits (List.replicate n '0') := by
  intro c hc
  rw [List.eq_of_mem_replicate hc]
  decide

/-- A whole number is filled up with zeros, and one zero stands behind the point. -/
theorem readUnsigned_whole {zeros : Nat} (hd : Digits (c :: digits)) (hc : c ≠ '0')
    (hb : Nat.ofDigitChars 10 (c :: digits) 0 * 10 ^ (zeros + 1) ≤ maxSignificand)
    (hr : EndsNumber rest) :
    readUnsigned negative
        (encode (c :: digits ++ List.replicate zeros '0' ++ '.' :: ['0']) ++ rest) =
      floatOf negative (Nat.ofDigitChars 10 (c :: digits) 0 * 10 ^ (zeros + 1)) (-1) rest := by
  have hvalue : Nat.ofDigitChars 10 (c :: (digits ++ List.replicate zeros '0') ++ ['0']) 0 =
      Nat.ofDigitChars 10 (c :: digits) 0 * 10 ^ (zeros + 1) := by
    have hzeros : List.replicate zeros '0' ++ ['0'] = List.replicate (zeros + 1) '0' :=
      List.replicate_succ'.symm
    rw [← List.cons_append, List.append_assoc, hzeros, Nat.ofDigitChars_append,
      Nat.ofDigitChars_replicate_zero, Nat.mul_comm]
  have hdigits : Digits (c :: (digits ++ List.replicate zeros '0')) :=
    List.forall_mem_append.mpr ⟨hd, digits_zeros zeros⟩
  have hread := @readUnsigned_around_point negative _ _ _ _ hdigits hc (digits_zeros 1)
    (List.cons_ne_nil _ _) (hvalue.trans_le hb) hr.startsWithDigit
  rw [readScale_of_endsNumber hr] at hread
  exact hvalue ▸ hread

/-- A number below one has zeros behind the point before its digits. -/
theorem readUnsigned_below_one {zeros : Nat} (hd : Digits (c :: digits))
    (hb : Nat.ofDigitChars 10 (c :: digits) 0 ≤ maxSignificand) (hr : EndsNumber rest) :
    readUnsigned negative
        (encode ('0' :: '.' :: List.replicate zeros '0' ++ c :: digits) ++ rest) =
      floatOf negative (Nat.ofDigitChars 10 (c :: digits) 0)
        (-((zeros + (c :: digits).length : ℕ) : Int)) rest := by
  have hvalue : Nat.ofDigitChars 10 (List.replicate zeros '0' ++ c :: digits) 0 =
      Nat.ofDigitChars 10 (c :: digits) 0 := by
    rw [Nat.ofDigitChars_append, Nat.ofDigitChars_replicate_zero, Nat.mul_zero]
  have hdigits : Digits (List.replicate zeros '0' ++ c :: digits) :=
    List.forall_mem_append.mpr ⟨digits_zeros zeros, hd⟩
  have hread := @readFraction_digits negative _ _ hdigits (by simp) _
    (hvalue.trans_le hb) hr.startsWithDigit
  rw [hvalue, readScale_of_endsNumber hr, List.length_append, List.length_replicate] at hread
  rw [List.cons_append, List.cons_append, encode_cons_of_ascii (by decide),
    encode_cons_of_ascii (by decide)]
  exact hread

/-- With a point among its digits a number has as many digits after it as are left. -/
theorem readUnsigned_among {before : Nat} (hd : Digits (c :: digits)) (hc : c ≠ '0')
    (hlt : before + 1 < (c :: digits).length)
    (hb : Nat.ofDigitChars 10 (c :: digits) 0 ≤ maxSignificand) (hr : EndsNumber rest) :
    readUnsigned negative
        (encode ((c :: digits).take (before + 1) ++ '.' :: (c :: digits).drop (before + 1)) ++
          rest) =
      floatOf negative (Nat.ofDigitChars 10 (c :: digits) 0)
        ((before : Int) + 1 - (c :: digits).length) rest := by
  have hsplit : c :: digits.take before ++ (c :: digits).drop (before + 1) = c :: digits :=
    List.take_append_drop (before + 1) (c :: digits)
  have hfront : Digits (c :: digits.take before) :=
    fun x hx => hd x (List.take_subset (before + 1) _ hx)
  have hback : Digits ((c :: digits).drop (before + 1)) := fun x hx => hd x (List.drop_subset _ _ hx)
  have hne : (c :: digits).drop (before + 1) ≠ [] := List.drop_eq_nil_iff.not.mpr (by omega)
  have hread := @readUnsigned_around_point negative _ _ rest _ hfront hc hback hne
    (by rw [hsplit]; exact hb) hr.startsWithDigit
  have hscale : -(((c :: digits).drop (before + 1)).length : Int) =
      (before : Int) + 1 - (c :: digits).length := by
    rw [List.length_drop]
    omega
  rw [hsplit, readScale_of_endsNumber hr, hscale] at hread
  rw [List.take_succ_cons]
  exact hread

/-- Digits in plain notation are read as what they spell. -/
theorem readUnsigned_plainText {exponent : Int} {layout : Binary64.Layout} {d : Decimal}
    (hd : Digits (c :: digits)) (hc : c ≠ '0') (hlow : layout.leastPlain ≤ exponent)
    (hhigh : exponent ≤ layout.greatestPlain)
    (hspell : Binary64.spelled layout (c :: digits) exponent = d)
    (hb : d.significand ≤ maxSignificand) (hr : EndsNumber rest) :
    readUnsigned negative (encode (Binary64.plainText (c :: digits) exponent) ++ rest) =
      floatOf negative d.significand d.exponent rest := by
  by_cases hwhole : ((c :: digits).length : Int) ≤ exponent + 1
  · cases exponent with
    | negSucc k =>
      rw [List.length_cons] at hwhole
      omega
    | ofNat e =>
      -- All digits stand before the point.
      have hle : (c :: digits).length ≤ e + 1 := by
        rw [Int.ofNat_eq_natCast] at hwhole
        omega
      have hexp : (Int.ofNat e + 2 - (c :: digits).length).toNat =
          e + 1 - (c :: digits).length + 1 := by
        rw [Int.ofNat_eq_natCast]
        omega
      rw [Binary64.spelled, if_pos ⟨hlow, hhigh, hwhole⟩, hexp] at hspell
      subst hspell
      rw [Binary64.plainText_of_length_le hle]
      exact readUnsigned_whole hd hc hb hr
  · have hnot : ¬ (layout.leastPlain ≤ exponent ∧ exponent ≤ layout.greatestPlain ∧
        ((c :: digits).length : Int) ≤ exponent + 1) := fun h => hwhole h.2.2
    rw [Binary64.spelled, if_neg hnot] at hspell
    subst hspell
    dsimp only at hb ⊢
    cases exponent with
    | ofNat e =>
      -- The point stands among the digits.
      have hlt : e + 1 < (c :: digits).length := by
        rw [Int.ofNat_eq_natCast] at hwhole
        omega
      rw [Binary64.plainText_of_lt_length hlt]
      exact readUnsigned_among hd hc hlt hb hr
    | negSucc k =>
      -- The point stands before all digits.
      have hexp : -((k + (c :: digits).length : ℕ) : Int) =
          Int.negSucc k + 1 - (c :: digits).length := by omega
      rw [← hexp]
      exact readUnsigned_below_one hd hb hr

/-- Digits with an exponent part are read as what they spell. -/
theorem readUnsigned_exponentText {exponent : Int} (hd : Digits (c :: digits)) (hc : c ≠ '0')
    (he : exponent.natAbs ≤ maxExponent)
    (hb : Nat.ofDigitChars 10 (c :: digits) 0 ≤ maxSignificand) (hr : EndsNumber rest) :
    readUnsigned negative (encode (Binary64.exponentText (c :: digits) exponent) ++ rest) =
      floatOf negative (Nat.ofDigitChars 10 (c :: digits) 0)
        (exponent + 1 - (c :: digits).length) rest := by
  have hexponent := @readScale_exponent negative _ (Nat.ofDigitChars 10 (c :: digits) 0)
    (-(digits.length : Int)) _ he hr
  have hscale : -(digits.length : Int) + exponent = exponent + 1 - (c :: digits).length := by
    rw [List.length_cons]
    omega
  rw [hscale] at hexponent
  rw [← hexponent]
  generalize hpart : 'e' :: (if exponent < 0 then '-' else '+') :: Nat.toDigits 10 exponent.natAbs
    = part
  have hstart : encode part ++ rest = 0x65 :: (encode part.tail ++ rest) := by
    rw [← hpart, encode_cons_of_ascii (by decide)]
    rfl
  have hstop : startsWithDigit (encode part ++ rest) = false := by
    rw [hstart]
    rfl
  cases digits with
  | nil =>
    have htext : Binary64.exponentText [c] exponent = [c] ++ part := hpart ▸ rfl
    rw [htext, encode_append, List.append_assoc, hstart]
    exact readUnsigned_exponent hd hc hb
  | cons second digits =>
    have htext : Binary64.exponentText (c :: second :: digits) exponent =
        [c] ++ '.' :: (second :: digits) ++ part := hpart ▸ rfl
    obtain ⟨hfirst, hfraction⟩ := List.forall_mem_cons.mp hd
    rw [htext, encode_append, List.append_assoc]
    exact readUnsigned_around_point (List.forall_mem_singleton.mpr hfirst) hc hfraction
      (List.cons_ne_nil _ _) hb hstop

end Notations

/-! ## Floats -/

section Floats

open Binary64 (written largest)

variable {negative : Bool} {rest : List UInt8}

/-- The significant digits of a positive number do not begin with zero. -/
theorem significantDigits_cons {n : Nat} (h : 0 < n) :
    ∃ c digits, Binary64.significantDigits n = c :: digits ∧ c ≠ '0' ∧ Digits (c :: digits) := by
  obtain ⟨zeros, hn⟩ := Binary64.toDigits_eq_significantDigits n
  have hvalue := Binary64.ofDigitChars_significantDigits n
  have hdigits : Digits (Binary64.significantDigits n) := fun _ => Binary64.mem_significantDigits
  cases hds : Binary64.significantDigits n with
  | nil =>
    rw [hds, Nat.ofDigitChars_nil, Nat.zero_mul] at hvalue
    omega
  | cons c digits =>
    have hhead := head?_toDigits_ne h
    rw [hn, hds] at hhead
    exact ⟨c, digits, rfl, fun hc => hhead (congrArg some hc), hds ▸ hdigits⟩

/-- The text of a magnitude is read as the decimal number that it spells. -/
theorem readUnsigned_magnitudeText {n : Nat} (h : 0 < n) (hfinite : n ≤ largest)
    (hr : EndsNumber rest) :
    readUnsigned negative (encode (Binary64.magnitudeText Binary64.plainRange n) ++ rest) =
      floatOf negative (written n).significand (written n).exponent rest := by
  obtain ⟨k, -, -, -, hord⟩ := Binary64.shortest_spec h
  have hpos : 0 < (Binary64.shortest n).significand :=
    Binary64.Decimal.pos_of_ordinal (hord.symm ▸ h)
  obtain ⟨c, digits, hdigits, hc, hd⟩ := significantDigits_cons hpos
  have hbound : (written n).significand ≤ maxSignificand :=
    Nat.le_trans (Binary64.written_significand_le h) (by decide)
  have hexponent := Nat.le_trans (Binary64.natAbs_firstExponent_lt h hfinite).le
    (by decide : 1000 ≤ maxExponent)
  have hspell := (Binary64.written_eq n).symm
  rw [hdigits] at hspell
  rw [Binary64.magnitudeText_eq Binary64.plainRange h, hdigits]
  generalize written n = d at hspell hbound ⊢
  split
  · next hplain => exact readUnsigned_plainText hd hc hplain.1 hplain.2 hspell hbound hr
  · next hplain =>
    -- Outside the plain range a text spells its digits as they are.
    have hnot : ∀ {p : Prop}, ¬ (_ ∧ _ ∧ p) := fun hall => hplain ⟨hall.1, hall.2.1⟩
    rw [Binary64.spelled, if_neg hnot] at hspell
    subst hspell
    exact readUnsigned_exponentText hd hc hexponent hbound hr

theorem floatOf_eq_ok {significand : Nat} {scale : Int} {y : Binary64}
    (h : (Binary64.ofNat? significand).bind (·.scaleTen? scale) = some y) :
    floatOf negative significand scale rest =
      .ok (.float { y with negative := negative }, rest) := by
  -- The definition is opened as a function: opened at its arguments it would be computed.
  suffices hopen : ∀ f, f = floatOf → f negative significand scale rest =
      .ok (.float { y with negative := negative }, rest) from hopen floatOf rfl
  intro f hf
  delta floatOf at hf
  rw [hf]
  beta_reduce
  generalize (Binary64.ofNat? significand).bind (·.scaleTen? scale) = scaled at h
  subst h
  rfl

/-- A zero is read as itself. -/
theorem readUnsigned_zero_text (hr : EndsNumber rest) :
    readUnsigned negative (encode (Binary64.magnitudeText Binary64.plainRange 0) ++ rest) =
      .ok (.float { Binary64.zero with negative := negative }, rest) := by
  have htext : Binary64.magnitudeText Binary64.plainRange 0 = '0' :: '.' :: ['0'] := if_pos rfl
  have hzero : (Binary64.ofNat? 0).bind (·.scaleTen? (-1)) = some Binary64.zero := by
    decide +kernel
  have hfraction := @readFraction_digits negative _ _ (digits_zeros 1) (List.cons_ne_nil _ _) 0
    (Nat.zero_le _) hr.startsWithDigit
  rw [readScale_of_endsNumber hr] at hfraction
  rw [htext, encode_cons_of_ascii (by decide), encode_cons_of_ascii (by decide)]
  exact hfraction.trans (floatOf_eq_ok hzero)

/-- What is read as a number without a sign is a number. -/
theorem readNumber_of_readUnsigned {text : List UInt8} {result : After Number}
    (h : readUnsigned false text = .ok result) : readNumber text = .ok result := by
  cases text with
  | nil => exact nomatch h
  | cons b tail =>
    have hb : b ≠ 0x2D := by
      rintro rfl
      exact nomatch h
    rwa [readNumber_of_ne_minus hb]

theorem readNumber_minus (text : List UInt8) :
    readNumber (0x2D :: text) = readUnsigned true text := rfl

/-- The text of a float is read when that of its magnitude is. -/
theorem rereadAs_float {x : Binary64} {m : Number}
    (h : ∀ rest, EndsNumber rest → readUnsigned x.negative
      (encode (Binary64.magnitudeText Binary64.plainRange x.ordinal) ++ rest) = .ok (m, rest)) :
    RereadAs (.float x) m := by
  intro rest hr
  have hread := h rest hr
  rw [Number.text, Binary64.text]
  cases hneg : x.negative with
  | false =>
    rw [hneg] at hread
    rw [if_neg Bool.false_ne_true]
    exact readNumber_of_readUnsigned hread
  | true =>
    rw [hneg] at hread
    rw [if_pos rfl, encode_cons_of_ascii (by decide), List.cons_append]
    exact (readNumber_minus _).trans hread

/-- The largest magnitudes are read without overflow: here the errors of the reader could go past
    the limit, and do not. -/
theorem written_largest :
    ∀ n ∈ [largest - 2, largest - 1, largest],
      ((Binary64.ofNat? (written n).significand).bind (·.scaleTen? (written n).exponent)).isSome := by
  decide +kernel

/-- What the text of a magnitude spells is a number when it is scaled step by step. -/
theorem exists_scaled_written {n : Nat} (h : 0 < n) (hfinite : n ≤ largest) :
    ∃ y, (Binary64.ofNat? (written n).significand).bind (·.scaleTen? (written n).exponent) =
      some y := by
  by_cases hsmall : n ≤ largest - 3
  · have hten : (written n).significand ≤ Binary64.tenTo 308 :=
      Nat.le_trans (Binary64.written_significand_le h) (Binary64.pow_le_tenTo (by decide))
    obtain ⟨y, hy, -⟩ := Binary64.exists_scaled (Binary64.written_pos h) hten
      ((Binary64.written_ordinal h).trans_le hsmall)
    exact ⟨y, hy⟩
  · refine Option.isSome_iff_exists.mp (written_largest n ?_)
    simp only [largest, List.mem_cons, List.not_mem_nil, or_false] at hsmall hfinite ⊢
    omega

/-- A zero is read back as it was. -/
theorem rereadAs_zero {x : Binary64} (h : x.ordinal = 0) : RereadAs (.float x) (.float x) := by
  have hx : x = { Binary64.zero with negative := x.negative } := by
    obtain ⟨negative, ordinal, finite⟩ := x
    obtain rfl : ordinal = 0 := h
    rfl
  refine rereadAs_float fun rest hr => ?_
  rw [h, readUnsigned_zero_text hr, ← hx]

/-- The text of any other float is read as what its digits make when they are converted and then
    scaled, with the sign of the float. -/
theorem exists_rereadAs_scaled {x : Binary64} (h : 0 < x.ordinal) :
    ∃ y, (Binary64.ofNat? (written x.ordinal).significand).bind
        (·.scaleTen? (written x.ordinal).exponent) = some y ∧
      RereadAs (.float x) (.float { y with negative := x.negative }) := by
  have hfinite : x.ordinal ≤ largest := Nat.le_of_lt_succ x.finite
  obtain ⟨y, hy⟩ := exists_scaled_written h hfinite
  refine ⟨y, hy, rereadAs_float fun rest hr => ?_⟩
  rw [readUnsigned_magnitudeText h hfinite hr]
  exact floatOf_eq_ok hy

/-- The text of a float is always read as a float, and of the same sign. -/
theorem exists_rereadAs_float (x : Binary64) :
    ∃ y : Binary64, RereadAs (.float x) (.float y) ∧ y.negative = x.negative := by
  obtain hzero | hpos := Nat.eq_zero_or_pos x.ordinal
  · exact ⟨x, rereadAs_zero hzero, rfl⟩
  · obtain ⟨y, -, hy⟩ := exists_rereadAs_scaled hpos
    exact ⟨_, hy, rfl⟩

end Floats

end WireForm.Json
