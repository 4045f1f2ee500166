import WireForm.Proofs.Json.FloatReadBack

/-!
# Numerals

A numeral is a number as it may be written: a sign, digits with no needless zero before them, and
perhaps a fraction and an exponent part. The reader gathers its digits into the significand while
they fit and drops the others, first before the point and then again behind it. What it makes of
a numeral depends on where these two cuts are and on the exponent, and on nothing else.
-/

namespace WireForm.Json

open Text.Utf8
open Binary64 (Decimal)

/-! ## The grammar of numerals -/

/-- The sign of an exponent, if one is written. -/
inductive ExponentSign where
  | none | plus | minus
deriving DecidableEq

/-- How the sign of an exponent is written. -/
def ExponentSign.chars : ExponentSign → List Char
  | .none => []
  | .plus => ['+']
  | .minus => ['-']

/-- The exponent part of a numeral. -/
structure ExponentPart where
  capital : Bool
  sign : ExponentSign
  digits : List Char
  all_digits : Digits digits
  digits_ne : digits ≠ []

namespace ExponentPart

/-- How an exponent part is written. -/
def chars (part : ExponentPart) : List Char :=
  (if part.capital then 'E' else 'e') :: (part.sign.chars ++ part.digits)

/-- The exponent that is written. -/
def value (part : ExponentPart) : Int :=
  if part.sign = .minus then -Nat.ofDigitChars 10 part.digits 0
  else Nat.ofDigitChars 10 part.digits 0

end ExponentPart

/-- A number as it is written. A numeral without a point has no digits of a fraction. -/
structure Numeral where
  negative : Bool
  whole : List Char
  fraction : List Char
  exponent : Option ExponentPart
  whole_digits : Digits whole
  /-- A zero before the point stands alone. -/
  whole_lead : whole = ['0'] ∨ ∃ c digits, whole = c :: digits ∧ c ≠ '0'
  fraction_digits : Digits fraction

namespace Numeral

/-- The point and the digits behind it, if there are any. -/
def fractionChars (numeral : Numeral) : List Char :=
  if numeral.fraction = [] then [] else '.' :: numeral.fraction

/-- The exponent part, if there is one. -/
def exponentChars (numeral : Numeral) : List Char :=
  match numeral.exponent with
  | none => []
  | some part => part.chars

/-- How a numeral is written after its sign. -/
def unsignedChars (numeral : Numeral) : List Char :=
  numeral.whole ++ (numeral.fractionChars ++ numeral.exponentChars)

/-- How a numeral is written. -/
def chars (numeral : Numeral) : List Char :=
  if numeral.negative then '-' :: numeral.unsignedChars else numeral.unsignedChars

/-- The bytes of a numeral. -/
def bytes (numeral : Numeral) : List UInt8 := encode numeral.chars

/-- The exponent that is written, and zero where there is none. -/
def scale (numeral : Numeral) : Int :=
  match numeral.exponent with
  | none => 0
  | some part => part.value

/-- The decimal number of a numeral without its sign: all its digits as one whole number, which is
    scaled back by the digits behind the point. -/
def decimal (numeral : Numeral) : Decimal :=
  ⟨Nat.ofDigitChars 10 (numeral.whole ++ numeral.fraction) 0,
    numeral.scale - numeral.fraction.length⟩

/-- The exact value of a numeral. -/
def value (numeral : Numeral) : ℚ :=
  if numeral.negative then -numeral.decimal.value else numeral.decimal.value

/-- That a numeral has neither a fraction nor an exponent part. -/
def IsWhole (numeral : Numeral) : Prop := numeral.fraction = [] ∧ numeral.exponent = none

end Numeral

/-! ## Digits that fit and digits that do not -/

section Gathering

variable {bound significand : Nat} {front back : List Char} {rest : List UInt8}

/-- A cut through digits: with those in front the significand is within a bound, and the first of
    those behind, if there is one, would take it over the bound. -/
structure CutAt (bound significand : Nat) (front back : List Char) : Prop where
  le : Nat.ofDigitChars 10 front significand ≤ bound
  past : ∀ c later, back = c :: later →
    bound < Nat.ofDigitChars 10 front significand * 10 + (c.toNat - '0'.toNat)

theorem startsWithDigit_encode {c : Char} (h : c.isDigit = true) (digits : List Char) :
    startsWithDigit (encode (c :: digits) ++ rest) = true := by
  rw [encode_cons_of_ascii (lt_of_isDigit h), List.cons_append, startsWithDigit, digit?_ofNat h]
  rfl

/-- Digits are gathered up to a cut. -/
theorem exists_cut {digits : List Char} (hd : Digits digits) (hs : significand ≤ bound)
    (hr : startsWithDigit rest = false) (count : Nat) :
    ∃ front back, digits = front ++ back ∧ CutAt bound significand front back ∧
      gather bound significand count (encode digits ++ rest) =
        (Nat.ofDigitChars 10 front significand, count + front.length, encode back ++ rest) := by
  induction digits generalizing significand count with
  | nil => exact ⟨[], [], rfl, ⟨hs, nofun⟩, gather_of_noDigit hr bound significand count⟩
  | cons c digits ih =>
    obtain ⟨hc, hdigits⟩ := List.forall_mem_cons.mp hd
    rw [encode_cons_of_ascii (lt_of_isDigit hc), List.cons_append, gather, digit?_ofNat hc]
    dsimp only
    by_cases hfits : significand * 10 + (c.toNat - '0'.toNat) ≤ bound
    · obtain ⟨front, back, rfl, hcut, hgather⟩ := ih hdigits hfits (count + 1)
      have hcons : Nat.ofDigitChars 10 (c :: front) significand =
          Nat.ofDigitChars 10 front (significand * 10 + (c.toNat - '0'.toNat)) := by
        rw [Nat.ofDigitChars_cons, Nat.mul_comm]
      refine ⟨c :: front, back, rfl, ⟨?_, ?_⟩, ?_⟩
      · rw [hcons]
        exact hcut.le
      · rw [hcons]
        exact hcut.past
      · rw [if_pos hfits, hgather, hcons, List.length_cons, Nat.add_right_comm, Nat.add_assoc]
    · -- The digit does not fit, so the cut is before it.
      refine ⟨[], c :: digits, rfl, ⟨hs, ?_⟩, ?_⟩
      · rintro _ _ ⟨⟩
        exact Nat.not_le.mp hfits
      · rw [if_neg hfits, encode_cons_of_ascii (lt_of_isDigit hc)]
        rfl

/-- If all digits are within the bound, none of them is behind a cut. -/
theorem CutAt.back_eq_nil (h : CutAt bound significand front back)
    (hle : Nat.ofDigitChars 10 (front ++ back) significand ≤ bound) : back = [] := by
  cases back with
  | nil => rfl
  | cons c later =>
    have hpast := h.past c later rfl
    rw [Nat.ofDigitChars_append, Nat.ofDigitChars_cons,
      Nat.ofDigitChars_eq_ofDigitChars_zero (l := later)] at hle
    have hpow : 0 < 10 ^ later.length := Nat.pow_pos (by decide)
    nlinarith

/-- Digits behind a cut are passed over. -/
theorem skipDigits_encode {digits : List Char} (hd : Digits digits)
    (hr : startsWithDigit rest = false) (count : Nat) :
    skipDigits count (encode digits ++ rest) = (count + digits.length, rest) := by
  induction digits generalizing count with
  | nil =>
    cases rest with
    | nil => rfl
    | cons b rest =>
      have hb : (digit? b).isSome = false := hr
      rw [encode_nil, List.nil_append, skipDigits, hb]
      rfl
  | cons c digits ih =>
    obtain ⟨hc, hdigits⟩ := List.forall_mem_cons.mp hd
    rw [encode_cons_of_ascii (lt_of_isDigit hc), List.cons_append, skipDigits, digit?_ofNat hc,
      Option.isSome_some, if_pos rfl, ih hdigits, List.length_cons]
    congr 1
    omega

end Gathering

/-! ## Parts of a numeral -/

section Parts

variable {negative : Bool} {significand dropped : Nat} {text rest : List UInt8}

/-- What is read behind the digits before the point, some of which may have been dropped. -/
def readAfterWhole (negative : Bool) (significand dropped : Nat) (text : List UInt8) :
    Except Stop (After Number) :=
  match text with
  | 0x2E :: rest => readFraction negative significand dropped rest
  | 0x65 :: rest => readExponent negative significand dropped rest
  | 0x45 :: rest => readExponent negative significand dropped rest
  | rest =>
    if dropped = 0 then wholeNumber negative significand rest
    else floatOf negative significand dropped rest

theorem readAfterWhole_of_endsNumber (hr : EndsNumber rest) :
    readAfterWhole negative significand dropped rest =
      if dropped = 0 then wholeNumber negative significand rest
      else floatOf negative significand dropped rest := by
  unfold readAfterWhole
  split
  · exact absurd rfl hr.2.1
  · exact absurd rfl hr.2.2.1
  · exact absurd rfl hr.2.2.2
  · rfl

/-- The digits before the point are gathered up to a cut, whatever comes behind them. -/
theorem readUnsigned_whole_cut {whole : List Char} (hd : Digits whole)
    (hlead : whole = ['0'] ∨ ∃ c digits, whole = c :: digits ∧ c ≠ '0')
    (ht : startsWithDigit text = false) :
    ∃ front back, whole = front ++ back ∧ CutAt maxSignificand 0 front back ∧
      readUnsigned negative (encode whole ++ text) =
        readAfterWhole negative (Nat.ofDigitChars 10 front 0) back.length text := by
  obtain rfl | ⟨c, digits, rfl, hc⟩ := hlead
  · refine ⟨['0'], [], rfl, ⟨by decide, nofun⟩, ?_⟩
    have hzero : digit? 0x30 = some 0 := rfl
    show readUnsigned negative (0x30 :: text) = readAfterWhole negative 0 0 text
    simp only [readUnsigned, hzero, readAfterWhole]
    split <;> simp_all
  · obtain ⟨hdigit, hdigits⟩ := List.forall_mem_cons.mp hd
    have hne : c.toNat - '0'.toNat ≠ 0 := by
      intro hzero
      obtain ⟨hlow, -⟩ := toNat_of_isDigit hdigit
      exact hc (Char.toNat_inj.mp (by simp at hzero ⊢; omega))
    have hfirst : c.toNat - '0'.toNat ≤ maxSignificand := by
      have := lt_of_isDigit hdigit
      unfold maxSignificand
      omega
    obtain ⟨front, back, rfl, hcut, hgather⟩ := exists_cut hdigits hfirst ht 1
    have hcons : Nat.ofDigitChars 10 (c :: front) 0 =
        Nat.ofDigitChars 10 front (c.toNat - '0'.toNat) := by
      rw [Nat.ofDigitChars_cons, Nat.mul_zero, Nat.zero_add]
    have hback : Digits back := fun x hx => hdigits x (List.mem_append_right _ hx)
    refine ⟨c :: front, back, rfl, ⟨?_, ?_⟩, ?_⟩
    · rw [hcons]
      exact hcut.le
    · rw [hcons]
      exact hcut.past
    · rw [encode_cons_of_ascii (lt_of_isDigit hdigit), List.cons_append]
      simp only [readUnsigned, digit?_ofNat hdigit, hgather, skipDigits_encode hback ht,
        Nat.zero_add, hcons]
      rfl

/-- The digits of a fraction are gathered up to a cut of their own. -/
theorem readFraction_cut {fraction : List Char} (hf : Digits fraction) (hne : fraction ≠ [])
    (hs : significand ≤ maxSignificand) (ht : startsWithDigit text = false) :
    ∃ front back, fraction = front ++ back ∧ CutAt maxSignificand significand front back ∧
      readFraction negative significand dropped (encode fraction ++ text) =
        readScale negative (Nat.ofDigitChars 10 front significand)
          ((dropped : Int) - front.length) text := by
  obtain ⟨front, back, rfl, hcut, hgather⟩ := exists_cut hf hs ht 0
  refine ⟨front, back, rfl, hcut, ?_⟩
  have hback : Digits back := fun x hx => hf x (List.mem_append_right _ hx)
  simp only [readFraction, hgather, Nat.zero_add]
  cases back with
  | nil =>
    have hlen : front.length ≠ 0 := by
      rw [List.append_nil] at hne
      exact List.length_eq_zero_iff.not.mpr hne
    rw [encode_nil, List.nil_append, ht, if_neg Bool.false_ne_true, if_neg hlen]
  | cons c later =>
    have hc := (List.forall_mem_cons.mp hback).1
    rw [startsWithDigit_encode hc, if_pos rfl, skipDigits_encode hback ht]

/-- A plus sign before an exponent does nothing. -/
theorem readExponent_plus {b : UInt8} {d : Nat} (h : digit? b = some d) (scale : Int) :
    readExponent negative significand scale (b :: text) =
      readExponent negative significand scale (0x2B :: b :: text) := by
  conv_lhs => unfold readExponent
  split
  next heq =>
  -- A digit is no sign, so the digits begin with it.
  split at heq
  · next hb =>
    rw [(List.cons.inj hb).1] at h
    simp [digit?] at h
  · next hb =>
    rw [(List.cons.inj hb).1] at h
    simp [digit?] at h
  · obtain ⟨rfl, rfl⟩ := Prod.mk.inj heq
    rfl

/-- An exponent that is not too long is added to what the digits make of the exponent. -/
theorem readScale_part {part : ExponentPart} (hv : part.value.natAbs ≤ maxExponent)
    (hr : startsWithDigit rest = false) (scale : Int) :
    readScale negative significand scale (encode part.chars ++ rest) =
      floatOf negative significand (scale + part.value) rest := by
  obtain ⟨capital, sign, digits, hdigits, hne⟩ := part
  obtain ⟨c, later, rfl⟩ := List.exists_cons_of_ne_nil hne
  obtain ⟨hc, hlater⟩ := List.forall_mem_cons.mp hdigits
  generalize hvalue : Nat.ofDigitChars 10 (c :: later) 0 = explicit
  have hbound : explicit ≤ maxExponent := by
    rw [ExponentPart.value, hvalue] at hv
    split at hv <;> omega
  have hfirst : Nat.ofDigitChars 10 later (c.toNat - '0'.toNat) = explicit := by
    rw [← hvalue, Nat.ofDigitChars_cons, Nat.mul_zero, Nat.zero_add]
  have hgather := gather_digits maxExponent hr later hlater _ 1 (hfirst.trans_le hbound)
  rw [hfirst] at hgather
  have hdigit : digit? (.ofNat c.toNat) = some (c.toNat - '0'.toNat) := digit?_ofNat hc
  have htext : encode (c :: later) ++ rest = .ofNat c.toNat :: (encode later ++ rest) := by
    rw [encode_cons_of_ascii (lt_of_isDigit hc), List.cons_append]
  -- Whichever letter it has, an exponent part is read the same.
  have hletter : readScale negative significand scale
      (encode (ExponentPart.chars ⟨capital, sign, c :: later, hdigits, hne⟩) ++ rest) =
      readExponent negative significand scale (encode (sign.chars ++ c :: later) ++ rest) := by
    cases capital <;> rfl
  rw [hletter]
  have hplus : readExponent negative significand scale (0x2B :: (encode (c :: later) ++ rest)) =
      floatOf negative significand (scale + explicit) rest := by
    simp only [htext, readExponent, hdigit, hgather, hr, Bool.false_eq_true, if_false]
  cases sign with
  | none =>
    rw [ExponentPart.value, if_neg (by simp), hvalue, ← hplus, htext, ← readExponent_plus hdigit,
      ← htext]
    rfl
  | plus =>
    rw [ExponentPart.value, if_neg (by simp), hvalue, ← hplus]
    rfl
  | minus =>
    show readExponent negative significand scale (0x2D :: (encode (c :: later) ++ rest)) = _
    rw [ExponentPart.value, if_pos rfl, hvalue, ← Int.sub_eq_add_neg]
    simp only [htext, readExponent, hdigit, hgather, hr, Bool.false_eq_true, if_false, if_true]

end Parts

/-! ## Numerals as they are read -/

namespace Numeral

variable {numeral : Numeral} {rest after : List UInt8}

/-- What stands behind the digits before the point does not go on with them. -/
theorem startsWithDigit_tail (hr : EndsNumber rest) :
    startsWithDigit (encode (numeral.fractionChars ++ numeral.exponentChars) ++ rest) = false := by
  by_cases hf : numeral.fraction = []
  · rw [fractionChars, if_pos hf, List.nil_append, exponentChars]
    cases numeral.exponent with
    | none => exact hr.startsWithDigit
    | some part =>
      obtain ⟨capital, sign, digits, hdigits, hne⟩ := part
      cases capital <;> rfl
  · rw [fractionChars, if_neg hf]
    rfl

/-- What stands behind the digits of the fraction does not go on with them. -/
theorem startsWithDigit_exponent (hr : EndsNumber rest) :
    startsWithDigit (encode numeral.exponentChars ++ rest) = false := by
  rw [exponentChars]
  cases numeral.exponent with
  | none => exact hr.startsWithDigit
  | some part =>
    obtain ⟨capital, sign, digits, hdigits, hne⟩ := part
    cases capital <;> rfl

/-- After its sign a numeral begins with a digit. -/
theorem exists_digit (numeral : Numeral) :
    ∃ b tail, encode numeral.unsignedChars = b :: tail ∧ (digit? b).isSome = true := by
  obtain ⟨c, digits, hwhole⟩ : ∃ c digits, numeral.whole = c :: digits := by
    obtain h | ⟨c, digits, h, -⟩ := numeral.whole_lead
    · exact ⟨'0', [], h⟩
    · exact ⟨c, digits, h⟩
  have hc : c.isDigit = true := numeral.whole_digits c (hwhole ▸ List.mem_cons_self)
  rw [unsignedChars, hwhole, List.cons_append]
  refine ⟨_, _, encode_cons_of_ascii (lt_of_isDigit hc) _, ?_⟩
  rw [digit?_ofNat hc]
  rfl

/-- A numeral begins with a minus sign or a digit. -/
theorem exists_head (numeral : Numeral) :
    ∃ b tail, numeral.bytes = b :: tail ∧ (b = 0x2D ∨ (digit? b).isSome = true) := by
  rw [bytes, chars]
  split
  · exact ⟨_, _, encode_cons_of_ascii (by decide) _, .inl rfl⟩
  · obtain ⟨b, tail, hbytes, hb⟩ := numeral.exists_digit
    exact ⟨b, tail, hbytes, .inr hb⟩

/-- The sign of a numeral is read first. -/
theorem readNumber_sign (numeral : Numeral) (rest : List UInt8) :
    readNumber (numeral.bytes ++ rest) =
      readUnsigned numeral.negative (encode numeral.unsignedChars ++ rest) := by
  rw [bytes, chars]
  cases numeral.negative with
  | true =>
    rw [if_pos rfl, encode_cons_of_ascii (by decide), List.cons_append]
    exact readNumber_minus _
  | false =>
    obtain ⟨b, tail, hbytes, hb⟩ := numeral.exists_digit
    rw [if_neg Bool.false_ne_true, hbytes, List.cons_append]
    refine readNumber_of_ne_minus ?_
    rintro rfl
    exact absurd hb (by decide)

/-- After the sign the digits before the point are read, up to a cut. -/
theorem readNumber_bytes (numeral : Numeral) (hr : EndsNumber rest) :
    ∃ front back, numeral.whole = front ++ back ∧ CutAt maxSignificand 0 front back ∧
      readNumber (numeral.bytes ++ rest) =
        readAfterWhole numeral.negative (Nat.ofDigitChars 10 front 0) back.length
          (encode (numeral.fractionChars ++ numeral.exponentChars) ++ rest) := by
  obtain ⟨front, back, hwhole, hcut, hread⟩ := @readUnsigned_whole_cut numeral.negative _ _
    numeral.whole_digits numeral.whole_lead (@startsWithDigit_tail numeral _ hr)
  refine ⟨front, back, hwhole, hcut, ?_⟩
  rw [← hread, readNumber_sign, unsignedChars, encode_append numeral.whole, List.append_assoc]

/-- The exponent part is read last, if there is one. -/
theorem readScale_exponentChars {negative : Bool} {significand : Nat}
    (he : numeral.scale.natAbs ≤ maxExponent) (hr : EndsNumber rest) (scale : Int) :
    readScale negative significand scale (encode numeral.exponentChars ++ rest) =
      floatOf negative significand (scale + numeral.scale) rest := by
  rw [Numeral.scale] at he ⊢
  rw [exponentChars]
  cases hexp : numeral.exponent with
  | none =>
    rw [Int.add_zero]
    exact readScale_of_endsNumber hr
  | some part =>
    rw [hexp] at he
    exact readScale_part he hr.startsWithDigit scale

/-- Without a fraction a numeral ends there, or its exponent part is read. -/
theorem readAfterWhole_exponentChars {negative : Bool} {significand dropped : Nat}
    (he : numeral.scale.natAbs ≤ maxExponent) (hr : EndsNumber rest) :
    numeral.exponent = none ∧ readAfterWhole negative significand dropped
        (encode numeral.exponentChars ++ rest) = wholeNumber negative significand rest ∨
      readAfterWhole negative significand dropped (encode numeral.exponentChars ++ rest) =
        floatOf negative significand ((dropped : Int) + numeral.scale) rest := by
  have hscale := @readScale_exponentChars _ _ negative significand he hr dropped
  rw [exponentChars] at hscale ⊢
  cases hexp : numeral.exponent with
  | none =>
    rw [hexp] at hscale
    have hend := @readAfterWhole_of_endsNumber negative significand dropped _ hr
    by_cases hdropped : dropped = 0
    · exact .inl ⟨rfl, hend.trans (if_pos hdropped)⟩
    · rw [← hscale]
      exact .inr ((hend.trans (if_neg hdropped)).trans (readScale_of_endsNumber hr).symm)
  | some part =>
    rw [hexp] at hscale
    rw [← hscale]
    obtain ⟨capital, sign, digits, hdigits, hne⟩ := part
    cases capital <;> exact .inr rfl

/-- How a numeral is read whose exponent is not too long: its digits are cut before the point and
    behind it, and each digit that was dropped before the point or gathered behind it shifts the
    exponent. Only a whole numeral can be an integer. -/
theorem readNumber_cases (numeral : Numeral) (he : numeral.scale.natAbs ≤ maxExponent)
    (hr : EndsNumber rest) :
    ∃ front back gathered dropped, numeral.whole = front ++ back ∧
      numeral.fraction = gathered ++ dropped ∧ CutAt maxSignificand 0 front back ∧
      CutAt maxSignificand (Nat.ofDigitChars 10 front 0) gathered dropped ∧
      (numeral.IsWhole ∧ readNumber (numeral.bytes ++ rest) =
          wholeNumber numeral.negative (Nat.ofDigitChars 10 front 0) rest ∨
        readNumber (numeral.bytes ++ rest) =
          floatOf numeral.negative (Nat.ofDigitChars 10 gathered (Nat.ofDigitChars 10 front 0))
            ((back.length : Int) - gathered.length + numeral.scale) rest) := by
  obtain ⟨front, back, hwhole, hcut, hread⟩ := numeral.readNumber_bytes hr
  by_cases hf : numeral.fraction = []
  · have hnone : CutAt maxSignificand (Nat.ofDigitChars 10 front 0) [] [] := ⟨hcut.le, nofun⟩
    refine ⟨front, back, [], [], hwhole, hf, hcut, hnone, ?_⟩
    rw [hread, fractionChars, if_pos hf, List.nil_append, Nat.ofDigitChars_nil, List.length_nil,
      Int.natCast_zero, Int.sub_zero]
    exact (readAfterWhole_exponentChars he hr).imp_left fun h => ⟨⟨hf, h.1⟩, h.2⟩
  · obtain ⟨gathered, dropped, hfraction, hcut', hread'⟩ := @readFraction_cut numeral.negative _
      back.length _ _ numeral.fraction_digits hf hcut.le (@startsWithDigit_exponent numeral _ hr)
    refine ⟨front, back, gathered, dropped, hwhole, hfraction, hcut, hcut', .inr ?_⟩
    have htail : encode (numeral.fractionChars ++ numeral.exponentChars) ++ rest =
        0x2E :: (encode numeral.fraction ++ (encode numeral.exponentChars ++ rest)) := by
      rw [fractionChars, if_neg hf, ← List.append_assoc, ← encode_append]
      rfl
    rw [hread, htail, ← readScale_exponentChars he hr, ← hread']
    rfl

end Numeral

/-! ## Numerals that are read as integers -/

section Floats

variable {negative : Bool} {significand dropped : Nat} {scale : Int} {text rest : List UInt8}

/-- That no integer is read. -/
def ReadsNoInt (outcome : Except Stop (After Number)) : Prop :=
  ∀ n hn after, outcome ≠ .ok (.int n hn, after)

theorem readsNoInt_here {problem : Problem} : ReadsNoInt (Stop.here problem rest) := by
  intro n hn after
  simp [Stop.here]

theorem readsNoInt_peek {problem : Problem} : ReadsNoInt (Stop.peek problem rest) := by
  intro n hn after
  simp [Stop.peek]

theorem readsNoInt_float {x : Binary64} : ReadsNoInt (.ok (.float x, rest)) := by
  intro n hn after
  simp

theorem readsNoInt_floatOf : ReadsNoInt (floatOf negative significand scale rest) := by
  -- The definition is opened as a function: opened at its arguments it would be computed.
  suffices hopen : ∀ f, f = floatOf → ReadsNoInt (f negative significand scale rest) from
    hopen floatOf rfl
  intro f hf
  delta floatOf at hf
  rw [hf]
  beta_reduce
  generalize (Binary64.ofNat? significand).bind (·.scaleTen? scale) = scaled
  cases scaled with
  | none => exact readsNoInt_here
  | some x => exact readsNoInt_float

theorem readsNoInt_readExponent : ReadsNoInt (readExponent negative significand scale text) := by
  unfold readExponent
  split
  split
  · exact readsNoInt_here
  split
  · exact readsNoInt_here
  split
  split
  · split
    · exact readsNoInt_here
    · exact readsNoInt_float
  · exact readsNoInt_floatOf

theorem readsNoInt_readScale : ReadsNoInt (readScale negative significand scale text) := by
  unfold readScale
  split
  · exact readsNoInt_readExponent
  · exact readsNoInt_readExponent
  · exact readsNoInt_floatOf

theorem readsNoInt_readFraction : ReadsNoInt (readFraction negative significand dropped text) := by
  unfold readFraction
  split
  dsimp only
  split
  · exact readsNoInt_readScale
  split
  · split
    · exact readsNoInt_here
    · exact readsNoInt_peek
  · exact readsNoInt_readScale

/-- Digits that were all gathered are an integer if it is in the range and no negative zero. -/
theorem wholeNumber_eq_int_iff {n : Int}
    {hn : -0x8000000000000000 ≤ n ∧ n < 0x10000000000000000} {after : List UInt8} :
    wholeNumber negative significand rest = .ok (.int n hn, after) ↔
      after = rest ∧ (if negative then -(significand : Int) else significand) = n ∧
        ¬(negative = true ∧ n = 0) := by
  have hzero : significand = 0 ↔ (if negative then -(significand : Int) else significand) = 0 := by
    split <;> omega
  unfold wholeNumber
  dsimp only
  by_cases hrange :
      (-0x8000000000000000 ≤ (if negative then -(significand : Int) else significand) ∧
        (if negative then -(significand : Int) else significand) < 0x10000000000000000) ∧
      ¬(negative = true ∧ significand = 0)
  · rw [dif_pos hrange, Except.ok.injEq, Prod.mk.injEq, Number.int.injEq]
    constructor
    · rintro ⟨rfl, rfl⟩
      exact ⟨rfl, rfl, fun hneg => hrange.2 ⟨hneg.1, hzero.mpr hneg.2⟩⟩
    · rintro ⟨rfl, hvalue, -⟩
      exact ⟨hvalue, rfl⟩
  · rw [dif_neg hrange]
    constructor
    · exact fun hread => absurd hread (readsNoInt_floatOf n hn after)
    · rintro ⟨-, rfl, hneg⟩
      exact absurd ⟨hn, fun hboth => hneg ⟨hboth.1, hzero.mp hboth.2⟩⟩ hrange

end Floats

namespace Numeral

variable {numeral : Numeral} {rest after : List UInt8}

/-- The value of a whole numeral is that of its digits. -/
theorem value_of_isWhole (h : numeral.IsWhole) :
    numeral.value = ((if numeral.negative then -(Nat.ofDigitChars 10 numeral.whole 0 : Int)
      else Nat.ofDigitChars 10 numeral.whole 0 : Int) : ℚ) := by
  obtain ⟨hf, he⟩ := h
  have hdecimal : numeral.decimal = ⟨Nat.ofDigitChars 10 numeral.whole 0, 0⟩ := by
    rw [decimal, scale, he, hf, List.append_nil]
    rfl
  rw [value, hdecimal, Decimal.value, zpow_zero, mul_one]
  split
  · push_cast
    rfl
  · push_cast
    rfl

/-- A whole numeral has nothing behind its digits. -/
theorem tailChars_of_isWhole (h : numeral.IsWhole) :
    numeral.fractionChars ++ numeral.exponentChars = [] := by
  rw [fractionChars, if_pos h.1, exponentChars, h.2]
  rfl

/-- With a fraction or an exponent part no integer is read. -/
theorem readsNoInt_of_not_isWhole {negative : Bool} {significand dropped : Nat}
    (h : ¬numeral.IsWhole) :
    ReadsNoInt (readAfterWhole negative significand dropped
      (encode (numeral.fractionChars ++ numeral.exponentChars) ++ rest)) := by
  by_cases hf : numeral.fraction = []
  · rw [fractionChars, if_pos hf, List.nil_append, exponentChars]
    cases hexp : numeral.exponent with
    | none => exact absurd ⟨hf, hexp⟩ h
    | some part =>
      obtain ⟨capital, sign, digits, hdigits, hne⟩ := part
      cases capital <;> exact readsNoInt_readExponent
  · rw [fractionChars, if_neg hf]
    exact readsNoInt_readFraction

/-- A numeral that is read as an integer is a whole one, and the integer is its value. -/
theorem readNumber_eq_int_iff (hr : EndsNumber rest) {n : Int}
    {hn : -0x8000000000000000 ≤ n ∧ n < 0x10000000000000000} :
    readNumber (numeral.bytes ++ rest) = .ok (.int n hn, after) ↔
      after = rest ∧ numeral.IsWhole ∧ numeral.value = n ∧ ¬(numeral.negative = true ∧ n = 0) := by
  obtain ⟨front, back, hwhole, hcut, hread⟩ := numeral.readNumber_bytes hr
  rw [hread]
  by_cases hw : numeral.IsWhole
  · rw [tailChars_of_isWhole hw, encode_nil, List.nil_append, readAfterWhole_of_endsNumber hr,
      value_of_isWhole hw, Int.cast_inj, hwhole]
    constructor
    · intro h
      split at h
      · next hback =>
        obtain rfl := List.length_eq_zero_iff.mp hback
        obtain ⟨hafter, hvalue, hneg⟩ := wholeNumber_eq_int_iff.mp h
        rw [List.append_nil]
        exact ⟨hafter, hw, hvalue, hneg⟩
      · exact absurd h (readsNoInt_floatOf n hn after)
    · rintro ⟨rfl, -, hvalue, hneg⟩
      -- The digits make an integer of 64 bits, so that none of them is behind the cut.
      have hbound : Nat.ofDigitChars 10 (front ++ back) 0 ≤ maxSignificand := by
        rw [maxSignificand]
        split at hvalue <;> omega
      obtain rfl := hcut.back_eq_nil hbound
      rw [List.append_nil] at hvalue
      exact (if_pos rfl).trans (wholeNumber_eq_int_iff.mpr ⟨rfl, hvalue, hneg⟩)
  · constructor
    · intro h
      exact absurd h (readsNoInt_of_not_isWhole hw n hn after)
    · rintro ⟨-, hw', -⟩
      exact absurd hw' hw

end Numeral

end WireForm.Json
