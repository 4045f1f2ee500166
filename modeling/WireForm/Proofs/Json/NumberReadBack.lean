import WireForm.Json.NumberReader
import WireForm.Proofs.Outcome
import WireForm.Proofs.Text.Utf8

/-!
# Written integers are read back

The decimal text of every integer of the wire is read as that integer, in front of anything
that does not go on with the number. The significand never grows past its bound on the way,
so no digit is dropped.
-/

namespace WireForm.Json

open Text.Utf8

/-! ## Where a number ends -/

/-- That a text does not go on with a number: it begins with no digit, point or exponent. -/
def EndsNumber : List UInt8 → Prop
  | [] => True
  | b :: _ => digit? b = none ∧ b ≠ 0x2E ∧ b ≠ 0x65 ∧ b ≠ 0x45

theorem EndsNumber.startsWithDigit {rest : List UInt8} (h : EndsNumber rest) :
    startsWithDigit rest = false := by
  cases rest with
  | nil => rfl
  | cons b rest => rw [Json.startsWithDigit, h.1]; rfl

/-! ## Digits -/

theorem toNat_of_isDigit {c : Char} (h : c.isDigit = true) : 0x30 ≤ c.toNat ∧ c.toNat ≤ 0x39 :=
  Char.isDigit_iff_toNat.mp h

theorem lt_of_isDigit {c : Char} (h : c.isDigit = true) : c.toNat < 0x80 := by
  have := toNat_of_isDigit h
  omega

theorem digit?_ofNat {c : Char} (h : c.isDigit = true) :
    digit? (.ofNat c.toNat) = some (c.toNat - '0'.toNat) := by
  have hn : (UInt8.ofNat c.toNat).toNat = c.toNat := by
    have := lt_of_isDigit h
    rw [UInt8.toNat_ofNat']
    omega
  obtain ⟨hlow, hhigh⟩ := toNat_of_isDigit h
  rw [digit?, if_pos, hn]
  · rfl
  · rw [UInt8.le_iff_toNat_le, UInt8.le_iff_toNat_le, hn]
    exact ⟨hlow, hhigh⟩

theorem gather_of_noDigit {rest : List UInt8} (h : startsWithDigit rest = false)
    (bound significand count : Nat) :
    gather bound significand count rest = (significand, count, rest) := by
  cases rest with
  | nil => rfl
  | cons b rest =>
    have hb : digit? b = none := by simpa [startsWithDigit] using h
    simp only [gather, hb]

theorem skipDigits_of_noDigit {rest : List UInt8} (h : startsWithDigit rest = false) :
    skipDigits 0 rest = (0, rest) := by
  cases rest with
  | nil => rfl
  | cons b rest =>
    have hb : (digit? b).isSome = false := h
    rw [skipDigits, hb]
    rfl

/-- Digits that make no more than the bound are all gathered. -/
theorem gather_digits (bound : Nat) {rest : List UInt8} (hr : startsWithDigit rest = false)
    (digits : List Char) (hd : ∀ c ∈ digits, c.isDigit = true) (significand count : Nat)
    (hb : Nat.ofDigitChars 10 digits significand ≤ bound) :
    gather bound significand count (encode digits ++ rest) =
      (Nat.ofDigitChars 10 digits significand, count + digits.length, rest) := by
  induction digits generalizing significand count with
  | nil => simpa using gather_of_noDigit hr bound significand count
  | cons c digits ih =>
    have hc := hd c List.mem_cons_self
    rw [Nat.ofDigitChars_cons, Nat.mul_comm] at hb ⊢
    -- Digits only make the significand larger, so it is within the bound already here.
    have hle : significand * 10 + (c.toNat - '0'.toNat) ≤ bound := by
      refine Nat.le_trans ?_ hb
      rw [Nat.ofDigitChars_eq_ofDigitChars_zero]
      have hpow : 0 < 10 ^ digits.length := Nat.pow_pos (by decide)
      exact Nat.le_trans (Nat.le_mul_of_pos_left _ hpow) (Nat.le_add_right _ _)
    rw [encode_cons_of_ascii (lt_of_isDigit hc), List.cons_append, gather, digit?_ofNat hc]
    dsimp only
    rw [if_pos hle, ih (fun c' hc' => hd c' (List.mem_cons_of_mem c hc')) _ _ hb,
      List.length_cons, Nat.add_right_comm, Nat.add_assoc]

/-- The text of a positive number does not begin with zero. -/
theorem head?_toDigits_ne {n : Nat} (h : 0 < n) : (Nat.toDigits 10 n).head? ≠ some '0' := by
  -- The digits of `n` begin with those of `n / 10`.
  induction n using Nat.strongRecOn with
  | ind n ih =>
    by_cases hlt : n < 10
    · have hdigit : ∀ d < 10, 0 < d → Nat.digitChar d ≠ '0' := by decide
      rw [Nat.toDigits_of_lt_base hlt, List.head?_cons]
      exact fun he => hdigit n hlt h (Option.some.inj he)
    · have hne : (Nat.toDigits 10 (n / 10)).head? ≠ none := by simp
      obtain ⟨c, hc⟩ := Option.ne_none_iff_exists'.mp hne
      rw [Nat.toDigits_of_base_le (by decide) (Nat.le_of_not_lt hlt), List.head?_append, hc,
        Option.some_or, ← hc]
      exact ih (n / 10) (by omega) (by omega)

/-! ## Integers -/

/-- A zero that nothing goes on with is the whole number. -/
theorem readUnsigned_zero (negative : Bool) {rest : List UInt8} (hr : EndsNumber rest) :
    readUnsigned negative (0x30 :: rest) = wholeNumber negative 0 rest := by
  have hzero : digit? 0x30 = some 0 := rfl
  simp only [readUnsigned, hzero]
  split
  · exact absurd rfl hr.2.1
  · exact absurd rfl hr.2.2.1
  · exact absurd rfl hr.2.2.2
  · rw [hr.startsWithDigit]
    rfl

/-- Digits that do not begin with a zero and are all gathered are the whole number. -/
theorem readUnsigned_of_gather (negative : Bool) {b : UInt8} {d significand count : Nat}
    {digits rest : List UInt8} (hd : digit? b = some d) (hne : d ≠ 0)
    (hg : gather maxSignificand d 1 digits = (significand, count, rest)) (hr : EndsNumber rest) :
    readUnsigned negative (b :: digits) = wholeNumber negative significand rest := by
  simp only [readUnsigned, hd, hg, skipDigits_of_noDigit hr.startsWithDigit]
  split
  · exact absurd rfl hr.2.1
  · exact absurd rfl hr.2.2.1
  · exact absurd rfl hr.2.2.2
  · rfl

/-- The digits of a number within the bound are read as that number. -/
theorem readUnsigned_toDigits (negative : Bool) {n : Nat} (hn : n ≤ maxSignificand)
    {rest : List UInt8} (hr : EndsNumber rest) :
    readUnsigned negative (encode (Nat.toDigits 10 n) ++ rest) = wholeNumber negative n rest := by
  by_cases hzero : n = 0
  · subst hzero
    exact readUnsigned_zero negative hr
  · have hhead := head?_toDigits_ne (Nat.pos_of_ne_zero hzero)
    have hvalue : Nat.ofDigitChars 10 (Nat.toDigits 10 n) 0 = n := Nat.ofDigitChars_ten_toDigits
    have hdigit : ∀ c ∈ Nat.toDigits 10 n, c.isDigit = true := fun c hc =>
      Nat.isDigit_of_mem_toDigits (by decide) (by decide) hc
    cases hds : Nat.toDigits 10 n with
    | nil => exact absurd hds Nat.toDigits_ne_nil
    | cons c digits =>
      rw [hds] at hhead hvalue hdigit
      have hc := hdigit c List.mem_cons_self
      -- A leading zero would end the number after it.
      have hne : c.toNat - '0'.toNat ≠ 0 := by
        intro h
        obtain ⟨hlow, -⟩ := toNat_of_isDigit hc
        have hcz : c = '0' := Char.toNat_inj.mp (by simp at h ⊢; omega)
        exact hhead (by rw [hcz]; rfl)
      rw [Nat.ofDigitChars_cons, Nat.mul_zero, Nat.zero_add] at hvalue
      have hg := gather_digits maxSignificand hr.startsWithDigit digits
        (fun c' hc' => hdigit c' (List.mem_cons_of_mem c hc')) (c.toNat - '0'.toNat) 1
        (by rw [hvalue]; exact hn)
      rw [hvalue] at hg
      rw [encode_cons_of_ascii (lt_of_isDigit hc), List.cons_append]
      exact readUnsigned_of_gather negative (digit?_ofNat hc) hne hg hr

/-- A number without a minus sign. -/
theorem readNumber_of_ne_minus {b : UInt8} {rest : List UInt8} (h : b ≠ 0x2D) :
    readNumber (b :: rest) = readUnsigned false (b :: rest) := by
  unfold readNumber
  split
  · next heq => exact absurd (List.cons.inj heq).1 h
  · rfl

theorem readNumber_toDigits {n : Nat} (hn : n ≤ maxSignificand) {rest : List UInt8}
    (hr : EndsNumber rest) :
    readNumber (encode (Nat.toDigits 10 n) ++ rest) = wholeNumber false n rest := by
  rw [← readUnsigned_toDigits false hn hr]
  have hdigit : ∀ c ∈ Nat.toDigits 10 n, c.isDigit = true := fun c hc =>
    Nat.isDigit_of_mem_toDigits (by decide) (by decide) hc
  cases hds : Nat.toDigits 10 n with
  | nil => exact absurd hds Nat.toDigits_ne_nil
  | cons c digits =>
    rw [hds] at hdigit
    have hc := hdigit c List.mem_cons_self
    rw [encode_cons_of_ascii (lt_of_isDigit hc), List.cons_append]
    -- No digit is a minus sign.
    refine readNumber_of_ne_minus fun h => ?_
    have hminus : digit? 0x2D = none := rfl
    rw [← h, digit?_ofNat hc] at hminus
    exact nomatch hminus

/-- That the text of a number is read as another number, or as the same. -/
def RereadAs (n m : Number) : Prop :=
  ∀ rest, EndsNumber rest → readNumber (encode n.text ++ rest) = .ok (m, rest)

/-- The text of an integer is read as that integer. -/
theorem RereadAs.int (value : Int)
    (inRange : -0x8000000000000000 ≤ value ∧ value < 0x10000000000000000) :
    RereadAs (.int value inRange) (.int value inRange) := by
  intro rest hr
  have hn : value.natAbs ≤ maxSignificand := by
    unfold maxSignificand
    omega
  simp only [Number.text, Number.intText]
  -- The sign is written apart, and a zero never has one.
  by_cases hneg : value < 0
  · have hvalue : -(value.natAbs : Int) = value := by omega
    have hne : ¬(True ∧ value.natAbs = 0) := by omega
    rw [if_pos hneg, encode_cons_of_ascii (by decide), List.cons_append]
    show readUnsigned true (encode (Nat.toDigits 10 value.natAbs) ++ rest) = _
    rw [readUnsigned_toDigits true hn hr]
    simp only [wholeNumber, if_true, hvalue]
    rw [dif_pos ⟨inRange, hne⟩]
  · have hvalue : (value.natAbs : Int) = value := by omega
    rw [if_neg hneg, readNumber_toDigits hn hr]
    simp only [wholeNumber, Bool.false_eq_true, if_false, hvalue, false_and, not_false_eq_true,
      and_true]
    rw [dif_pos inRange]

/-- What is read as a number begins with a minus sign or a digit. -/
theorem head_of_readNumber {text : List UInt8} {n : Number} {rest : List UInt8}
    (h : readNumber text = .ok (n, rest)) :
    ∃ b tail, text = b :: tail ∧ (b = 0x2D ∨ (digit? b).isSome = true) := by
  cases text with
  | nil => exact nomatch h
  | cons b tail =>
    refine ⟨b, tail, rfl, ?_⟩
    by_cases hb : b = 0x2D
    · exact .inl hb
    · rw [readNumber_of_ne_minus hb] at h
      cases hd : digit? b with
      | none =>
        simp only [readUnsigned, hd] at h
        exact nomatch h
      | some d => exact .inr rfl

end WireForm.Json
