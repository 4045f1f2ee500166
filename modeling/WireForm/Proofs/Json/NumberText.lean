import WireForm.Number

/-!
# What texts of numbers are made of

The text of any number, integer or float, is made of digits, signs, a point and an `e`. No other
character is needed for either notation, however the digits are chosen.
-/

namespace WireForm.Json

/-- Whether a character can stand in the text of a number. -/
def isNumeric (c : Char) : Bool := c.isDigit || c ∈ ['-', '+', '.', 'e']

/-- That a text is made of characters of numbers. -/
def Numeric (chars : List Char) : Prop := ∀ c ∈ chars, isNumeric c = true

@[simp] theorem numeric_cons {c : Char} {chars : List Char} :
    Numeric (c :: chars) ↔ isNumeric c = true ∧ Numeric chars :=
  List.forall_mem_cons

@[simp] theorem numeric_append {xs ys : List Char} :
    Numeric (xs ++ ys) ↔ Numeric xs ∧ Numeric ys :=
  List.forall_mem_append

theorem Numeric.subset {xs ys : List Char} (h : Numeric ys) (hs : xs ⊆ ys) : Numeric xs :=
  fun c hc => h c (hs hc)

/-! ## Digits -/

theorem numeric_toDigits (n : Nat) : Numeric (Nat.toDigits 10 n) := by
  intro c hc
  have hdigit : c.isDigit = true := Nat.isDigit_of_mem_toDigits (by decide) (by decide) hc
  simp [isNumeric, hdigit]

theorem numeric_zeros (n : Nat) : Numeric (List.replicate n '0') := by
  intro c hc
  rw [List.eq_of_mem_replicate hc]
  decide

theorem numeric_significantDigits (significand : Nat) :
    Numeric (Binary64.significantDigits significand) := by
  refine (numeric_toDigits significand).subset fun c hc => ?_
  have hdrop := List.mem_reverse.mp hc
  exact List.mem_reverse.mp ((List.dropWhile_suffix _).subset hdrop)

/-! ## Notations -/

theorem numeric_plainText {digits : List Char} (h : Numeric digits) (exponent : Int) :
    Numeric (Binary64.plainText digits exponent) := by
  cases exponent with
  | ofNat e =>
    have hwhole := h.subset (List.take_subset (e + 1) digits)
    have hfraction := h.subset (List.drop_subset (e + 1) digits)
    simp only [Binary64.plainText, numeric_append, numeric_cons]
    refine ⟨⟨hwhole, numeric_zeros _⟩, by decide, ?_⟩
    split
    · exact numeric_zeros 1
    · exact hfraction
  | negSucc k =>
    simp only [Binary64.plainText, List.cons_append, numeric_append, numeric_cons]
    exact ⟨by decide, by decide, numeric_zeros k, h⟩

theorem numeric_exponentText {digits : List Char} (h : Numeric digits) (exponent : Int) :
    Numeric (Binary64.exponentText digits exponent) := by
  simp only [Binary64.exponentText, numeric_append, numeric_cons]
  refine ⟨?_, by decide, ?_, numeric_toDigits _⟩
  · split
    · simp only [numeric_cons] at h ⊢
      exact ⟨h.1, by decide, h.2⟩
    · exact h
  · split
    · decide
    · decide

theorem numeric_magnitudeText (layout : Binary64.Layout) (ordinal : Nat) :
    Numeric (Binary64.magnitudeText layout ordinal) := by
  unfold Binary64.magnitudeText
  split
  · exact numeric_cons.mpr ⟨by decide, numeric_cons.mpr ⟨by decide, numeric_zeros 1⟩⟩
  · dsimp only
    split
    · exact numeric_plainText (numeric_significantDigits _) _
    · exact numeric_exponentText (numeric_significantDigits _) _

/-- The text of a number is made of characters of numbers. -/
theorem numeric_text (n : Number) : Numeric n.text := by
  cases n with
  | int value inRange =>
    simp only [Number.text, Number.intText]
    split
    · exact numeric_cons.mpr ⟨by decide, numeric_toDigits _⟩
    · exact numeric_toDigits _
  | float x =>
    simp only [Number.text, Binary64.text]
    split
    · exact numeric_cons.mpr ⟨by decide, numeric_magnitudeText _ _⟩
    · exact numeric_magnitudeText _ _

end WireForm.Json
