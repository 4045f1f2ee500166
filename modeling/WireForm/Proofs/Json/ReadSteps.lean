import WireForm.Json.Reader
import WireForm.Proofs.Json.NumberReadBack

/-!
# Steps of the reader

What the reader of values does with one byte or one part of a text: it skips the blanks of a
layout, tells scalars by their first byte, and goes on or ends at what stands after an item or
a member.
-/

namespace WireForm.Json

open Text.Utf8

/-! ## Blanks -/

/-- Blanks of a layout are skipped. -/
theorem skipBlanks_encode {blanks : List Char} (h : ∀ c ∈ blanks, c = ' ' ∨ c = '\n')
    (rest : List UInt8) : skipBlanks (encode blanks ++ rest) = skipBlanks rest := by
  induction blanks with
  | nil => rfl
  | cons c blanks ih =>
    have hrest := ih fun c' hc' => h c' (List.mem_cons_of_mem c hc')
    obtain rfl | rfl := h c List.mem_cons_self
    · rw [encode_cons_of_ascii (by decide), ← hrest]
      rfl
    · rw [encode_cons_of_ascii (by decide), ← hrest]
      rfl

/-- A blank of a layout ends a number. -/
theorem endsNumber_blanks {blanks : List Char} (h : ∀ c ∈ blanks, c = ' ' ∨ c = '\n')
    {rest : List UInt8} (hr : EndsNumber rest) : EndsNumber (encode blanks ++ rest) := by
  cases blanks with
  | nil => exact hr
  | cons c blanks =>
    obtain rfl | rfl := h c List.mem_cons_self
    · rw [encode_cons_of_ascii (by decide)]
      exact ⟨rfl, by decide, by decide, by decide⟩
    · rw [encode_cons_of_ascii (by decide)]
      exact ⟨rfl, by decide, by decide, by decide⟩

/-! ## Where a value begins -/

/-- That a text begins as a value does: with no blank and with no closing bracket. -/
def BeginsValue : List UInt8 → Prop
  | [] => False
  | b :: _ => isBlank b = false ∧ b ≠ 0x5D

theorem BeginsValue.append {text : List UInt8} (h : BeginsValue text) (rest : List UInt8) :
    BeginsValue (text ++ rest) := by
  cases text with
  | nil => exact h.elim
  | cons b tail => exact h

theorem skipBlanks_of_begins {text : List UInt8} (h : BeginsValue text) :
    skipBlanks text = text := by
  cases text with
  | nil => rfl
  | cons b tail => simp [skipBlanks, h.1]

/-! ## Scalars -/

section Scalars

variable {b : UInt8} {depth : Nat} {tail rest : List UInt8}

/-- What opens neither a list nor an object is read as a scalar. -/
theorem readValue_scalar (hs : skipBlanks (b :: tail) = b :: tail) (hl : b ≠ 0x5B) (ho : b ≠ 0x7B) :
    readValue depth (b :: tail) = readScalar (b :: tail) := by
  rw [readValue.eq_def]
  dsimp only
  rw [hs]
  split
  · next h => exact absurd (List.cons.inj h).1 hl
  · next h => exact absurd (List.cons.inj h).1 ho
  · rfl

theorem beginsValue_of_number (h : b = 0x2D ∨ (digit? b).isSome = true) :
    BeginsValue (b :: tail) := by
  refine ⟨Bool.eq_false_iff.mpr fun hb => ?_, ?_⟩
  · simp only [isBlank, Bool.or_eq_true, beq_iff_eq] at hb
    obtain ((rfl | rfl) | rfl) | rfl := hb <;> exact absurd h (by decide)
  · rintro rfl
    exact absurd h (by decide)

/-- What begins as a number does is read as a number or not at all. -/
theorem readScalar_of_head (hb : b = 0x2D ∨ (digit? b).isSome = true) :
    readScalar (b :: tail) =
      readNumber (b :: tail) >>= fun read => .ok (.number read.1, read.2) := by
  unfold readScalar
  -- No word and no string begins as a number does.
  split
  · next heq => exact nomatch heq
  · next heq => rw [(List.cons.inj heq).1] at hb; exact absurd hb (by decide)
  · next heq => rw [(List.cons.inj heq).1] at hb; exact absurd hb (by decide)
  · next heq => rw [(List.cons.inj heq).1] at hb; exact absurd hb (by decide)
  · next heq => rw [(List.cons.inj heq).1] at hb; exact absurd hb (by decide)
  · next heq =>
    obtain ⟨rfl, rfl⟩ := List.cons.inj heq
    exact if_pos hb

theorem readScalar_number {n : Number} (h : readNumber (b :: tail) = .ok (n, rest))
    (hb : b = 0x2D ∨ (digit? b).isSome = true) :
    readScalar (b :: tail) = .ok (.number n, rest) := by
  rw [readScalar_of_head hb, h]
  rfl

end Scalars

/-! ## Steps of the loops -/

section Steps

variable {item : List UInt8 → Except Stop (After Value)} {step : UInt8}
  {steps text more rest : List UInt8} {value : Value} {key : String}

theorem readItems_end {read : List Value} (hi : item text = .ok (value, more))
    (hm : skipBlanks more = 0x5D :: rest) :
    readItems item (step :: steps) read text = .ok ((value :: read).reverse, rest) := by
  simp only [readItems, hi, ok_bind, hm]

theorem readItems_next {read : List Value} (hi : item text = .ok (value, 0x2C :: more))
    (hm : skipBlanks more = rest) (hb : BeginsValue rest) :
    readItems item (step :: steps) read text = readItems item steps (value :: read) rest := by
  have hcomma : skipBlanks (0x2C :: more) = 0x2C :: more := rfl
  simp only [readItems, hi, ok_bind, hcomma, hm]
  split
  · exact hb.elim
  · exact absurd rfl hb.2
  · rfl

theorem readList_of_items {items : List Value} (hs : skipBlanks text = more)
    (hb : BeginsValue more) (hi : readItems item more [] more = .ok (items, rest)) :
    readList item text = .ok (.sequence items, rest) := by
  rw [readList, hs]
  split
  · exact hb.elim
  · exact absurd rfl hb.2
  · rw [hi]
    rfl

theorem readMembers_end {read : Members} {tail : List UInt8}
    (hk : readString text = .ok (key, tail))
    (hv : readMemberValue item tail = .ok (value, more)) (hm : skipBlanks more = 0x7D :: rest) :
    readMembers item (step :: steps) read (0x22 :: text) =
      .ok (putMember key value read, rest) := by
  simp only [readMembers, List.tail_cons, hk, hv, ok_bind, hm]

theorem readMembers_next {read : Members} {tail : List UInt8}
    (hk : readString text = .ok (key, tail))
    (hv : readMemberValue item tail = .ok (value, 0x2C :: more))
    (hm : skipBlanks more = 0x22 :: rest) :
    readMembers item (step :: steps) read (0x22 :: text) =
      readMembers item steps (putMember key value read) (0x22 :: rest) := by
  have hcomma : skipBlanks (0x2C :: more) = 0x2C :: more := rfl
  simp only [readMembers, List.tail_cons, hk, hv, ok_bind, hcomma, hm]

theorem readObject_of_members {members : Members} (hs : skipBlanks text = 0x22 :: more)
    (hm : readMembers item (0x22 :: more) [] (0x22 :: more) = .ok (members, rest)) :
    readObject item text = .ok (.mapping members, rest) := by
  simp only [readObject, hs, hm, ok_bind]

end Steps

end WireForm.Json
