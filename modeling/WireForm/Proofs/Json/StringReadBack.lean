import WireForm.Json.StringReader
import WireForm.Json.Writer
import WireForm.Proofs.Outcome
import WireForm.Proofs.Text.Utf8

/-!
# Written strings are read back

The reader of strings, put behind the opening quote of a written string, stops behind its own
closing quote with the text that was written, whatever comes after.
-/

namespace WireForm.Json

open Text.Utf8

/-! ## One step of the reader -/

section Steps

variable {step : UInt8} {steps read text bytes rest : List UInt8}

theorem readContent_quote :
    readContent (step :: steps) read (0x22 :: rest) = .ok (read.reverse, rest) :=
  rfl

/-- An escape is replaced by the bytes it stands for. -/
theorem readContent_escape (h : readEscape text = .ok (bytes, rest)) :
    readContent (step :: steps) read (0x5C :: text) =
      readContent steps (bytes.reverse ++ read) rest := by
  rw [readContent, if_neg (by decide), if_pos rfl, h]
  rfl

/-- Any byte that is neither quote nor backslash nor control character stands for itself. -/
theorem readContent_plain {b : UInt8} (hq : b.toNat ≠ 0x22) (he : b.toNat ≠ 0x5C)
    (hc : 0x20 ≤ b.toNat) :
    readContent (step :: steps) read (b :: rest) = readContent steps (b :: read) rest := by
  rw [readContent, if_neg (fun h => hq (congrArg UInt8.toNat h)),
    if_neg (fun h => he (congrArg UInt8.toNat h)),
    if_neg (fun h => Nat.not_lt.mpr hc (UInt8.lt_iff_toNat_lt.mp h))]

end Steps

/-! ## Characters -/

/-- That a reader with enough steps goes over `text` in front of any rest and has then read
    `bytes` more. The steps that are left are enough for the rest. -/
def PassesOver (text bytes : List UInt8) : Prop :=
  ∀ steps read rest : List UInt8, (text ++ rest).length ≤ steps.length →
    ∃ left : List UInt8, rest.length ≤ left.length ∧
      readContent steps read (text ++ rest) = readContent left (bytes.reverse ++ read) rest

theorem PassesOver.nil : PassesOver [] [] := fun steps _ _ h => ⟨steps, h, rfl⟩

theorem PassesOver.append {text text' bytes bytes' : List UInt8} (h : PassesOver text bytes)
    (h' : PassesOver text' bytes') : PassesOver (text ++ text') (bytes ++ bytes') := by
  intro steps read rest hlen
  rw [List.append_assoc] at hlen ⊢
  -- What the first part leaves of the steps is enough for the second.
  obtain ⟨left, hleft, heq⟩ := h steps read (text' ++ rest) hlen
  obtain ⟨left', hleft', heq'⟩ := h' left (bytes.reverse ++ read) rest hleft
  refine ⟨left', hleft', ?_⟩
  rw [heq, heq', List.reverse_append, List.append_assoc]

/-- A backslash and what follows it are passed over if they are an escape. -/
theorem PassesOver.escape {text bytes : List UInt8}
    (h : ∀ rest, readEscape (text ++ rest) = .ok (bytes, rest)) :
    PassesOver (0x5C :: text) bytes := by
  intro steps read rest hlen
  cases steps with
  | nil => simp at hlen
  | cons step steps =>
    refine ⟨steps, ?_, readContent_escape (h rest)⟩
    simp only [List.cons_append, List.length_cons, List.length_append] at hlen
    omega

theorem PassesOver.plain {b : UInt8} (hq : b.toNat ≠ 0x22) (he : b.toNat ≠ 0x5C)
    (hc : 0x20 ≤ b.toNat) : PassesOver [b] [b] := by
  intro steps read rest hlen
  cases steps with
  | nil => simp at hlen
  | cons step steps =>
    exact ⟨steps, by simpa using hlen, readContent_plain hq he hc⟩

theorem PassesOver.plains {bytes : List UInt8}
    (h : ∀ b ∈ bytes, b.toNat ≠ 0x22 ∧ b.toNat ≠ 0x5C ∧ 0x20 ≤ b.toNat) :
    PassesOver bytes bytes := by
  induction bytes with
  | nil => exact .nil
  | cons b bytes ih =>
    obtain ⟨hq, he, hc⟩ := h b List.mem_cons_self
    have hrest := ih fun b' hb' => h b' (List.mem_cons_of_mem b hb')
    exact (PassesOver.plain hq he hc).append hrest

/-! ### Numeric escapes -/

theorem hexDigit?_hexDigit : ∀ d < 16, hexDigit? (.ofNat (hexDigit d).toNat) = some d := by decide

theorem hexDigit_lt : ∀ d < 16, (hexDigit d).toNat < 0x80 := by decide

theorem readEscape_numeric {c : Char} {text rest : List UInt8}
    (h : readCodeUnits text = .ok (c, rest)) :
    readEscape (0x75 :: text) = .ok (String.utf8EncodeChar c, rest) := by
  have hs : simpleEscape? 0x75 = none := rfl
  simp only [readEscape, hs, h, ok_bind, if_true]

/-- The numeric escape of a control character stands for it. -/
theorem readEscape_control {c : Char} (h : c.toNat < 0x20) (rest : List UInt8) :
    readEscape (encode ['u', '0', '0', hexDigit (c.toNat / 16), hexDigit (c.toNat % 16)] ++ rest) =
      .ok (String.utf8EncodeChar c, rest) := by
  have hhigh := hexDigit?_hexDigit (c.toNat / 16) (by omega)
  have hlow := hexDigit?_hexDigit (c.toNat % 16) (by omega)
  have hbytes : encode ['u', '0', '0', hexDigit (c.toNat / 16), hexDigit (c.toNat % 16)] =
      [0x75, 0x30, 0x30, .ofNat (hexDigit (c.toNat / 16)).toNat,
        .ofNat (hexDigit (c.toNat % 16)).toNat] := by
    rw [encode_cons_of_ascii (by decide), encode_cons_of_ascii (by decide),
      encode_cons_of_ascii (by decide), encode_cons_of_ascii (hexDigit_lt _ (by omega)),
      encode_cons_of_ascii (hexDigit_lt _ (by omega))]
    rfl
  have hzero : hexDigit? 0x30 = some 0 := rfl
  -- Two digits are always zero: control characters are below 0x20.
  have hvalue : ((0 * 16 + 0) * 16 + c.toNat / 16) * 16 + c.toNat % 16 = c.toNat := by omega
  have hunit : readCodeUnits ([0x30, 0x30, .ofNat (hexDigit (c.toNat / 16)).toNat,
      .ofNat (hexDigit (c.toNat % 16)).toNat] ++ rest) = .ok (c, rest) := by
    simp only [readCodeUnits, readHex, List.cons_append, List.nil_append, hhigh, hlow, hzero,
      hvalue, ok_bind]
    rw [if_neg (by simp [isTrailing]; omega), if_neg (by simp [isLeading]; omega), Char.ofNat_toNat]
  rw [hbytes]
  exact readEscape_numeric hunit

/-! ## Texts -/

/-- A written character is passed over and its bytes are read. -/
theorem PassesOver.escapeChar (c : Char) :
    PassesOver (encode (escapeChar c)) (String.utf8EncodeChar c) := by
  unfold Json.escapeChar
  split
  · next h => subst h; exact .escape fun _ => rfl
  split
  · next h => subst h; exact .escape fun _ => rfl
  split
  · next h => subst h; exact .escape fun _ => rfl
  split
  · next h => subst h; exact .escape fun _ => rfl
  split
  · next h => subst h; exact .escape fun _ => rfl
  split
  · next h => subst h; exact .escape fun _ => rfl
  split
  · next h => subst h; exact .escape fun _ => rfl
  split
  · next h => exact .escape (readEscape_control h)
  · next hquote hback _ _ _ _ _ hc =>
    rw [encode_cons, encode_nil, List.append_nil]
    -- A character beyond ASCII has no byte in which the reader could see a quote or an escape.
    by_cases ha : c.toNat < 0x80
    · have hn : (UInt8.ofNat c.toNat).toNat = c.toNat := by rw [UInt8.toNat_ofNat']; omega
      rw [utf8EncodeChar_of_ascii ha]
      refine .plain ?_ ?_ ?_
      · rw [hn]; exact fun h => hquote (Char.toNat_inj.mp h)
      · rw [hn]; exact fun h => hback (Char.toNat_inj.mp h)
      · omega
    · refine .plains fun b hb => ?_
      have hle := le_of_mem_utf8EncodeChar (Nat.le_of_not_lt ha) hb
      omega

theorem PassesOver.escaped (chars : List Char) :
    PassesOver (encode (chars.flatMap Json.escapeChar)) (encode chars) := by
  induction chars with
  | nil => exact .nil
  | cons c chars ih =>
    rw [List.flatMap_cons, encode_append, encode_cons]
    exact (PassesOver.escapeChar c).append ih

theorem encode_quoted (text : String) :
    encode (quoted text) = 0x22 :: (encode (text.toList.flatMap Json.escapeChar) ++ [0x22]) := by
  rw [quoted, List.cons_append, encode_cons_of_ascii (by decide), encode_append]
  rfl

/-- What is written of a text is read as that text, up to its own closing quote. -/
theorem readString_quoted (text : String) (rest : List UInt8) :
    readString (encode (text.toList.flatMap Json.escapeChar) ++ 0x22 :: rest) =
      .ok (text, rest) := by
  -- The reader takes the text itself as its steps, and so has one left for the closing quote.
  obtain ⟨left, hleft, heq⟩ := PassesOver.escaped text.toList _ [] (0x22 :: rest) (Nat.le_refl _)
  cases left with
  | nil => simp at hleft
  | cons step left =>
    rw [readContent_quote, List.append_nil, List.reverse_reverse] at heq
    simp only [readString, heq, ok_bind, decode_encode_text, List.isEmpty_nil, if_true,
      String.ofList_toList]

end WireForm.Json
