import WireForm.Text.Utf8

/-!
# UTF-8 read back

The bytes of a text are read back as the text, whatever follows them. Bytes of characters
beyond ASCII have their highest bit set, so a reader of ASCII syntax passes over them.
-/

namespace WireForm.Text.Utf8

/-! ## Bytes of characters -/

@[simp] theorem encode_nil : encode [] = [] := rfl

theorem encode_cons (c : Char) (chars : List Char) :
    encode (c :: chars) = String.utf8EncodeChar c ++ encode chars := rfl

@[simp] theorem encode_append (xs ys : List Char) : encode (xs ++ ys) = encode xs ++ encode ys :=
  List.flatMap_append

/-- The bytes of a character, from its number. -/
theorem utf8EncodeChar_eq (c : Char) :
    String.utf8EncodeChar c =
      if c.toNat ≤ 0x7F then [.ofNat c.toNat]
      else if c.toNat ≤ 0x7FF then
        [.ofNat (c.toNat / 64 % 32 + 0xC0), .ofNat (c.toNat % 64 + 0x80)]
      else if c.toNat ≤ 0xFFFF then
        [.ofNat (c.toNat / 4096 % 16 + 0xE0), .ofNat (c.toNat / 64 % 64 + 0x80),
          .ofNat (c.toNat % 64 + 0x80)]
      else
        [.ofNat (c.toNat / 262144 % 8 + 0xF0), .ofNat (c.toNat / 4096 % 64 + 0x80),
          .ofNat (c.toNat / 64 % 64 + 0x80), .ofNat (c.toNat % 64 + 0x80)] := rfl

theorem utf8EncodeChar_of_ascii {c : Char} (h : c.toNat < 0x80) :
    String.utf8EncodeChar c = [UInt8.ofNat c.toNat] := by
  rw [utf8EncodeChar_eq, if_pos (Nat.le_of_lt_succ h)]

theorem encode_cons_of_ascii {c : Char} (h : c.toNat < 0x80) (chars : List Char) :
    encode (c :: chars) = UInt8.ofNat c.toNat :: encode chars := by
  rw [encode_cons, utf8EncodeChar_of_ascii h, List.singleton_append]

/-- Every byte of a character beyond ASCII has its highest bit set. -/
theorem le_of_mem_utf8EncodeChar {c : Char} (h : 0x80 ≤ c.toNat) {b : UInt8}
    (hb : b ∈ String.utf8EncodeChar c) : 0x80 ≤ b.toNat := by
  rw [utf8EncodeChar_eq, if_neg (Nat.not_le_of_lt h)] at hb
  split at hb
  · simp only [List.mem_cons, List.not_mem_nil, or_false] at hb
    rcases hb with rfl | rfl <;> rw [UInt8.toNat_ofNat'] <;> omega
  · split at hb
    · simp only [List.mem_cons, List.not_mem_nil, or_false] at hb
      rcases hb with rfl | rfl | rfl <;> rw [UInt8.toNat_ofNat'] <;> omega
    · simp only [List.mem_cons, List.not_mem_nil, or_false] at hb
      rcases hb with rfl | rfl | rfl | rfl <;> rw [UInt8.toNat_ofNat'] <;> omega

/-- A character that is not a control character has no control character among its bytes. -/
theorem le_of_mem_encode {chars : List Char} (h : ∀ c ∈ chars, 0x20 ≤ c.toNat) {b : UInt8}
    (hb : b ∈ encode chars) : 0x20 ≤ b.toNat := by
  obtain ⟨c, hc, hb⟩ := List.mem_flatMap.mp hb
  -- An ASCII character is its only byte; the bytes of others are above all control characters.
  by_cases ha : c.toNat < 0x80
  · rw [utf8EncodeChar_of_ascii ha, List.mem_singleton] at hb
    have := h c hc
    rw [hb, UInt8.toNat_ofNat']
    omega
  · have := le_of_mem_utf8EncodeChar (Nat.le_of_not_lt ha) hb
    omega

/-! ## Reading one character -/

theorem scalar?_toNat {least : Nat} {c : Char} (h : least ≤ c.toNat) :
    scalar? least c.toNat = some c := by
  rw [scalar?, if_pos ⟨h, c.valid⟩, Char.ofNat_toNat]

theorem isTail_ofNat {n : Nat} : isTail (.ofNat (n % 64 + 0x80)) = true := by
  rw [isTail, UInt8.toNat_ofNat', beq_iff_eq]
  omega

theorem two?_bytes {c : Char} (h : 0x80 ≤ c.toNat) (hle : c.toNat ≤ 0x7FF) :
    two? (.ofNat (c.toNat / 64 % 32 + 0xC0)) (.ofNat (c.toNat % 64 + 0x80)) = some c := by
  have hlead : (UInt8.ofNat (c.toNat / 64 % 32 + 0xC0)).toNat = c.toNat / 64 + 0xC0 := by
    rw [UInt8.toNat_ofNat']; omega
  have hvalue : (c.toNat / 64 + 0xC0) % 32 * 64 + (c.toNat % 64 + 0x80) % 2 ^ 8 % 64 = c.toNat := by
    omega
  rw [two?, if_pos ⟨by rw [hlead]; omega, isTail_ofNat⟩, hlead, UInt8.toNat_ofNat', hvalue,
    scalar?_toNat h]

/-- A byte that begins three or four bytes does not begin two. -/
theorem two?_eq_none {a b : UInt8} (h : 0xE0 ≤ a.toNat) : two? a b = none := by
  rw [two?, if_neg]
  rintro ⟨ha, -⟩
  omega

theorem three?_bytes {c : Char} (h : 0x800 ≤ c.toNat) (hle : c.toNat ≤ 0xFFFF) :
    three? (.ofNat (c.toNat / 4096 % 16 + 0xE0)) (.ofNat (c.toNat / 64 % 64 + 0x80))
      (.ofNat (c.toNat % 64 + 0x80)) = some c := by
  have hlead : (UInt8.ofNat (c.toNat / 4096 % 16 + 0xE0)).toNat = c.toNat / 4096 + 0xE0 := by
    rw [UInt8.toNat_ofNat']; omega
  have hvalue : ((c.toNat / 4096 + 0xE0) % 16 * 64 + (c.toNat / 64 % 64 + 0x80) % 2 ^ 8 % 64) * 64 +
      (c.toNat % 64 + 0x80) % 2 ^ 8 % 64 = c.toNat := by
    omega
  rw [three?, if_pos ⟨by rw [hlead]; omega, isTail_ofNat, isTail_ofNat⟩, hlead,
    UInt8.toNat_ofNat', UInt8.toNat_ofNat', hvalue, scalar?_toNat h]

/-- A byte that begins four bytes does not begin three. -/
theorem three?_eq_none {a b c : UInt8} (h : 0xF0 ≤ a.toNat) : three? a b c = none := by
  rw [three?, if_neg]
  rintro ⟨ha, -⟩
  omega

theorem four?_bytes {c : Char} (h : 0x10000 ≤ c.toNat) :
    four? (.ofNat (c.toNat / 262144 % 8 + 0xF0)) (.ofNat (c.toNat / 4096 % 64 + 0x80))
      (.ofNat (c.toNat / 64 % 64 + 0x80)) (.ofNat (c.toNat % 64 + 0x80)) = some c := by
  -- Only here the upper end of the characters is needed, for the first byte to fit.
  have hmax : c.toNat < 0x110000 := by
    obtain hlow | ⟨-, hhigh⟩ : c.toNat < 0xD800 ∨ 0xDFFF < c.toNat ∧ c.toNat < 0x110000 := c.valid
    · omega
    · exact hhigh
  have hlead : (UInt8.ofNat (c.toNat / 262144 % 8 + 0xF0)).toNat = c.toNat / 262144 + 0xF0 := by
    rw [UInt8.toNat_ofNat']; omega
  have hvalue : (((c.toNat / 262144 + 0xF0) % 8 * 64 +
      (c.toNat / 4096 % 64 + 0x80) % 2 ^ 8 % 64) * 64 +
      (c.toNat / 64 % 64 + 0x80) % 2 ^ 8 % 64) * 64 +
      (c.toNat % 64 + 0x80) % 2 ^ 8 % 64 = c.toNat := by
    omega
  rw [four?, if_pos ⟨by rw [hlead]; omega, isTail_ofNat, isTail_ofNat, isTail_ofNat⟩, hlead,
    UInt8.toNat_ofNat', UInt8.toNat_ofNat', UInt8.toNat_ofNat', hvalue, scalar?_toNat h]

/-! ## Reading texts -/

/-- The bytes of a character are read as that character, whatever follows. -/
theorem decodeFrom_utf8EncodeChar (read : List Char) (c : Char) (rest : List UInt8) :
    decodeFrom read (String.utf8EncodeChar c ++ rest) = decodeFrom (c :: read) rest := by
  rw [utf8EncodeChar_eq]
  -- One case for each number of bytes; a longer one must first be seen not to be a shorter.
  split
  · next h =>
    have hb : (UInt8.ofNat c.toNat).toNat = c.toNat := by rw [UInt8.toNat_ofNat']; omega
    rw [List.singleton_append, decodeFrom.eq_def]
    dsimp only
    rw [if_pos (by omega), hb, Char.ofNat_toNat]
  · next h =>
    split
    · next h' =>
      rw [List.cons_append, List.singleton_append, decodeFrom.eq_def]
      dsimp only
      rw [if_neg (by rw [UInt8.toNat_ofNat']; omega)]
      simp only [two?_bytes (Nat.lt_of_not_le h) h']
    · next h' =>
      split
      · next h'' =>
        have hlead : 0xE0 ≤ (UInt8.ofNat (c.toNat / 4096 % 16 + 0xE0)).toNat := by
          rw [UInt8.toNat_ofNat']; omega
        rw [List.cons_append, List.cons_append, List.singleton_append, decodeFrom.eq_def]
        dsimp only
        rw [if_neg (by omega)]
        simp only [two?_eq_none hlead, three?_bytes (Nat.lt_of_not_le h') h'']
      · next h'' =>
        have hlead : 0xF0 ≤ (UInt8.ofNat (c.toNat / 262144 % 8 + 0xF0)).toNat := by
          rw [UInt8.toNat_ofNat']; omega
        have hlead' := Nat.le_trans (by decide : 0xE0 ≤ 0xF0) hlead
        rw [List.cons_append, List.cons_append, List.cons_append, List.singleton_append,
          decodeFrom.eq_def]
        dsimp only
        rw [if_neg (by omega)]
        simp only [two?_eq_none hlead', three?_eq_none hlead, four?_bytes (Nat.lt_of_not_le h'')]

theorem decodeFrom_encode (read chars : List Char) :
    decodeFrom read (encode chars) = (read.reverse ++ chars, []) := by
  induction chars generalizing read with
  | nil => simp [decodeFrom]
  | cons c chars ih => rw [encode_cons, decodeFrom_utf8EncodeChar, ih]; simp

/-- The bytes of a text are valid to their end and are read as that text. -/
theorem decode_encode_text (chars : List Char) : decode (encode chars) = (chars, []) :=
  decodeFrom_encode [] chars

end WireForm.Text.Utf8
