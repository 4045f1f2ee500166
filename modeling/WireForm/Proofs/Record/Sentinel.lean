import WireForm.Proofs.Document.Load
import WireForm.Proofs.Json.NumeralValues
import WireForm.Proofs.Record.Grammar

/-!
# The number that stands for a point

A bare 42 stands for one point, however it is spelled, and every other integer for a point of
its own. Spellings of 42 are read as the integer or as the float, which are the same to the
test; the test rounds integers to floats, and rounds none but 42 to 42.
-/

namespace WireForm

open Json

/-! ## Numbers that are 42 -/

namespace Binary64

/-- The ordinals of 42 and of the whole numbers around it. -/
theorem unitsOf_fortyTwo :
    unitsOf 0x4044800000000000 = 41 * oneUnits ∧ unitsOf 0x4045000000000000 = 42 * oneUnits ∧
      unitsOf 0x4045800000000000 = 43 * oneUnits := by
  decide +kernel

/-- No other natural number is rounded to 42. -/
theorem nearestOrdinal_eq_fortyTwo_iff {k : Nat} :
    nearestOrdinal (k <<< 1074) 1 = 0x4045000000000000 ↔ k = 42 := by
  obtain ⟨hbelow, hself, habove⟩ := unitsOf_fortyTwo
  rw [shiftLeft_1074]
  constructor
  · intro h
    obtain hlt | rfl | hgt := Nat.lt_trichotomy k 42
    · have hle : k * oneUnits ≤ unitsOf 0x4044800000000000 * 1 := by
        rw [hbelow, Nat.mul_one]
        exact Nat.mul_le_mul_right _ (Nat.le_of_lt_succ hlt)
      have := nearestOrdinal_le_of_le Nat.one_pos hle
      omega
    · rfl
    · have hle : unitsOf 0x4045800000000000 * 1 ≤ k * oneUnits := by
        rw [habove, Nat.mul_one]
        exact Nat.mul_le_mul_right _ hgt
      have := le_nearestOrdinal_of_le Nat.one_pos hle
      omega
  · rintro rfl
    exact nearestOrdinal_of_eq Nat.one_pos (by rw [hself, Nat.mul_one])

end Binary64

namespace Point

open Binary64

/-- A float that is equal to 42 is no other float. -/
theorem same_fortyTwo_iff {x : Binary64} : x.same fortyTwo = true ↔ x = fortyTwo := by
  constructor
  · intro h
    obtain ⟨negative, ordinal, finite⟩ := x
    obtain ⟨hordinal, hsign⟩ := Bool.and_eq_true_iff.mp h
    obtain rfl : ordinal = 0x4045000000000000 := beq_iff_eq.mp hordinal
    -- 42 is not zero, so that the sign counts.
    obtain hsign | hzero := Bool.or_eq_true_iff.mp hsign
    · obtain rfl : negative = false := beq_iff_eq.mp hsign
      rfl
    · simp at hzero
  · rintro rfl
    exact fortyTwo.same_refl

/-- The integer 42 is the only one that stands for the fixed point. -/
theorem isSentinel_int_iff {n : Int} {hn : -0x8000000000000000 ≤ n ∧ n < 0x10000000000000000} :
    isSentinel (.int n hn) = true ↔ n = 42 := by
  have hfloat : isSentinel (.int n hn) = true ↔ ofInt? n = some fortyTwo := by
    rw [isSentinel, Number.toBinary64?]
    cases ofInt? n with
    | none => simp
    | some x => rw [Option.map_some, Option.getD_some, same_fortyTwo_iff, Option.some.injEq]
  rw [hfloat, ofInt?, ofUnits?, ofOrdinal?]
  constructor
  · intro h
    split at h
    · obtain ⟨hsign, hordinal⟩ := Binary64.mk.inj (Option.some.inj h)
      have habs : n.natAbs = 42 := nearestOrdinal_eq_fortyTwo_iff.mp hordinal
      have hpos : ¬n < 0 := of_decide_eq_false hsign
      omega
    · cases h
  · rintro rfl
    decide +kernel

/-- 42 with zeros behind it and an exponent that takes them back is the float 42, for as many zeros
    as fit. -/
theorem scaled_fortyTwo {j : Nat} (h : 42 * 10 ^ j ≤ maxSignificand) :
    (ofNat? (42 * 10 ^ j)).bind (·.scaleTen? (-(j : Int))) = some fortyTwo := by
  have hall : ∀ k : Nat, k < 18 →
      (ofNat? (42 * 10 ^ k)).bind (·.scaleTen? (-(k : Int))) = some fortyTwo := by
    decide +kernel
  refine hall j (Nat.not_le.mp fun hle => ?_)
  have hpow : 10 ^ 18 ≤ 10 ^ j := Nat.pow_le_pow_right (by decide) hle
  rw [maxSignificand] at h
  omega

/-- However 42 is spelled, the number that is read stands for the fixed point. -/
theorem exists_readNumber_fortyTwo {numeral : Numeral} {rest : List UInt8}
    (h : numeral.value = 42) (hlen : numeral.bytes.length ≤ maxExponent) (hr : EndsNumber rest) :
    ∃ n, readNumber (numeral.bytes ++ rest) = .ok (n, rest) ∧ isSentinel n = true := by
  have hfar : 42 * 10 + 9 < maxSignificand := by decide
  obtain hread | ⟨j, hj, hread⟩ :=
    Numeral.readNumber_of_value (by decide) hfar h hlen hr
  · have hwhole : wholeNumber false 42 rest = .ok (.ofNat 42, rest) := rfl
    exact ⟨_, hread.trans hwhole, isSentinel_int_iff.mpr rfl⟩
  · exact ⟨_, hread.trans (floatOf_eq_ok (scaled_fortyTwo hj)), by decide⟩

end Point

/-! ## Documents that hold a number -/

theorem fortyTwo_lt : 42 < 0x10000000000000000 := by decide

/-- The canonical form of the point that 42 stands for. -/
def sentinelForm : Value := pointForm (.ofNat 42 fortyTwo_lt) (.float Point.fortyOnePointTwo)

theorem compact_sentinelForm : Json.compact sentinelForm = "[42,41.2]" := by decide +kernel

/-- Any number is a point. -/
theorem canonicalize_point_number (n : Number) :
    canonicalize .point (.number n) =
      .ok (if Point.isSentinel n then sentinelForm else pointForm n (.ofNat 42)) := by
  cases h : Point.isSentinel n <;> simp [canonicalize, Record.decode, Point.decode, h] <;> rfl

/-- How an integer with the value 42 behind it is written. -/
theorem compactChars_pointForm_int {n : Int}
    (hn : -0x8000000000000000 ≤ n ∧ n < 0x10000000000000000) :
    Json.compactChars (pointForm (.int n hn) (.ofNat 42)) =
      '[' :: (Number.intText n ++ [',', '4', '2', ']']) :=
  rfl

section Documents

variable {inflater : Inflater} {before after : List UInt8} {numeral : Numeral}

/-- A numeral among blanks does not look compressed. -/
theorem detect_numeral (hb : Blank before) :
    Compression.detect (before ++ numeral.bytes ++ after) = .none := by
  unfold Compression.detect
  split
  · next hmagic =>
    -- The first byte of the magic is no blank and begins no numeral.
    obtain ⟨rest, hrest⟩ := List.isPrefixOf_iff_prefix.mp hmagic
    cases before with
    | nil =>
      obtain ⟨b, tail, hbytes, hhead⟩ := numeral.exists_head
      rw [List.nil_append, hbytes] at hrest
      obtain rfl : 0x28 = b := (List.cons.inj hrest).1
      exact absurd hhead (by decide)
    | cons b before =>
      obtain rfl : 0x28 = b := (List.cons.inj hrest).1
      exact absurd (hb _ List.mem_cons_self) (by decide)
  · rfl

/-- A document with a numeral among blanks holds the number that the numeral is read as. -/
theorem loadWith_numeral_iff (hb : Blank before)
    (hlen : (before ++ numeral.bytes ++ after).length ≤ 67108864) {n : Number} :
    (∃ document, Document.loadWith inflater {} (before ++ numeral.bytes ++ after) = .ok document ∧
        document.root = .number n) ↔
      ∃ rest, readNumber (numeral.bytes ++ after) = .ok (n, rest) ∧ skipBlanks rest = [] := by
  rw [← read_numeral_iff hb]
  constructor
  · rintro ⟨document, hload, hroot⟩
    obtain ⟨text, hunpack, hread, -⟩ := Document.loadWith_eq_ok_iff_unpack.mp hload
    rw [unpack_of_detect_none (detect_numeral hb) hlen] at hunpack
    obtain ⟨-, rfl⟩ := Prod.mk.inj (Except.ok.inj hunpack)
    rw [hread, hroot]
  · intro hread
    exact ⟨_, Document.loadWith_of_read hread hlen, rfl⟩

/-- A document that holds a spelling of 42 is the fixed point, however 42 is spelled. It holds an
    integer just when its numeral is whole, has a value in the range and is no negative zero; and
    if that integer is not 42, it is the timestamp of its point. -/
theorem canonicalize_point_numeral (hb : Blank before) (ha : Blank after)
    (hlen : (before ++ numeral.bytes ++ after).length ≤ 67108864) :
    (numeral.value = 42 →
      ∃ document,
        Document.loadWith inflater {} (before ++ numeral.bytes ++ after) = .ok document ∧
        canonicalize .point document.root = .ok sentinelForm ∧
        Json.compact sentinelForm = "[42,41.2]") ∧
    ∀ (n : Int) (hn : -0x8000000000000000 ≤ n ∧ n < 0x10000000000000000),
      ((∃ document,
          Document.loadWith inflater {} (before ++ numeral.bytes ++ after) = .ok document ∧
          document.root = .number (.int n hn)) ↔
        numeral.IsWhole ∧ numeral.value = n ∧ ¬(numeral.negative = true ∧ n = 0)) ∧
      (n ≠ 42 → ∀ document,
        Document.loadWith inflater {} (before ++ numeral.bytes ++ after) = .ok document →
        document.root = .number (.int n hn) →
        canonicalize .point document.root = .ok (pointForm (.int n hn) (.ofNat 42)) ∧
        Json.compactChars (pointForm (.int n hn) (.ofNat 42)) =
          '[' :: (Number.intText n ++ [',', '4', '2', ']'])) := by
  have hnumeral : numeral.bytes.length ≤ maxExponent := by
    rw [List.length_append, List.length_append] at hlen
    unfold maxExponent
    omega
  refine ⟨fun hvalue => ?_, fun n hn => ⟨?_, fun hne document _ hroot => ?_⟩⟩
  · obtain ⟨n, hread, hsentinel⟩ :=
      Point.exists_readNumber_fortyTwo hvalue hnumeral ha.endsNumber
    obtain ⟨document, hload, hroot⟩ :=
      (loadWith_numeral_iff hb hlen).mpr ⟨after, hread, ha.skipBlanks_eq_nil⟩
    refine ⟨document, hload, ?_, compact_sentinelForm⟩
    rw [hroot, canonicalize_point_number, if_pos hsentinel]
  · rw [loadWith_numeral_iff hb hlen]
    constructor
    · rintro ⟨rest, hread, -⟩
      exact ((Numeral.readNumber_eq_int_iff ha.endsNumber).mp hread).2
    · intro hint
      exact ⟨after, (Numeral.readNumber_eq_int_iff ha.endsNumber).mpr ⟨rfl, hint⟩,
        ha.skipBlanks_eq_nil⟩
  · have hother : Point.isSentinel (.int n hn) = false :=
      Bool.eq_false_iff.mpr fun h => hne (Point.isSentinel_int_iff.mp h)
    refine ⟨?_, compactChars_pointForm_int hn⟩
    rw [hroot, canonicalize_point_number, hother, if_neg Bool.false_ne_true]

/-- The numeral 0.0042E+4. -/
def shiftedFortyTwo : Numeral where
  negative := false
  whole := ['0']
  fraction := ['0', '0', '4', '2']
  exponent := some ⟨true, .plus, ['4'], by simp [Digits], by decide⟩
  whole_digits := by simp [Digits]
  whole_lead := .inl rfl
  fraction_digits := by simp [Digits]

/-- The numeral -42. -/
def minusFortyTwo : Numeral where
  negative := true
  whole := ['4', '2']
  fraction := []
  exponent := none
  whole_digits := by simp [Digits]
  whole_lead := .inr ⟨'4', ['2'], rfl, by decide⟩
  fraction_digits := by simp [Digits]

theorem canonicalize_point_numeral_shifted :
    Blank [0x20, 0x09] ∧ Blank [0x0A] ∧
    [0x20, 0x09] ++ shiftedFortyTwo.bytes ++ [0x0A] = Text.Utf8.encodeText " \t0.0042E+4\n" ∧
    shiftedFortyTwo.value = 42 ∧
    (∃ document,
      Document.loadWith .zstd {} (Text.Utf8.encodeText " \t0.0042E+4\n") = .ok document ∧
      canonicalize .point document.root = .ok sentinelForm) ∧
    [0x20, 0x09] ++ minusFortyTwo.bytes ++ [0x0A] = Text.Utf8.encodeText " \t-42\n" ∧
    (∃ document,
      Document.loadWith .zstd {} (Text.Utf8.encodeText " \t-42\n") = .ok document ∧
      canonicalize .point document.root =
        .ok (pointForm (.int (-42) (by decide)) (.ofNat 42))) := by
  have hb : Blank [0x20, 0x09] := by simp [Blank, isBlank]
  have ha : Blank [0x0A] := by simp [Blank, isBlank]
  have hvalue : shiftedFortyTwo.value = 42 := by
    have hdecimal : shiftedFortyTwo.decimal = ⟨42, 0⟩ := by decide
    have hsign : shiftedFortyTwo.negative = false := rfl
    simp [Numeral.value, hdecimal, Binary64.Decimal.value, hsign]
  have hshifted : [0x20, 0x09] ++ shiftedFortyTwo.bytes ++ [0x0A] =
      Text.Utf8.encodeText " \t0.0042E+4\n" := by decide +kernel
  have hminus : [0x20, 0x09] ++ minusFortyTwo.bytes ++ [0x0A] =
      Text.Utf8.encodeText " \t-42\n" := by decide +kernel
  refine ⟨hb, ha, hshifted, hvalue, ?_, hminus, ?_⟩
  · obtain ⟨document, hload, hform, -⟩ :=
      (canonicalize_point_numeral hb ha (by rw [hshifted]; decide +kernel)).1 hvalue
    exact ⟨document, hshifted ▸ hload, hform⟩
  · have hvalue' : minusFortyTwo.value = (-42 : Int) :=
      (Numeral.value_of_isWhole ⟨rfl, rfl⟩).trans (congrArg _ (by decide))
    obtain ⟨hiff, hother⟩ := (@canonicalize_point_numeral _ _ _ minusFortyTwo hb ha
      (by rw [hminus]; decide +kernel)).2 (-42) (by decide)
    obtain ⟨document, hload, hroot⟩ := hiff.mpr ⟨⟨rfl, rfl⟩, hvalue', by decide⟩
    exact ⟨document, hminus ▸ hload, (hother (by decide) document hload hroot).1⟩

end Documents

end WireForm
