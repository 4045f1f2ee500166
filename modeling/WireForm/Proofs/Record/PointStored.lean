import Mathlib.Logic.Function.Iterate
import WireForm.Proofs.Document.Load
import WireForm.Proofs.Json.NumberSize
import WireForm.Proofs.Json.Reread
import WireForm.Proofs.Record.Admitted
import WireForm.Proofs.Record.Chain
import WireForm.Proofs.Record.Faithful

/-!
# Canonical points that are stored

A canonical point that is stored as its compact text, loaded again and canonicalized is the point
of the reread numbers, any number of times over. Integers stay what they are, and so do floats
with a short text; any other float stays a float of its sign, but it can be another one, since
the reader rounds twice what the writer wrote for a reader that rounds once.
-/

namespace WireForm

open Json

/-! ## Numbers -/

namespace Binary64

/-- What the reader makes of the digits that a float is written with: they are converted to a
    float, which rounds once, and then scaled, which rounds again. -/
def rescaled? (x : Binary64) : Option Binary64 :=
  (ofNat? (written x.ordinal).significand).bind (·.scaleTen? (written x.ordinal).exponent)

/-- That a float has its own magnitude again after that. Zeros are not scaled. -/
def Regained (x : Binary64) : Prop :=
  0 < x.ordinal → x.rescaled?.map (·.ordinal) = some x.ordinal

/-- That a float is written as a decimal number of 53 bits at most with an exponent of 22 at most
    either way. -/
def Brief (x : Binary64) : Prop :=
  (written x.ordinal).significand ≤ 2 ^ 53 ∧
    -22 ≤ (written x.ordinal).exponent ∧ (written x.ordinal).exponent ≤ 22

/-- Such digits are converted as they are, so that only scaling them rounds. -/
theorem Brief.regained {x : Binary64} (h : x.Brief) : x.Regained := by
  intro hpos
  have hscaled := scaled_exact h.1 h.2.1 h.2.2
  rw [written_ordinal hpos, ofOrdinal?, dif_pos x.finite] at hscaled
  rw [rescaled?, hscaled]
  rfl

end Binary64

namespace Number

/-- That a number is an integer, or a float that is regained. -/
def Regained : Number → Prop
  | .int _ _ => True
  | .float x => x.Regained

theorem Regained.reread_eq {n : Number} (h : n.Regained) : n.reread = n := by
  cases n with
  | int value inRange => exact reread_int value inRange
  | float x =>
    obtain hzero | hpos := Nat.eq_zero_or_pos x.ordinal
    · exact (rereadAs_zero hzero).reread_eq
    · obtain ⟨y, hy, hread⟩ := exists_rereadAs_scaled hpos
      have hregained : x.rescaled?.map (·.ordinal) = some x.ordinal := h hpos
      rw [Binary64.rescaled?, hy] at hregained
      have hord : y.ordinal = x.ordinal := Option.some.inj hregained
      rw [hread.reread_eq]
      congr 1
      obtain ⟨negative, ordinal, finite⟩ := x
      obtain ⟨negative', ordinal', finite'⟩ := y
      obtain rfl : ordinal' = ordinal := hord
      rfl

/-- A number is regained just when it is reread as an equal one. -/
theorem regained_iff {n : Number} : n.Regained ↔ n.same n.reread = true := by
  constructor
  · intro h
    rw [h.reread_eq]
    exact n.same_refl
  · intro h
    cases n with
    | int value inRange => trivial
    | float x =>
      intro hpos
      obtain ⟨y, hy, hread⟩ := exists_rereadAs_scaled hpos
      rw [hread.reread_eq] at h
      have hord : x.ordinal = y.ordinal := beq_iff_eq.mp (Bool.and_eq_true_iff.mp h).1
      rw [Binary64.rescaled?, hy, hord]
      rfl

/-- What is kept of any number that is written and read: an integer as a whole, a float as a float
    of its sign. -/
inductive Kept : Number → Number → Prop where
  | int (value : Int) (inRange : -0x8000000000000000 ≤ value ∧ value < 0x10000000000000000) :
    Kept (.int value inRange) (.int value inRange)
  | float {x y : Binary64} (h : y.negative = x.negative) : Kept (.float x) (.float y)

theorem Kept.refl (n : Number) : Kept n n := by
  cases n with
  | int value inRange => exact .int value inRange
  | float x => exact .float rfl

theorem Kept.trans {l m n : Number} (h : Kept l m) (h' : Kept m n) : Kept l n := by
  cases h with
  | int => exact h'
  | float hxy =>
    cases h' with
    | float hyz => exact .float (hyz.trans hxy)

theorem kept_reread (n : Number) : Kept n n.reread := by
  cases n with
  | int value inRange =>
    rw [reread_int]
    exact .int value inRange
  | float x =>
    obtain ⟨y, hy, hneg⟩ := exists_reread_float x
    rw [hy]
    exact .float hneg

theorem kept_iterate_reread (times : Nat) (n : Number) : Kept n (reread^[times] n) := by
  induction times with
  | zero => exact .refl n
  | succ times ih =>
    rw [Function.iterate_succ_apply']
    exact ih.trans (kept_reread _)

end Number

/-! ## One round -/

/-- The text of a canonical point has 55 bytes at most. -/
theorem size_pointForm_le (timestamp value : Number) :
    (Text.Utf8.encodeText (Json.compact (pointForm timestamp value))).length ≤ 55 := by
  have hchars : Json.compactChars (pointForm timestamp value) =
      '[' :: (timestamp.text ++ ',' :: (value.text ++ [']'])) := rfl
  have htimestamp := length_text_le timestamp
  have hvalue := length_text_le value
  rw [← length_encode_numeric (numeric_text timestamp)] at htimestamp
  rw [← length_encode_numeric (numeric_text value)] at hvalue
  have hend : (Text.Utf8.encode [']']).length = 1 := rfl
  rw [Text.Utf8.encodeText, toList_compact, hchars, Text.Utf8.encode_cons_of_ascii (by decide),
    Text.Utf8.encode_append, Text.Utf8.encode_cons_of_ascii (by decide), Text.Utf8.encode_append]
  simp only [List.length_cons, List.length_append]
  omega

/-- Stores a value as its compact text, loads that and canonicalizes it as a point. -/
def reloadPoint (inflater : Inflater) (options : LoadOptions) (form : Value) :
    Except Error Value := do
  let document ← Document.loadWith inflater options (Text.Utf8.encodeText (Json.compact form))
  canonicalize .point document.root

variable {inflater : Inflater} {options : LoadOptions}

theorem reloadPoint_pointForm (hsize : 55 ≤ options.maxBytes) (timestamp value : Number) :
    reloadPoint inflater options (pointForm timestamp value) =
      .ok (pointForm timestamp.reread value.reread) := by
  have hread := read_compact_reread (admitted_pointForm 126 timestamp value)
  have hlen := Nat.le_trans (size_pointForm_le timestamp value) hsize
  have hcanonical : canonicalize .point (pointForm timestamp.reread value.reread) =
      .ok (pointForm timestamp.reread value.reread) :=
    canonicalize_pointForm_iff.mpr ⟨rfl, rfl⟩
  rw [reloadPoint, Document.loadWith_of_read hread hlen, ok_bind]
  exact hcanonical

/-! ## Any number of rounds -/

/-- Stores a value and loads it again so many times. -/
def reloadPointTimes (inflater : Inflater) (options : LoadOptions) :
    Nat → Value → Except Error Value
  | 0, form => .ok form
  | times + 1, form => do
    reloadPointTimes inflater options times (← reloadPoint inflater options form)

theorem reloadPointTimes_pointForm (hsize : 55 ≤ options.maxBytes) (times : Nat)
    (timestamp value : Number) :
    reloadPointTimes inflater options times (pointForm timestamp value) =
      .ok (pointForm (Number.reread^[times] timestamp) (Number.reread^[times] value)) := by
  induction times generalizing timestamp value with
  | zero => rfl
  | succ times ih =>
    rw [reloadPointTimes, reloadPoint_pointForm hsize, ok_bind, ih, Function.iterate_succ_apply,
      Function.iterate_succ_apply]

/-- A canonical point is always loaded again from its text, by everyone who accepts 55 bytes, and
    any number of times: integers are the same integers each time, and floats are floats of the
    same sign. It comes back equal the first time just when both of its numbers are regained, and
    then it never changes. -/
theorem canonical_point_reloads (hsize : 55 ≤ options.maxBytes) {wire form : Value}
    (hc : canonicalize .point wire = .ok form) :
    ∃ timestamp value, form = pointForm timestamp value ∧
      (∀ times, ∃ timestamp' value',
        reloadPointTimes inflater options times form = .ok (pointForm timestamp' value') ∧
          timestamp.Kept timestamp' ∧ value.Kept value') ∧
      (∃ again, reloadPoint inflater options form = .ok again ∧
        (form.same again = true ↔ timestamp.Regained ∧ value.Regained)) ∧
      (timestamp.Regained → value.Regained →
        ∀ times, reloadPointTimes inflater options times form = .ok form) := by
  obtain ⟨timestamp, value, -, rfl⟩ := canonicalize_point_iff.mp hc
  refine ⟨timestamp, value, rfl, fun times => ?_, ?_, fun ht hv times => ?_⟩
  · exact ⟨_, _, reloadPointTimes_pointForm hsize times timestamp value,
      Number.kept_iterate_reread times timestamp, Number.kept_iterate_reread times value⟩
  · refine ⟨_, reloadPoint_pointForm hsize timestamp value, ?_⟩
    rw [same_pointForm, Number.regained_iff, Number.regained_iff]
  · rw [reloadPointTimes_pointForm hsize, Function.iterate_fixed ht.reread_eq,
      Function.iterate_fixed hv.reread_eq]

/-- The point of 3 and 4.5, spelled as a mapping. -/
def spelledPoint : Value :=
  .mapping [("value", .number (.float ⟨false, 0x4012000000000000, by decide⟩)),
    ("timestamp", .number (.ofNat 3))]

/-- That point in its canonical form. -/
def steadyForm : Value :=
  pointForm (.ofNat 3) (.float ⟨false, 0x4012000000000000, by decide⟩)

theorem canonical_point_reloads_steady :
    55 ≤ ({} : LoadOptions).maxBytes ∧ canonicalize .point spelledPoint = .ok steadyForm ∧
      ∀ times, reloadPointTimes .zstd {} times steadyForm = .ok steadyForm := by
  have hsize : 55 ≤ ({} : LoadOptions).maxBytes := by decide
  have hc : canonicalize .point spelledPoint = .ok steadyForm := rfl
  refine ⟨hsize, hc, ?_⟩
  obtain ⟨timestamp, value, hform, -, -, hsteady⟩ := canonical_point_reloads hsize hc
  rw [steadyForm, pointForm, pointForm] at hform
  simp only [Value.sequence.injEq, List.cons.injEq, Value.number.injEq, and_true] at hform
  obtain ⟨rfl, rfl⟩ := hform
  have hbrief : Binary64.Brief ⟨false, 0x4012000000000000, by decide⟩ :=
    ⟨by decide +kernel, by decide +kernel, by decide +kernel⟩
  exact hsteady trivial hbrief.regained

/-- The point of 0 and the float 2^53 - 1. -/
def oddForm : Value := pointForm (.ofNat 0) (.float ⟨false, 0x433FFFFFFFFFFFFF, by decide⟩)

/-- That float is written as 9007199254740991.0, with one digit more than a float can hold, so the
    point is not loaded again as it was. -/
theorem reloaded_point_changes :
    (∃ document, Document.load {} (Text.Utf8.encodeText "[0,9007199254740991e0]") = .ok document ∧
      canonicalize .point document.root = .ok oddForm) ∧
    Json.compact oddForm = "[0,9007199254740991.0]" ∧
    ∃ again, reloadPoint .zstd {} oddForm = .ok again ∧ oddForm.same again = false := by
  have hload : Document.load {} (Text.Utf8.encodeText "[0,9007199254740991e0]") =
      .ok ⟨.none, 22, oddForm, by decide⟩ := by decide +kernel
  have hcompact : Json.compact oddForm = "[0,9007199254740991.0]" := by decide +kernel
  have hagain : reloadPoint .zstd {} oddForm =
      .ok (pointForm (.ofNat 0) (.float ⟨false, 0x433FFFFFFFFFFFFE, by decide⟩)) := by
    decide +kernel
  exact ⟨⟨_, hload, canonicalize_pointForm_iff.mpr ⟨rfl, rfl⟩⟩, hcompact, _, hagain, by decide⟩

end WireForm
