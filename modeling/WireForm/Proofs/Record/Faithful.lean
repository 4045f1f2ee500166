import WireForm.Proofs.Record.Equality

/-!
# Canonical forms decide equality

Records of one kind are equal exactly when what they are written as is equal on the wire. On either
side names are compared as they are, numbers by their values and payloads as wire values, and the
stamp tells the variants of a union apart as the tag does. So no two records share a canonical form.
-/

namespace WireForm

open Value

/-! ## The written forms -/

theorem same_string {text other : String} :
    (Value.string text).same (.string other) = true ↔ text = other := by
  rw [same, beq_iff_eq]

theorem same_dataForm {name other : String} :
    (dataForm name).same (dataForm other) = true ↔ name = other := by
  simp [dataForm, same_mapping_iff, same_string]

theorem same_pointForm (timestamp value timestamp' value' : Number) :
    (pointForm timestamp value).same (pointForm timestamp' value') = true ↔
      timestamp.same timestamp' = true ∧ value.same value' = true := by
  simp [pointForm, Value.same, Value.sameItems]

theorem Tag.stamp_inj {tag other : Tag} : tag.stamp = other.stamp ↔ tag = other := by
  cases tag <;> cases other <;> decide

theorem same_variantForm {tag other : Tag} {name name' inner inner' : String} :
    (variantForm tag name inner).same (variantForm other name' inner') = true ↔
      tag = other ∧ name = name' ∧ inner = inner' := by
  simp [variantForm, same_mapping_iff, same_string, same_dataForm, Tag.stamp_inj,
    List.lookup_cons]

theorem same_wrapperForm {payload other : Value} :
    (wrapperForm payload).same (wrapperForm other) = true ↔ payload.same other = true := by
  simp [wrapperForm, same_mapping_iff]

/-! ## Records -/

section Records

variable {v w : Value}

theorem Data.eq_iff_same_encode {x y : Data} (hx : x.encode = .ok v) (hy : y.encode = .ok w) :
    x = y ↔ v.same w = true := by
  obtain ⟨name, rfl, rfl⟩ := encode_eq_ok_iff.mp hx
  obtain ⟨other, rfl, rfl⟩ := encode_eq_ok_iff.mp hy
  simp [same_dataForm]

theorem Point.same_iff_same_encode {x y : Point} (hx : x.encode = .ok v)
    (hy : y.encode = .ok w) : x.same y = true ↔ v.same w = true := by
  obtain ⟨m, n, rfl, rfl⟩ := encode_eq_ok_iff.mp hx
  obtain ⟨m', n', rfl, rfl⟩ := encode_eq_ok_iff.mp hy
  rw [same_pointForm, Point.same, Bool.and_eq_true]
  rfl

/-- The stamp tells the variants apart. -/
theorem Variant.eq_iff_same_encode {x y : Variant} (hx : x.encode = .ok v)
    (hy : y.encode = .ok w) : x = y ↔ v.same w = true := by
  obtain ⟨tag, _, _⟩ := x
  obtain ⟨other, _, _⟩ := y
  obtain ⟨name, inner, hxv, rfl⟩ := encode_eq_ok_iff.mp hx
  obtain ⟨name', inner', hyw, rfl⟩ := encode_eq_ok_iff.mp hy
  obtain ⟨-, rfl, rfl⟩ := Variant.mk.inj hxv
  obtain ⟨-, rfl, rfl⟩ := Variant.mk.inj hyw
  simp [same_variantForm]

theorem Wrapper.same_iff_same_encode {x y : Wrapper} (hx : x.encode = .ok v)
    (hy : y.encode = .ok w) : x.same y = true ↔ v.same w = true := by
  obtain ⟨payload, rfl, rfl⟩ := encode_eq_ok_iff.mp hx
  obtain ⟨payload', rfl, rfl⟩ := encode_eq_ok_iff.mp hy
  rw [same_wrapperForm]
  rfl

/-- Records of one kind are made by one constructor. -/
theorem Record.cases_of_kind_eq {x y : Record} (h : x.kind = y.kind) :
    (∃ a b, x = .data a ∧ y = .data b) ∨ (∃ a b, x = .point a ∧ y = .point b) ∨
    (∃ a b, x = .variant a ∧ y = .variant b) ∨ (∃ a b, x = .interface a ∧ y = .interface b) ∨
    ∃ a b, x = .wrapper a ∧ y = .wrapper b := by
  cases x <;> cases y <;> simp [kind] at h ⊢

/-- Records of one kind are equal exactly when their canonical forms are equal on the wire. -/
theorem Record.same_iff_same_encode {x y : Record} (hkind : x.kind = y.kind)
    (hx : x.encode = .ok v) (hy : y.encode = .ok w) : x.same y = true ↔ v.same w = true := by
  rcases cases_of_kind_eq hkind with
    ⟨a, b, rfl, rfl⟩ | ⟨a, b, rfl, rfl⟩ | ⟨a, b, rfl, rfl⟩ | ⟨a, b, rfl, rfl⟩ | ⟨a, b, rfl, rfl⟩
  · rw [← Data.eq_iff_same_encode hx hy, same, beq_iff_eq]
  · exact Point.same_iff_same_encode hx hy
  · rw [← Variant.eq_iff_same_encode hx hy, same, beq_iff_eq]
  · rw [← Variant.eq_iff_same_encode hx hy, same, beq_iff_eq]
  · exact Wrapper.same_iff_same_encode hx hy

/-! ### Identical forms -/

theorem Data.eq_of_encode {x y : Data} (hx : x.encode = .ok v) (hy : y.encode = .ok v) : x = y :=
  Except.ok.inj ((decode_encode hx).symm.trans (decode_encode hy))

theorem Point.eq_of_encode {x y : Point} (hx : x.encode = .ok v) (hy : y.encode = .ok v) : x = y :=
  Except.ok.inj ((decode_encode hx).symm.trans (decode_encode hy))

theorem Variant.eq_of_encode {x y : Variant} (hx : x.encode = .ok v) (hy : y.encode = .ok v) :
    x = y := by
  -- The stamp is what the union reports, so the tags are the same.
  have hstamp := (decodeUnion_encode hx).symm.trans (decodeUnion_encode hy)
  have htag : x.tag = y.tag := by simpa [Tag.stamp_inj] using hstamp
  have hdecode := decode_encode hy
  rw [← htag] at hdecode
  exact Except.ok.inj ((decode_encode hx).symm.trans hdecode)

theorem Wrapper.eq_of_encode {x y : Wrapper} (hx : x.encode = .ok v) (hy : y.encode = .ok v) :
    x = y := by
  obtain ⟨payload, rfl, rfl⟩ := encode_eq_ok_iff.mp hx
  obtain ⟨payload', rfl, hform⟩ := encode_eq_ok_iff.mp hy
  simpa [wrapperForm] using hform

/-- Records of one kind with an identical canonical form are identical. -/
theorem Record.eq_of_encode {x y : Record} (hkind : x.kind = y.kind) (hx : x.encode = .ok v)
    (hy : y.encode = .ok v) : x = y := by
  rcases cases_of_kind_eq hkind with
    ⟨a, b, rfl, rfl⟩ | ⟨a, b, rfl, rfl⟩ | ⟨a, b, rfl, rfl⟩ | ⟨a, b, rfl, rfl⟩ | ⟨a, b, rfl, rfl⟩
  · rw [Data.eq_of_encode hx hy]
  · rw [Point.eq_of_encode hx hy]
  · rw [Variant.eq_of_encode hx hy]
  · rw [Variant.eq_of_encode hx hy]
  · rw [Wrapper.eq_of_encode hx hy]

end Records

/-- Canonical forms are faithful: two records of one kind that are both written are equal exactly
    when what they are written as is equal on the wire, and identical when that is identical. -/
theorem Record.canonical_forms_faithful {x y : Record} {v w : Value} (hkind : x.kind = y.kind)
    (hx : x.encode = .ok v) (hy : y.encode = .ok w) :
    (x.same y = true ↔ v.same w = true) ∧ (v = w → x = y) := by
  refine ⟨same_iff_same_encode hkind hx hy, ?_⟩
  rintro rfl
  exact eq_of_encode hkind hx hy

/-- Equal wrappers, which differ in the signs of zeros and in the order of members. -/
theorem Record.canonical_forms_faithful_zeros :
    (wrapper ⟨some zeroFirst⟩).kind = (wrapper ⟨some zeroLast⟩).kind ∧
      (wrapper ⟨some zeroFirst⟩).encode = .ok (wrapperForm zeroFirst) ∧
      (wrapper ⟨some zeroLast⟩).encode = .ok (wrapperForm zeroLast) ∧
      (wrapper ⟨some zeroFirst⟩).same (wrapper ⟨some zeroLast⟩) = true ∧
      (wrapperForm zeroFirst).same (wrapperForm zeroLast) = true := by
  have hkind : (wrapper ⟨some zeroFirst⟩).kind = (wrapper ⟨some zeroLast⟩).kind := rfl
  have hsame : (wrapper ⟨some zeroFirst⟩).same (wrapper ⟨some zeroLast⟩) = true := by
    decide +kernel
  exact ⟨hkind, rfl, rfl, hsame, (canonical_forms_faithful hkind rfl rfl).1.mp hsame⟩

end WireForm
