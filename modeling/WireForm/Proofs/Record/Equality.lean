import WireForm.Proofs.Record.Admitted
import WireForm.Proofs.Record.Dispatch
import WireForm.Proofs.Record.RoundTrip
import WireForm.Proofs.Value.Equality

/-!
# Decoding respects equality on the wire

Values that are equal on the wire are read as equal records, or fail alike, and equal records are
written as equal values, or fail alike. The order of members, the sign of a zero and whatever a
wrapper holds make no difference. The one thing that shows is a discriminator that is no string:
the error reports its text, and equal values may have different texts.
-/

namespace WireForm

open Value

/-! ## Slots -/

section Slots

variable {type : TypeName} {field : Field} {s t : Option Value}

theorem stringSlot_congr (h : SameSlot s t) : stringSlot type field s = stringSlot type field t := by
  cases h with
  | none => rfl
  | @some a b hab =>
    have hshape := shape_eq_of_same hab
    cases a <;> cases b <;> simp_all [stringSlot, same, shape]

theorem numberSlot_agree (h : SameSlot s t) :
    Agree (Option.Rel fun m n => m.same n = true) (numberSlot type field s)
      (numberSlot type field t) := by
  cases h with
  | none => exact .ok .none
  | @some a b hab =>
    have hshape := shape_eq_of_same hab
    cases a with
    | number m =>
      cases b with
      | number n => exact .ok (.some (by simpa only [same] using hab))
      | _ => cases hshape
    | _ =>
      cases b with
      | number n => cases hshape
      | _ =>
        simp only [numberSlot, hshape]
        exact .error _

/-- What fills a slot of a value with distinct keys has distinct keys. -/
theorem Value.DistinctKeys.of_slot {members : Members} {key : String} {value : Value}
    (hk : (mapping members).DistinctKeys) (h : slot members key = some value) :
    value.DistinctKeys :=
  hk.inside value (List.mem_map_of_mem (mem_of_slot h))

/-- Of two values that are equal on the wire both are mappings or neither is. -/
theorem Value.same_cases {a b : Value} (h : a.same b = true) :
    (∃ as bs, a = mapping as ∧ b = mapping bs) ∨
      ∀ type, expectMapping type a = .error (.unexpectedShape type .mapping a.shape) ∧
        expectMapping type b = .error (.unexpectedShape type .mapping a.shape) := by
  have hshape := shape_eq_of_same h
  cases a with
  | mapping as =>
    cases b with
    | mapping bs => exact .inl ⟨as, bs, rfl, rfl⟩
    | _ => cases hshape
  | _ =>
    cases b with
    | mapping bs => cases hshape
    | _ => exact .inr fun type => ⟨rfl, by rw [hshape]; rfl⟩

end Slots

/-! ## Decoders -/

section Decoders

variable {a b : Value} {as bs : Members}

/-- A data record holds a string, so equal values are read as the identical record. -/
theorem Data.decode_congr (hk : a.DistinctKeys) (h : a.same b = true) :
    Data.decode a = Data.decode b := by
  obtain ⟨as, bs, rfl, rfl⟩ | hshape := same_cases h
  · simp only [Data.decode, expectMapping, ok_bind, stringSlot_congr (SameSlot.slot hk h "name")]
  · simp only [Data.decode, hshape, error_bind]

theorem Variant.dataSlot_congr {s t : Option Value} (hk : ∀ value, s = some value → value.DistinctKeys)
    (h : SameSlot s t) : dataSlot s = dataSlot t := by
  cases h with
  | none => rfl
  | some hab => simp only [dataSlot, Data.decode_congr (hk _ rfl) hab]

/-- A variant holds strings, so equal values are read as the identical variant. -/
theorem Variant.decode_congr (tag : Tag) (hk : a.DistinctKeys) (h : a.same b = true) :
    decode tag a = decode tag b := by
  obtain ⟨as, bs, rfl, rfl⟩ | hshape := same_cases h
  · have hname : stringSlot (.variant tag) .name _ = stringSlot (.variant tag) .name _ :=
      stringSlot_congr (SameSlot.slot hk h "name")
    have hdata := dataSlot_congr (fun _ => hk.of_slot) (SameSlot.slot hk h "data")
    simp only [decode, expectMapping, ok_bind, hname, hdata]
  · simp only [decode, hshape, error_bind]

/-- The alternative that equal discriminators select is the same, unless they are no strings; then
    they select none. -/
theorem selectTag_cases {s t : Option Value} (h : SameSlot s t) :
    selectTag s = selectTag t ∨
      ∃ v w, s = some v ∧ t = some w ∧ v.same w = true ∧ (∀ text, v ≠ .string text) ∧
        (∀ text, w ≠ .string text) := by
  cases h with
  | none => exact .inl rfl
  | @some v w hvw =>
    have hshape := shape_eq_of_same hvw
    cases v with
    | string text =>
      cases w with
      | string other =>
        obtain rfl : text = other := by simpa [same] using hvw
        exact .inl rfl
      | _ => cases hshape
    | _ =>
      refine .inr ⟨_, w, rfl, rfl, hvw, ?_, ?_⟩
      · rintro text ⟨⟩
      · rintro text rfl
        cases hshape

/-- The union is read alike from equal values, but for the text of a discriminator that is no
    string. -/
theorem Variant.decodeUnion_cases (hk : a.DistinctKeys) (h : a.same b = true) :
    decodeUnion a = decodeUnion b ∨
      ∃ v w, a.discriminator? = some v ∧ b.discriminator? = some w ∧ v.same w = true ∧
        (∀ text, v ≠ .string text) ∧ (∀ text, w ≠ .string text) ∧
        decodeUnion a = .error (.unknownTag (some (discriminatorText v))) ∧
        decodeUnion b = .error (.unknownTag (some (discriminatorText w))) := by
  obtain ⟨as, bs, rfl, rfl⟩ | hshape := same_cases h
  · obtain htag | ⟨v, w, hv, hw, hvw, hvs, hws⟩ := selectTag_cases (SameSlot.slot hk h tagKey)
    · refine .inl ?_
      simp only [decodeUnion, expectMapping, ok_bind, htag, Variant.decode_congr _ hk h]
    · -- A value that is no string is no text of a tag, so the union is not read.
      refine .inr ⟨v, w, hv, hw, hvw, hvs, hws, ?_, ?_⟩
      · rw [decodeUnion_of_ne fun tag ht => hvs _ (Option.some.inj (hv.symm.trans ht)), hv]
        rfl
      · rw [decodeUnion_of_ne fun tag ht => hws _ (Option.some.inj (hw.symm.trans ht)), hw]
        rfl
  · exact .inl (by simp only [decodeUnion, hshape, error_bind])

/-! ### Points -/

theorem Point.isSentinel_congr {m n : Number} (h : m.same n = true) :
    isSentinel m = isSentinel n := by
  cases m with
  | int i hi =>
    cases n with
    | int j hj =>
      obtain rfl : i = j := by simpa [Number.same] using h
      rfl
    | float y => cases h
  | float x =>
    cases n with
    | int j hj => cases h
    | float y =>
      -- Numbers of different signs that are equal are zeros, and 42 is none.
      simp only [Number.same, Binary64.same, Bool.and_eq_true, Bool.or_eq_true, beq_iff_eq] at h
      obtain ⟨ho, hs | hz⟩ := h
      · simp [isSentinel, Number.toBinary64?, Binary64.same, ho, hs]
      · have hz' : y.ordinal = 0 := ho ▸ hz
        simp [isSentinel, Number.toBinary64?, Binary64.same, fortyTwo, hz, hz']

theorem Point.same_self (point : Point) : point.same point = true := by
  obtain ⟨timestamp, value⟩ := point
  cases timestamp <;> cases value <;> simp [same, sameSlot, Number.same_refl]

theorem Point.ofSlots_agree {expected : Expected} {s s' t t' : Option Value}
    (hshape : a.shape = b.shape) (hs : SameSlot s s') (ht : SameSlot t t') :
    Agree (fun p q => p.same q = true) (ofSlots a expected s t) (ofSlots b expected s' t') := by
  refine (numberSlot_agree hs).bind fun m m' hm => ?_
  refine (numberSlot_agree ht).bind fun n n' hn => ?_
  cases hm with
  | none =>
    rw [hshape]
    exact .error _
  | some hm =>
    cases hn with
    | none =>
      rw [hshape]
      exact .error _
    | some hn => exact .ok (by simp [same, sameSlot, hm, hn])

theorem Point.decode_agree (hk : a.DistinctKeys) (h : a.same b = true) :
    Agree (fun p q => p.same q = true) (decode a) (decode b) := by
  have hshape := shape_eq_of_same h
  cases a with
  | number m =>
    cases b with
    | number n =>
      have hmn : m.same n = true := by simpa only [Value.same] using h
      refine .ok ?_
      rw [isSentinel_congr hmn]
      split
      · exact Point.same_self _
      · simp [same, sameSlot, ofBare, hmn, Number.same_refl]
    | _ => cases hshape
  | mapping as =>
    cases b with
    | mapping bs => exact ofSlots_agree rfl (SameSlot.slot hk h _) (SameSlot.slot hk h _)
    | _ => cases hshape
  | sequence as =>
    cases b with
    | sequence bs => exact ofSlots_agree rfl (SameSlot.slotAt h 0) (SameSlot.slotAt h 1)
    | _ => cases hshape
  | _ =>
    cases b with
    | number _ => cases hshape
    | mapping _ => cases hshape
    | sequence _ => cases hshape
    | _ =>
      simp only [decode, hshape]
      exact .error _

/-! ### Wrappers -/

theorem Wrapper.same_iff {v w : Wrapper} : v.same w = true ↔ SameSlot v.data w.data := by
  obtain ⟨v⟩ := v
  obtain ⟨w⟩ := w
  cases v <;> cases w <;> simp [same]

theorem Wrapper.decode_agree (hk : a.DistinctKeys) (h : a.same b = true) :
    Agree (fun v w => v.same w = true) (decode a) (decode b) := by
  have hshape := shape_eq_of_same h
  cases a with
  | string text =>
    cases b with
    | string other => exact .ok (Wrapper.same_iff.mpr (.some h))
    | _ => cases hshape
  | mapping as =>
    cases b with
    | mapping bs => exact .ok (Wrapper.same_iff.mpr (SameSlot.slot hk h "data"))
    | _ => cases hshape
  | _ =>
    cases b with
    | string _ => cases hshape
    | mapping _ => cases hshape
    | _ =>
      simp only [decode, hshape]
      exact .error _

end Decoders

/-! ## Encoders -/

theorem Record.encode_eq_missingField {record : Record} {error : Error}
    (h : record.encode = .error error) : ∃ type field, error = .missingField type field := by
  obtain ⟨need, -, rfl⟩ := Record.encode_eq_error_iff.mp h
  exact ⟨need.type, need.field, rfl⟩

theorem Data.encode_agree_self (record : Data) :
    Agree (fun v w : Value => v.same w = true) record.encode record.encode := by
  refine .self fun wire h => ?_
  obtain ⟨name, -, rfl⟩ := Data.encode_eq_ok_iff.mp h
  exact Value.same_self (admitted_dataForm 0 name).2

theorem Variant.encode_agree_self (variant : Variant) :
    Agree (fun v w : Value => v.same w = true) variant.encode variant.encode := by
  refine .self fun wire h => ?_
  obtain ⟨name, inner, -, rfl⟩ := Variant.encode_eq_ok_iff.mp h
  exact Value.same_self (admitted_variantForm 0 variant.tag name inner).2

theorem Point.encode_agree {p q : Point} (h : p.same q = true) :
    Agree (fun v w : Value => v.same w = true) p.encode q.encode := by
  obtain ⟨m, n⟩ := p
  obtain ⟨m', n'⟩ := q
  simp only [Point.same, Bool.and_eq_true] at h
  -- A field is missing from both points or from neither.
  cases m with
  | none =>
    cases m' with
    | none => exact .error _
    | some m' => exact nomatch h.1
  | some m =>
    cases m' with
    | none => exact nomatch h.1
    | some m' =>
      cases n with
      | none =>
        cases n' with
        | none => exact .error _
        | some n' => exact nomatch h.2
      | some n =>
        cases n' with
        | none => exact nomatch h.2
        | some n' =>
          have hm : m.same m' = true := h.1
          have hn : n.same n' = true := h.2
          exact .ok (by simp [Value.same, sameItems, hm, hn])

theorem Wrapper.encode_agree {v w : Wrapper} (h : v.same w = true) :
    Agree (fun v w : Value => v.same w = true) v.encode w.encode := by
  obtain ⟨v⟩ := v
  obtain ⟨w⟩ := w
  cases Wrapper.same_iff.mp h with
  | none => exact .error _
  | some hvw => exact .ok (Value.same_mapping_iff.mpr ⟨rfl, by simp [hvw]⟩)

/-- Equal records are written as equal values, or lack the same field. -/
theorem Record.encode_agree {r s : Record} (h : r.same s = true) :
    Agree (fun v w : Value => v.same w = true) r.encode s.encode := by
  cases r with
  | data record =>
    cases s with
    | data other =>
      obtain rfl : record = other := by simpa [same] using h
      exact Data.encode_agree_self record
    | _ => exact nomatch h
  | point record =>
    cases s with
    | point other => exact Point.encode_agree h
    | _ => exact nomatch h
  | variant record =>
    cases s with
    | variant other =>
      obtain rfl : record = other := by simpa [same] using h
      exact Variant.encode_agree_self record
    | _ => exact nomatch h
  | interface held =>
    cases s with
    | interface other =>
      obtain rfl : held = other := by simpa [same] using h
      exact Variant.encode_agree_self held
    | _ => exact nomatch h
  | wrapper record =>
    cases s with
    | wrapper other => exact Wrapper.encode_agree h
    | _ => exact nomatch h

/-! ## Records -/

section Records

variable {a b : Value}

/-- Under every kind but the union equal values are read as equal records, or fail alike. -/
theorem Record.decode_agree {kind : Kind} (hkind : kind ≠ .interface) (hk : a.DistinctKeys)
    (h : a.same b = true) :
    Agree (fun r s => r.same s = true) (decode kind a) (decode kind b) := by
  cases kind with
  | data =>
    rw [decode, decode, Data.decode_congr hk h]
    exact (Agree.self fun _ _ => rfl).bind fun _ _ heq => .ok (by simp [same, heq])
  | point => exact (Point.decode_agree hk h).bind fun _ _ hpq => .ok hpq
  | variant tag =>
    rw [decode, decode, Variant.decode_congr tag hk h]
    exact (Agree.self fun _ _ => rfl).bind fun _ _ heq => .ok (by simp [same, heq])
  | interface => exact absurd rfl hkind
  | wrapper => exact (Wrapper.decode_agree hk h).bind fun _ _ hvw => .ok hvw

/-- What agreement of the readings means: equal records, which are written alike, or one error. -/
theorem Record.cases_of_agree {x y : Except Error Record}
    (h : Agree (fun r s => r.same s = true) x y) :
    (∃ r s, x = .ok r ∧ y = .ok s ∧ r.same s = true ∧
      ((∃ v w, r.encode = .ok v ∧ s.encode = .ok w ∧ v.same w = true) ∨
        ∃ type field, r.encode = .error (.missingField type field) ∧
          s.encode = .error (.missingField type field))) ∨
    ∃ error, x = .error error ∧ y = .error error := by
  cases h with
  | error error => exact .inr ⟨error, rfl, rfl⟩
  | @ok r s hrs =>
    refine .inl ⟨r, s, rfl, rfl, hrs, ?_⟩
    have hencode := encode_agree hrs
    generalize hv : r.encode = v at hencode ⊢
    generalize s.encode = w at hencode ⊢
    cases hencode with
    | ok hvw => exact .inl ⟨_, _, rfl, rfl, hvw⟩
    | error error =>
      obtain ⟨type, field, rfl⟩ := encode_eq_missingField hv
      exact .inr ⟨type, field, rfl, rfl⟩

/-- Values that are equal on the wire are read alike under every kind. Either both are read, as
    equal records, and those are both written, as equal values, or both lack the same field; or
    neither is read, and the errors are identical. There is one exception: of discriminators that
    are no strings each union reports its own text. -/
theorem Record.decode_respects_same (kind : Kind) (hk : a.DistinctKeys) (h : a.same b = true) :
    (∃ r s, decode kind a = .ok r ∧ decode kind b = .ok s ∧ r.same s = true ∧
      ((∃ v w, r.encode = .ok v ∧ s.encode = .ok w ∧ v.same w = true) ∨
        ∃ type field, r.encode = .error (.missingField type field) ∧
          s.encode = .error (.missingField type field))) ∨
    (∃ error, decode kind a = .error error ∧ decode kind b = .error error) ∨
    (kind = .interface ∧ ∃ v w, a.discriminator? = some v ∧ b.discriminator? = some w ∧
      v.same w = true ∧ (∀ text, v ≠ .string text) ∧ (∀ text, w ≠ .string text) ∧
      decode kind a = .error (.unknownTag (some (discriminatorText v))) ∧
      decode kind b = .error (.unknownTag (some (discriminatorText w)))) := by
  by_cases hkind : kind = .interface
  · subst hkind
    obtain heq | ⟨v, w, hv, hw, hvw, hvs, hws, ha, hb⟩ := Variant.decodeUnion_cases hk h
    · have hagree : Agree (fun r s => r.same s = true) (decode .interface a)
          (decode .interface b) := by
        rw [decode, decode, heq]
        exact (Agree.self fun _ _ => rfl).bind fun _ _ hheld => .ok (by simp [same, hheld])
      exact (cases_of_agree hagree).imp_right .inl
    · refine .inr (.inr ⟨rfl, v, w, hv, hw, hvw, hvs, hws, ?_, ?_⟩)
      · rw [decode_interface, ha]
        rfl
      · rw [decode_interface, hb]
        rfl
  · exact (cases_of_agree (decode_agree hkind hk h)).imp_right .inl

end Records

/-- A mapping in which a zero stands as payload and in place of a tag. -/
def zeroFirst : Value :=
  .mapping [("data", .mapping [("x", .number (.float Binary64.zero)), ("y", .bool true)]),
    ("type", .sequence [.number (.float Binary64.zero)])]

/-- The same mapping with negative zeros and with its members in another order. -/
def zeroLast : Value :=
  .mapping [("type", .sequence [.number (.float Binary64.zero.neg)]),
    ("data", .mapping [("y", .bool true), ("x", .number (.float Binary64.zero.neg))])]

theorem distinctKeys_zeroFirst : zeroFirst.DistinctKeys := by
  refine .intro (by decide) fun part hpart => ?_
  obtain rfl | rfl : _ ∨ part = _ := by simpa [zeroFirst] using hpart
  · refine .intro (by decide) fun part hpart => ?_
    obtain rfl | rfl : _ ∨ part = _ := by simpa using hpart
    · exact .intro (by decide) nofun
    · exact .intro (by decide) nofun
  · refine .intro (by decide) fun part hpart => ?_
    obtain rfl : part = _ := by simpa using hpart
    exact .intro (by decide) nofun

theorem Record.decode_respects_same_zeros :
    zeroFirst.DistinctKeys ∧ zeroFirst.same zeroLast = true ∧
      (∃ r s, decode .wrapper zeroFirst = .ok r ∧ decode .wrapper zeroLast = .ok s ∧
        r.same s = true ∧ r ≠ s) ∧
      decode .interface zeroFirst = .error (.unknownTag (some "[0.0]")) ∧
      decode .interface zeroLast = .error (.unknownTag (some "[-0.0]")) := by
  have hk := distinctKeys_zeroFirst
  have hs : zeroFirst.same zeroLast = true := by decide +kernel
  refine ⟨hk, hs, ?_, rfl, rfl⟩
  obtain ⟨r, s, hr, hs, hrs, -⟩ | ⟨_, he, -⟩ | ⟨he, -⟩ := decode_respects_same .wrapper hk hs
  · refine ⟨r, s, hr, hs, hrs, ?_⟩
    rintro rfl
    exact absurd (congrArg Except.toOption (hr.trans hs.symm)) (by decide +kernel)
  · exact nomatch he
  · exact nomatch he

end WireForm
