import WireForm.Proofs.Record.Grammar

/-!
# Writing a record and reading it again

An encoder fails at the first field that it needs and that is not there, and at nothing else.
What it writes is read back as the record it was made of. The one record that is not read back
is the wrapper of `null`, since `null` fills no slot; a union is not read back as a union, since
the stamp is no tag.
-/

namespace WireForm

/-! ## What an encoder needs -/

/-- A field that an encoder needs, and whether it is there. -/
structure Need where
  type : TypeName
  field : Field
  filled : Bool
deriving DecidableEq

/-- The error that reports the field missing. -/
def Need.error (need : Need) : Error := .missingField need.type need.field

/-- What a variant needs: its own fields, then the name of the record nested in it. -/
def Variant.needs (variant : Variant) : List Need :=
  [⟨.variant variant.tag, .name, variant.name.isSome⟩,
    ⟨.variant variant.tag, .data, variant.data.isSome⟩,
    ⟨.data, .name, (variant.data.bind (·.name)).isSome⟩]

/-- What a record needs to be written, in the order in which it is looked for. -/
def Record.needs : Record → List Need
  | .data record => [⟨.data, .name, record.name.isSome⟩]
  | .point record =>
    [⟨.point, .timestamp, record.timestamp.isSome⟩, ⟨.point, .value, record.value.isSome⟩]
  | .variant record => record.needs
  | .interface held => held.needs
  | .wrapper record => [⟨.wrapper, .data, record.data.isSome⟩]

/-- The first field that is needed and not there. -/
def Record.firstMissing? (record : Record) : Option Need := record.needs.find? (!·.filled)

theorem Record.firstMissing?_eq_none_iff {record : Record} :
    record.firstMissing? = none ↔ ∀ need ∈ record.needs, need.filled = true := by
  simp [Record.firstMissing?]

/-- A variant is written if all it needs is there; else the first missing field is reported. -/
theorem Variant.encode_of_needs (variant : Variant) :
    match variant.needs.find? (!·.filled) with
    | some need => variant.encode = .error need.error
    | none => ∃ wire, variant.encode = .ok wire := by
  -- The cases are in the order in which the encoder looks for the fields.
  obtain ⟨tag, name, data⟩ := variant
  cases name with
  | none => rfl
  | some name =>
    cases data with
    | none => rfl
    | some data =>
      obtain ⟨inner⟩ := data
      cases inner with
      | none => rfl
      | some inner => exact ⟨_, rfl⟩

/-- A record is written if all it needs is there; else the first missing field is reported. -/
theorem Record.encode_of_needs (record : Record) :
    match record.firstMissing? with
    | some need => record.encode = .error need.error
    | none => ∃ wire, record.encode = .ok wire := by
  cases record with
  | data record =>
    obtain ⟨name⟩ := record
    cases name with
    | none => rfl
    | some name => exact ⟨_, rfl⟩
  | point record =>
    obtain ⟨timestamp, value⟩ := record
    cases timestamp with
    | none => rfl
    | some timestamp =>
      cases value with
      | none => rfl
      | some value => exact ⟨_, rfl⟩
  | variant record => exact record.encode_of_needs
  | interface held => exact held.encode_of_needs
  | wrapper record =>
    obtain ⟨payload⟩ := record
    cases payload with
    | none => rfl
    | some payload => exact ⟨_, rfl⟩

theorem Record.encode_eq_error_iff {record : Record} {error : Error} :
    record.encode = .error error ↔
      ∃ need, record.firstMissing? = some need ∧ error = need.error := by
  have h := record.encode_of_needs
  cases hf : record.firstMissing? with
  | some need =>
    rw [hf] at h
    simp [h, eq_comm]
  | none =>
    rw [hf] at h
    obtain ⟨wire, hw⟩ := h
    simp [hw]

theorem Record.encode_eq_ok_iff {record : Record} :
    (∃ wire, record.encode = .ok wire) ↔ ∀ need ∈ record.needs, need.filled = true := by
  rw [← Record.firstMissing?_eq_none_iff]
  have h := record.encode_of_needs
  cases hf : record.firstMissing? with
  | some need =>
    rw [hf] at h
    simp [h]
  | none =>
    rw [hf] at h
    simpa using h

/-! ## Reading what was written -/

theorem Data.decode_encode {record : Data} {wire : Value} (h : record.encode = .ok wire) :
    Data.decode wire = .ok record := by
  obtain ⟨name, rfl, rfl⟩ := Data.encode_eq_ok_iff.mp h
  exact Data.decode_eq_ok_iff.mpr ⟨_, rfl, by simp⟩

theorem Point.decode_encode {point : Point} {wire : Value} (h : point.encode = .ok wire) :
    Point.decode wire = .ok point := by
  obtain ⟨timestamp, value, rfl, rfl⟩ := Point.encode_eq_ok_iff.mp h
  exact Point.ofSlots_eq_ok_iff.mpr ⟨timestamp, value, rfl, rfl, rfl⟩

/-- The stamp in front is not looked at when the alternative is known. -/
theorem Variant.decode_variantForm (tag : Tag) (stamped : Tag) (name inner : String) :
    Variant.decode tag (variantForm stamped name inner) =
      .ok ⟨tag, some name, some ⟨some inner⟩⟩ := by
  refine Variant.decode_eq_ok_iff.mpr ⟨rfl, _, rfl, ?_, ?_⟩
  · simp [Value.slot_cons_of_ne]
  · refine Variant.dataSlot_eq_ok_iff.mpr (.inr ⟨dataForm inner, ⟨some inner⟩, ?_, rfl, ?_⟩)
    · simp [Value.slot_cons_of_ne, dataForm]
    · exact Data.decode_encode rfl

theorem Variant.decode_encode {variant : Variant} {wire : Value} (h : variant.encode = .ok wire) :
    Variant.decode variant.tag wire = .ok variant := by
  obtain ⟨name, inner, hv, rfl⟩ := Variant.encode_eq_ok_iff.mp h
  rw [Variant.decode_variantForm, ← hv]

/-- The union is not read from what it is written as: the stamp selects no alternative. -/
theorem Variant.decodeUnion_encode {variant : Variant} {wire : Value}
    (h : variant.encode = .ok wire) :
    Variant.decodeUnion wire = .error (.unknownTag (some variant.tag.stamp)) := by
  obtain ⟨name, inner, -, rfl⟩ := Variant.encode_eq_ok_iff.mp h
  simp [Variant.decodeUnion, variantForm, expectMapping, tagKey, selectTag]

/-- Any wrapped value but `null` is read back. -/
theorem Wrapper.decode_encode {payload wire : Value} (hp : payload ≠ .null)
    (h : Wrapper.encode ⟨some payload⟩ = .ok wire) : Wrapper.decode wire = .ok ⟨some payload⟩ := by
  obtain ⟨_, hw, rfl⟩ := Wrapper.encode_eq_ok_iff.mp h
  obtain rfl := Option.some.inj (congrArg Wrapper.data hw)
  simp [Wrapper.decode, wrapperForm, Value.present_of_ne_null hp]

theorem Record.decode_encode_of_variant {variant : Variant} {wire : Value}
    (h : variant.encode = .ok wire) :
    Record.decode (.variant variant.tag) wire = .ok (.variant variant) := by
  simp [Record.decode, Variant.decode_encode h]

/-- Any record but a union or the wrapper of `null` is read back under its own kind. -/
theorem Record.decode_encode {record : Record} {wire : Value} (h : record.encode = .ok wire)
    (hu : ∀ held, record ≠ .interface held) (hw : record ≠ .wrapper ⟨some .null⟩) :
    Record.decode record.kind wire = .ok record := by
  cases record with
  | data record => simp [Record.decode, Record.kind, Data.decode_encode h]
  | point record => simp [Record.decode, Record.kind, Point.decode_encode h]
  | variant record => exact Record.decode_encode_of_variant h
  | interface held => exact absurd rfl (hu held)
  | wrapper record =>
    obtain ⟨payload⟩ := record
    cases payload with
    | none => simp [Record.encode, Wrapper.encode, require] at h
    | some payload =>
      -- The one payload that fills no slot is the one excluded.
      have hp : payload ≠ .null := by
        rintro rfl
        exact hw rfl
      simp [Record.decode, Record.kind, Wrapper.decode_encode hp h]

/-- A record is written exactly if all that it needs is there, and else its first missing field
    is reported. What is written is read back as the very record, under the kind of the record.
    There are two exceptions: the wrapper of `null` is read back empty, and so is not written
    again, and a union is written as the variant it holds, from which no union is read back, but
    the variant is. -/
theorem Record.decode_encode_own_kind (record : Record) :
    ((∃ wire, record.encode = .ok wire) ↔ ∀ need ∈ record.needs, need.filled = true) ∧
    (∀ error, record.encode = .error error ↔
      ∃ need, record.firstMissing? = some need ∧ error = need.error) ∧
    (∀ point, record = .point point →
      record.needs.map (·.field.missingLabel) = ["TS", "value"]) ∧
    (∀ wire, record.encode = .ok wire → (∀ held, record ≠ .interface held) →
      record ≠ .wrapper ⟨some .null⟩ → Record.decode record.kind wire = .ok record) ∧
    (record = .wrapper ⟨some .null⟩ →
      ∃ wire, record.encode = .ok wire ∧ Record.decode .wrapper wire = .ok (.wrapper ⟨none⟩) ∧
        (Record.wrapper ⟨none⟩).encode = .error (.missingField .wrapper .data)) ∧
    ∀ held, record = .interface held →
      record.encode = held.encode ∧
      ∀ wire, held.encode = .ok wire →
        Record.decode .interface wire = .error (.unknownTag (some held.tag.stamp)) ∧
          Record.decode (.variant held.tag) wire = .ok (.variant held) := by
  refine ⟨Record.encode_eq_ok_iff, fun error => Record.encode_eq_error_iff, ?_,
    fun wire => Record.decode_encode, ?_, ?_⟩
  · rintro point rfl
    rfl
  · rintro rfl
    exact ⟨wrapperForm .null, rfl, rfl, rfl⟩
  · rintro held rfl
    refine ⟨rfl, fun wire h => ⟨?_, Record.decode_encode_of_variant h⟩⟩
    simp [Record.decode, Variant.decodeUnion_encode h]

end WireForm
