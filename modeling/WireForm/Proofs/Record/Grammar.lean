import WireForm.Proofs.Outcome
import WireForm.Record

/-!
# What each kind accepts

Canonicalization reads a value as a kind and writes what was read. For every kind this
module says which values it accepts and what it makes of them. The four forms that it can
make come first, then encoders, decoders and the two in sequence.
-/

namespace WireForm

/-! ## The written forms -/

/-- The mapping that a data record is written as. -/
def dataForm (name : String) : Value := .mapping [("name", .string name)]

/-- The sequence that a point is written as. -/
def pointForm (timestamp value : Number) : Value :=
  .sequence [.number timestamp, .number value]

/-- The mapping that a variant is written as, with the stamp in front. -/
def variantForm (tag : Tag) (name inner : String) : Value :=
  .mapping [("type", .string tag.stamp), ("name", .string name), ("data", dataForm inner)]

/-- The mapping that a wrapper is written as. -/
def wrapperForm (payload : Value) : Value := .mapping [("data", payload)]

/-! ## Slots -/

namespace Value

@[simp] theorem slot_nil (key : String) : slot [] key = none := rfl

@[simp] theorem slot_cons_self (key : String) (value : Value) (members : Members) :
    slot ((key, value) :: members) key = present (some value) := by
  simp [slot]

theorem slot_cons_of_ne {key other : String} (h : key ≠ other) (value : Value)
    (members : Members) : slot ((other, value) :: members) key = slot members key := by
  simp [slot, List.lookup_cons, beq_eq_false_iff_ne.mpr h]

@[simp] theorem present_string (text : String) :
    present (some (.string text)) = some (.string text) :=
  rfl

@[simp] theorem present_number (n : Number) : present (some (.number n)) = some (.number n) := rfl

@[simp] theorem present_mapping (members : Members) :
    present (some (.mapping members)) = some (.mapping members) := rfl

theorem isNull_eq_false_iff {value : Value} : value.isNull = false ↔ value ≠ .null := by
  cases value <;> simp [isNull]

theorem present_of_ne_null {value : Value} (h : value ≠ .null) :
    present (some value) = some value :=
  present_of_not_null (isNull_eq_false_iff.mpr h)

/-- What fills a slot is not `null`. -/
theorem ne_null_of_slot {members : Members} {key : String} {value : Value}
    (h : slot members key = some value) : value ≠ .null :=
  isNull_eq_false_iff.mp (isNull_of_present h)

theorem mem_of_slot {members : Members} {key : String} {value : Value}
    (h : slot members key = some value) : (key, value) ∈ members := by
  have hl : members.lookup key = some value := (Option.filter_eq_some_iff.mp h).1
  obtain ⟨before, after, rfl, -⟩ := List.lookup_eq_some_iff.mp hl
  simp

end Value

theorem Value.string_ne_null (text : String) : Value.string text ≠ .null := by simp

theorem dataForm_ne_null (name : String) : dataForm name ≠ .null := by simp [dataForm]

/-! ## Steps of decoders and encoders -/

theorem expectMapping_eq_ok_iff {type : TypeName} {wire : Value} {members : Members} :
    expectMapping type wire = .ok members ↔ wire = .mapping members := by
  cases wire <;> simp [expectMapping]

/-- A string is read where a string stands, and nothing where the slot is empty. -/
theorem stringSlot_eq_ok_iff {type : TypeName} {field : Field} {slot : Option Value}
    {text : Option String} :
    stringSlot type field slot = .ok text ↔ slot = text.map .string := by
  cases slot with
  | none => cases text <;> simp [stringSlot]
  | some wire => cases wire <;> cases text <;> simp [stringSlot]

/-- A number is read where a number stands, and nothing where the slot is empty. -/
theorem numberSlot_eq_ok_iff {type : TypeName} {field : Field} {slot : Option Value}
    {n : Option Number} :
    numberSlot type field slot = .ok n ↔ slot = n.map .number := by
  cases slot with
  | none => cases n <;> simp [numberSlot]
  | some wire => cases wire <;> cases n <;> simp [numberSlot]

/-! ## Encoders -/

theorem Data.encode_eq_ok_iff {record : Data} {wire : Value} :
    record.encode = .ok wire ↔ ∃ name, record = ⟨some name⟩ ∧ wire = dataForm name := by
  obtain ⟨name⟩ := record
  cases name <;> simp [Data.encode, require, dataForm, eq_comm]

theorem Point.encode_eq_ok_iff {point : Point} {wire : Value} :
    point.encode = .ok wire ↔
      ∃ timestamp value, point = ⟨some timestamp, some value⟩ ∧
        wire = pointForm timestamp value := by
  obtain ⟨timestamp, value⟩ := point
  cases timestamp <;> cases value <;> simp [Point.encode, require, pointForm, eq_comm, and_assoc]

theorem Variant.encode_eq_ok_iff {variant : Variant} {wire : Value} :
    variant.encode = .ok wire ↔
      ∃ name inner, variant = ⟨variant.tag, some name, some ⟨some inner⟩⟩ ∧
        wire = variantForm variant.tag name inner := by
  obtain ⟨tag, name, data⟩ := variant
  cases name with
  | none => simp [Variant.encode, require]
  | some name =>
    cases data with
    | none => simp [Variant.encode, require]
    | some data =>
      obtain ⟨inner⟩ := data
      cases inner <;>
        simp [Variant.encode, Data.encode, require, variantForm, dataForm, tagKey, eq_comm,
          and_assoc]

theorem Wrapper.encode_eq_ok_iff {wrapper : Wrapper} {wire : Value} :
    wrapper.encode = .ok wire ↔
      ∃ payload, wrapper = ⟨some payload⟩ ∧ wire = wrapperForm payload := by
  obtain ⟨payload⟩ := wrapper
  cases payload <;> simp [Wrapper.encode, require, wrapperForm, eq_comm]

/-! ## Decoders -/

theorem Data.decode_eq_ok_iff {wire : Value} {record : Data} :
    Data.decode wire = .ok record ↔
      ∃ members, wire = .mapping members ∧
        Value.slot members "name" = record.name.map .string := by
  simp only [Data.decode, bind_eq_ok_iff, expectMapping_eq_ok_iff, stringSlot_eq_ok_iff,
    pure_eq_ok, Except.ok.injEq]
  constructor
  · rintro ⟨members, hw, name, hn, rfl⟩
    exact ⟨members, hw, hn⟩
  · rintro ⟨members, hw, hn⟩
    exact ⟨members, hw, record.name, hn, rfl⟩

/-- A point needs a number in both of its slots. -/
theorem Point.ofSlots_eq_ok_iff {wire : Value} {expected : Expected}
    {timestamp value : Option Value}
    {point : Point} :
    Point.ofSlots wire expected timestamp value = .ok point ↔
      ∃ m n, timestamp = some (.number m) ∧ value = some (.number n) ∧
        point = ⟨some m, some n⟩ := by
  simp only [Point.ofSlots, bind_eq_ok_iff, numberSlot_eq_ok_iff]
  constructor
  · rintro ⟨m, hm, n, hn, h⟩
    cases m with
    | none => exact nomatch h
    | some m =>
      cases n with
      | none => exact nomatch h
      | some n => exact ⟨m, n, hm, hn, (Except.ok.inj h).symm⟩
  · rintro ⟨m, n, hm, hn, rfl⟩
    exact ⟨some m, hm, some n, hn, rfl⟩

theorem Variant.dataSlot_eq_ok_iff {slot : Option Value} {data : Option Data} :
    Variant.dataSlot slot = .ok data ↔
      (slot = none ∧ data = none) ∨
        ∃ wire record, slot = some wire ∧ data = some record ∧ Data.decode wire = .ok record := by
  cases slot with
  | none => simp [Variant.dataSlot, eq_comm]
  | some wire =>
    simp only [Variant.dataSlot, bind_eq_ok_iff, pure_eq_ok, Except.ok.injEq, reduceCtorEq,
      false_and, false_or, Option.some.injEq]
    constructor
    · rintro ⟨record, hr, rfl⟩
      exact ⟨wire, record, rfl, rfl, hr⟩
    · rintro ⟨_, record, rfl, rfl, hr⟩
      exact ⟨record, hr, rfl⟩

theorem Variant.decode_eq_ok_iff {tag : Tag} {wire : Value} {variant : Variant} :
    Variant.decode tag wire = .ok variant ↔
      variant.tag = tag ∧ ∃ members, wire = .mapping members ∧
        Value.slot members "name" = variant.name.map .string ∧
        Variant.dataSlot (Value.slot members "data") = .ok variant.data := by
  simp only [Variant.decode, bind_eq_ok_iff, expectMapping_eq_ok_iff, stringSlot_eq_ok_iff,
    pure_eq_ok, Except.ok.injEq]
  constructor
  · rintro ⟨members, hw, name, hn, data, hd, rfl⟩
    exact ⟨rfl, members, hw, hn, hd⟩
  · obtain ⟨tag', name, data⟩ := variant
    rintro ⟨rfl, members, hw, hn, hd⟩
    exact ⟨members, hw, name, hn, data, hd, rfl⟩

/-- The union is read by the text of a tag and by no other discriminator. -/
theorem selectTag_eq_ok_iff {discriminator : Option Value} {tag : Tag} :
    selectTag discriminator = .ok tag ↔ discriminator = some (.string tag.text) := by
  cases discriminator with
  | none => simp [selectTag]
  | some wire =>
    cases wire with
    | string text =>
      simp only [selectTag, Option.some.injEq, Value.string.injEq]
      rw [← Tag.ofText?_eq_some_iff]
      cases Tag.ofText? text <;> simp
    | _ => simp [selectTag]

theorem Variant.decodeUnion_eq_ok_iff {wire : Value} {variant : Variant} :
    Variant.decodeUnion wire = .ok variant ↔
      ∃ members, wire = .mapping members ∧
        Value.slot members "type" = some (.string variant.tag.text) ∧
        Variant.decode variant.tag wire = .ok variant := by
  simp only [Variant.decodeUnion, bind_eq_ok_iff, expectMapping_eq_ok_iff, selectTag_eq_ok_iff,
    tagKey]
  constructor
  · rintro ⟨members, hw, tag, ht, hd⟩
    obtain rfl := (Variant.decode_eq_ok_iff.mp hd).1
    exact ⟨members, hw, ht, hd⟩
  · rintro ⟨members, hw, ht, hd⟩
    exact ⟨members, hw, variant.tag, ht, hd⟩

/-! ## Canonicalization -/

theorem canonicalize_eq_ok_iff {kind : Kind} {wire canonical : Value} :
    canonicalize kind wire = .ok canonical ↔
      ∃ record, Record.decode kind wire = .ok record ∧ record.encode = .ok canonical :=
  bind_eq_ok_iff

/-- Data records are made of mappings with a string as name. -/
theorem canonicalize_data_iff {wire canonical : Value} :
    canonicalize .data wire = .ok canonical ↔
      ∃ members name, wire = .mapping members ∧
        Value.slot members "name" = some (.string name) ∧ canonical = dataForm name := by
  simp only [canonicalize_eq_ok_iff, Record.decode, bind_eq_ok_iff, pure_eq_ok, Except.ok.injEq,
    Data.decode_eq_ok_iff]
  constructor
  · rintro ⟨_, ⟨record, ⟨members, hw, hn⟩, rfl⟩, he⟩
    obtain ⟨name, rfl, rfl⟩ := Data.encode_eq_ok_iff.mp he
    exact ⟨members, name, hw, hn, rfl⟩
  · rintro ⟨members, name, hw, hn, rfl⟩
    exact ⟨_, ⟨⟨some name⟩, ⟨members, hw, hn⟩, rfl⟩, rfl⟩

/-- What is read as a point has both its numbers, so it is written. -/
theorem canonicalize_point_iff {wire canonical : Value} :
    canonicalize .point wire = .ok canonical ↔
      ∃ timestamp value, Point.decode wire = .ok ⟨some timestamp, some value⟩ ∧
        canonical = pointForm timestamp value := by
  simp only [canonicalize_eq_ok_iff, Record.decode, bind_eq_ok_iff, pure_eq_ok, Except.ok.injEq]
  constructor
  · rintro ⟨_, ⟨point, hp, rfl⟩, he⟩
    obtain ⟨timestamp, value, rfl, rfl⟩ := Point.encode_eq_ok_iff.mp he
    exact ⟨timestamp, value, hp, rfl⟩
  · rintro ⟨timestamp, value, hp, rfl⟩
    exact ⟨_, ⟨_, hp, rfl⟩, rfl⟩

/-- A mapping is a point if both slots hold numbers. -/
theorem canonicalize_point_mapping_iff {members : Members} {canonical : Value} :
    canonicalize .point (.mapping members) = .ok canonical ↔
      ∃ timestamp value, Value.slot members "timestamp" = some (.number timestamp) ∧
        Value.slot members "value" = some (.number value) ∧
        canonical = pointForm timestamp value := by
  simp only [canonicalize_point_iff, Point.decode, Point.ofSlots_eq_ok_iff]
  constructor
  · rintro ⟨_, _, ⟨timestamp, value, ht, hv, hp⟩, rfl⟩
    obtain ⟨rfl, rfl⟩ := Point.mk.inj hp |>.imp Option.some.inj Option.some.inj
    exact ⟨_, _, ht, hv, rfl⟩
  · rintro ⟨timestamp, value, ht, hv, rfl⟩
    exact ⟨_, _, ⟨timestamp, value, ht, hv, rfl⟩, rfl⟩

/-- A sequence is a point if its first two items are numbers. -/
theorem canonicalize_point_sequence_iff {items : List Value} {canonical : Value} :
    canonicalize .point (.sequence items) = .ok canonical ↔
      ∃ timestamp value, Value.slotAt items 0 = some (.number timestamp) ∧
        Value.slotAt items 1 = some (.number value) ∧
        canonical = pointForm timestamp value := by
  simp only [canonicalize_point_iff, Point.decode, Point.ofSlots_eq_ok_iff]
  constructor
  · rintro ⟨_, _, ⟨timestamp, value, ht, hv, hp⟩, rfl⟩
    obtain ⟨rfl, rfl⟩ := Point.mk.inj hp |>.imp Option.some.inj Option.some.inj
    exact ⟨_, _, ht, hv, rfl⟩
  · rintro ⟨timestamp, value, ht, hv, rfl⟩
    exact ⟨_, _, ⟨timestamp, value, ht, hv, rfl⟩, rfl⟩

/-- Variants are made of mappings with a string as name and, as data, a mapping with a string
    as name. The tag is not looked at. -/
theorem canonicalize_variant_iff {tag : Tag} {wire canonical : Value} :
    canonicalize (.variant tag) wire = .ok canonical ↔
      ∃ members nested name inner, wire = .mapping members ∧
        Value.slot members "name" = some (.string name) ∧
        Value.slot members "data" = some (.mapping nested) ∧
        Value.slot nested "name" = some (.string inner) ∧
        canonical = variantForm tag name inner := by
  simp only [canonicalize_eq_ok_iff, Record.decode, bind_eq_ok_iff, pure_eq_ok, Except.ok.injEq,
    Variant.decode_eq_ok_iff, Variant.dataSlot_eq_ok_iff, Data.decode_eq_ok_iff]
  constructor
  · rintro ⟨_, ⟨variant, ⟨rfl, members, hw, hn, hd⟩, rfl⟩, he⟩
    obtain ⟨name, inner, hv, rfl⟩ := Variant.encode_eq_ok_iff.mp he
    rw [hv] at hn hd
    obtain ⟨-, hd⟩ | ⟨_, record, hd, hr, nested, rfl, hi⟩ := hd
    · exact nomatch hd
    · obtain rfl := Option.some.inj hr
      exact ⟨members, nested, name, inner, hw, hn, hd, hi, rfl⟩
  · rintro ⟨members, nested, name, inner, hw, hn, hd, hi, rfl⟩
    exact ⟨_, ⟨⟨tag, some name, some ⟨some inner⟩⟩,
      ⟨rfl, members, hw, hn, .inr ⟨_, _, hd, rfl, nested, rfl, hi⟩⟩, rfl⟩, rfl⟩

/-- The union takes what the variant of its tag takes, and makes the same of it. -/
theorem canonicalize_interface_iff {wire canonical : Value} :
    canonicalize .interface wire = .ok canonical ↔
      ∃ members tag, wire = .mapping members ∧
        Value.slot members "type" = some (.string (Tag.text tag)) ∧
        canonicalize (.variant tag) wire = .ok canonical := by
  simp only [canonicalize_eq_ok_iff, Record.decode, bind_eq_ok_iff, pure_eq_ok, Except.ok.injEq,
    Variant.decodeUnion_eq_ok_iff]
  constructor
  · rintro ⟨_, ⟨variant, ⟨members, hw, ht, hv⟩, rfl⟩, he⟩
    exact ⟨members, variant.tag, hw, ht, _, ⟨variant, hv, rfl⟩, he⟩
  · rintro ⟨members, tag, hw, ht, _, ⟨variant, hv, rfl⟩, he⟩
    obtain rfl := (Variant.decode_eq_ok_iff.mp hv).1
    exact ⟨_, ⟨variant, ⟨members, hw, ht, hv⟩, rfl⟩, he⟩

/-- Wrappers are made of strings and of mappings in which something stands as data. -/
theorem canonicalize_wrapper_iff {wire canonical : Value} :
    canonicalize .wrapper wire = .ok canonical ↔
      ∃ payload, canonical = wrapperForm payload ∧
        ((∃ text, wire = .string text ∧ payload = .string text) ∨
          ∃ members, wire = .mapping members ∧ Value.slot members "data" = some payload) := by
  simp only [canonicalize_eq_ok_iff, Record.decode, bind_eq_ok_iff, pure_eq_ok, Except.ok.injEq]
  constructor
  · rintro ⟨_, ⟨wrapper, hw, rfl⟩, he⟩
    obtain ⟨payload, rfl, rfl⟩ := Wrapper.encode_eq_ok_iff.mp he
    refine ⟨payload, rfl, ?_⟩
    cases wire with
    | string text =>
      obtain rfl : Value.string text = payload := by simpa [Wrapper.decode] using hw
      exact .inl ⟨text, rfl, rfl⟩
    | mapping members =>
      have hs : Value.slot members "data" = some payload := by simpa [Wrapper.decode] using hw
      exact .inr ⟨members, rfl, hs⟩
    | _ => exact nomatch hw
  · rintro ⟨payload, rfl, ⟨text, rfl, rfl⟩ | ⟨members, rfl, hs⟩⟩
    · exact ⟨_, ⟨_, rfl, rfl⟩, rfl⟩
    · exact ⟨_, ⟨⟨some payload⟩, by rw [Wrapper.decode, hs], rfl⟩, rfl⟩

end WireForm
