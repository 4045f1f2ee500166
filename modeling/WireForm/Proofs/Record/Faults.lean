import WireForm.Proofs.Record.Dispatch

/-!
# Which fault is reported

A decoder looks at one place after another and reports the first that holds a value of a shape it
does not accept. An encoder reports the first place that is empty. So what fails is the first
fault among what each look finds: this module lists the looks for variants and for points, in
their order, and says what comes of them.
-/

namespace WireForm

variable {α β : Type}

/-! ## Findings

A finding is what a look at one place gives: the error that reports a fault there, or nothing. -/

/-- The first fault among findings. -/
def firstFault (findings : List (Option Error)) : Option Error := findings.findSome? id

/-- What is found where values of one shape are accepted. An empty place is no fault. -/
def misfit (accepted : Shape) (report : Shape → Error) : Option Value → Option Error
  | none => none
  | some value => if value.shape = accepted then none else some (report value.shape)

/-- What is found where something is needed. -/
def lack (error : Error) (place : Option α) : Option Error :=
  if place.isSome then none else some error

theorem firstFault_append (found more : List (Option Error)) :
    firstFault (found ++ more) = (firstFault found).or (firstFault more) :=
  List.findSome?_append

theorem firstFault_eq_none_iff {findings : List (Option Error)} :
    firstFault findings = none ↔ ∀ finding ∈ findings, finding = none :=
  List.findSome?_eq_none_iff

/-- The first fault is one of those found. -/
theorem mem_of_firstFault {findings : List (Option Error)} {error : Error}
    (h : firstFault findings = some error) : some error ∈ findings := by
  obtain ⟨finding, hmem, rfl⟩ := List.exists_of_findSome?_eq_some h
  exact hmem

/-- A misfit is reported with the shape that was found. -/
theorem exists_of_misfit {accepted : Shape} {report : Shape → Error} {place : Option Value}
    {error : Error} (h : misfit accepted report place = some error) :
    ∃ value, place = some value ∧ value.shape ≠ accepted ∧ error = report value.shape := by
  cases place with
  | none => exact nomatch h
  | some value =>
    rw [misfit] at h
    split at h
    · exact nomatch h
    · next hshape => exact ⟨value, rfl, hshape, (Option.some.inj h).symm⟩

theorem lack_map {error : Error} (f : α → β) (place : Option α) :
    lack error (place.map f) = lack error place := by
  simp [lack]

/-! ## Steps -/

/-- What a sequence of steps reports is the first fault of its steps. -/
theorem fault?_bind {x : Except Error α} {f : α → Except Error β}
    {found more : List (Option Error)} (hx : fault? x = firstFault found)
    (hf : ∀ a, x = .ok a → fault? (f a) = firstFault more) :
    fault? (x >>= f) = firstFault (found ++ more) := by
  rw [firstFault_append, ← hx]
  cases x with
  | error error =>
    -- The rest is not run, so whatever it would find comes second.
    rfl
  | ok a => exact hf a rfl

theorem fault?_expectMapping (type : TypeName) (wire : Value) :
    fault? (expectMapping type wire) =
      firstFault [misfit .mapping (.unexpectedShape type .mapping) (some wire)] := by
  cases wire <;> rfl

theorem fault?_stringSlot (type : TypeName) (field : Field) (place : Option Value) :
    fault? (stringSlot type field place) =
      firstFault [misfit .string (.fieldMismatch type field .string) place] := by
  cases place with
  | none => rfl
  | some value => cases value <;> rfl

theorem fault?_numberSlot (type : TypeName) (field : Field) (place : Option Value) :
    fault? (numberSlot type field place) =
      firstFault [misfit .number (.fieldMismatch type field .number) place] := by
  cases place with
  | none => rfl
  | some value => cases value <;> rfl

theorem fault?_require (type : TypeName) (field : Field) (place : Option α) :
    fault? (require type field place) = firstFault [lack (.missingField type field) place] := by
  cases place <;> rfl

theorem require_eq_ok_iff {type : TypeName} {field : Field} {place : Option α} {a : α} :
    require type field place = .ok a ↔ place = some a := by
  cases place <;> simp [require]

/-! ## Data records -/

/-- What fills the slot under a key. Only mappings have slots. -/
def Value.under (wire : Value) (key : String) : Option Value :=
  match wire with
  | .mapping members => slot members key
  | _ => none

@[simp] theorem Value.under_mapping (members : Members) (key : String) :
    (mapping members).under key = slot members key := rfl

theorem Data.fault?_decode (wire : Value) :
    fault? (decode wire) =
      firstFault [misfit .mapping (.unexpectedShape .data .mapping) (some wire),
        misfit .string (.fieldMismatch .data .name .string) (wire.under "name")] := by
  refine fault?_bind (fault?_expectMapping .data wire) fun members hm => ?_
  obtain rfl := expectMapping_eq_ok_iff.mp hm
  exact fault?_bind (fault?_stringSlot .data .name _) fun _ _ => rfl

theorem Data.fault?_encode (record : Data) :
    fault? record.encode = firstFault [lack (.missingField .data .name) record.name] :=
  fault?_bind (fault?_require .data .name record.name) fun _ _ => rfl

/-! ## Variants -/

namespace Variant

/-- What reading a variant finds, in order. -/
def readFindings (tag : Tag) (wire : Value) : List (Option Error) :=
  let data := wire.under "data"
  [misfit .mapping (.unexpectedShape (.variant tag) .mapping) (some wire),
    misfit .string (.fieldMismatch (.variant tag) .name .string) (wire.under "name"),
    misfit .mapping (.unexpectedShape .data .mapping) data,
    misfit .string (.fieldMismatch .data .name .string) (data.bind (·.under "name"))]

/-- What writing the variant that was read finds, in order. -/
def writeFindings (tag : Tag) (wire : Value) : List (Option Error) :=
  let data := wire.under "data"
  [lack (.missingField (.variant tag) .name) (wire.under "name"),
    lack (.missingField (.variant tag) .data) data,
    lack (.missingField .data .name) (data.bind (·.under "name"))]

theorem fault?_dataSlot (place : Option Value) :
    fault? (dataSlot place) =
      firstFault [misfit .mapping (.unexpectedShape .data .mapping) place,
        misfit .string (.fieldMismatch .data .name .string) (place.bind (·.under "name"))] := by
  cases place with
  | none => rfl
  | some wire => exact fault?_bind (Data.fault?_decode wire) fun _ _ => rfl

/-- Reading fails with the first fault that it finds. -/
theorem fault?_decode (tag : Tag) (wire : Value) :
    fault? (decode tag wire) = firstFault (readFindings tag wire) := by
  refine fault?_bind (fault?_expectMapping (.variant tag) wire) fun members hm => ?_
  obtain rfl := expectMapping_eq_ok_iff.mp hm
  refine fault?_bind (fault?_stringSlot (.variant tag) .name _) fun _ _ => ?_
  exact fault?_bind (fault?_dataSlot _) fun _ _ => rfl

/-- The record in a slot is there when the slot is filled, and has the name that stands in it. -/
theorem fields_of_dataSlot {place : Option Value} {data : Option Data}
    (h : dataSlot place = .ok data) :
    place.isSome = data.isSome ∧
      place.bind (·.under "name") = (data.bind (·.name)).map .string := by
  obtain ⟨rfl, rfl⟩ | ⟨wire, record, rfl, rfl, hr⟩ := dataSlot_eq_ok_iff.mp h
  · exact ⟨rfl, rfl⟩
  · obtain ⟨members, rfl, hname⟩ := Data.decode_eq_ok_iff.mp hr
    exact ⟨rfl, hname⟩

/-- Writing fails with the first field that is empty. -/
theorem fault?_encode (variant : Variant) :
    fault? variant.encode =
      firstFault [lack (.missingField (.variant variant.tag) .name) variant.name,
        lack (.missingField (.variant variant.tag) .data) variant.data,
        lack (.missingField .data .name) (variant.data.bind (·.name))] := by
  refine fault?_bind (fault?_require (.variant variant.tag) .name variant.name) fun _ _ => ?_
  refine fault?_bind (fault?_require (.variant variant.tag) .data variant.data) fun data hd => ?_
  rw [require_eq_ok_iff.mp hd]
  exact fault?_bind (Data.fault?_encode data) fun _ _ => rfl

/-- Writing what was read fails with the first place that was empty. -/
theorem fault?_encode_of_decode {tag : Tag} {wire : Value} {variant : Variant}
    (h : decode tag wire = .ok variant) :
    fault? variant.encode = firstFault (writeFindings tag wire) := by
  obtain ⟨rfl, members, rfl, hname, hdata⟩ := decode_eq_ok_iff.mp h
  -- A field of the variant is there exactly when its place in the mapping is filled.
  obtain ⟨hfilled, hinner⟩ := fields_of_dataSlot hdata
  rw [fault?_encode, writeFindings, Value.under_mapping, Value.under_mapping, hname, hinner,
    lack_map, lack_map]
  simp only [lack, hfilled]

/-- No reading reports a field missing. -/
theorem missingField_not_mem_readFindings (tag : Tag) (wire : Value) (type : TypeName)
    (field : Field) : some (.missingField type field) ∉ readFindings tag wire := by
  intro hmem
  simp only [readFindings, List.mem_cons, List.not_mem_nil, or_false] at hmem
  rcases hmem with h | h | h | h
  all_goals
    obtain ⟨_, -, -, herror⟩ := exists_of_misfit h.symm
    exact nomatch herror

end Variant

/-- A variant is brought into its canonical form unless a fault is found on reading it or on
    writing what was read, and fails with the first that is. -/
theorem fault?_canonicalize_variant (tag : Tag) (wire : Value) :
    fault? (canonicalize (.variant tag) wire) =
      firstFault (Variant.readFindings tag wire ++ Variant.writeFindings tag wire) := by
  have hcanonical : canonicalize (.variant tag) wire =
      Variant.decode tag wire >>= Variant.encode := by
    rw [canonicalize, Record.decode]
    cases Variant.decode tag wire <;> rfl
  rw [hcanonical]
  exact fault?_bind (Variant.fault?_decode tag wire) fun _ => Variant.fault?_encode_of_decode

/-- The canonical form of a variant exists exactly for mappings with a string as name and, as data,
    a mapping with a string as name, and is made of these two strings. For any other value the
    error is the first fault that is found, and all that can be found on reading comes before the
    fields that are missing. -/
theorem canonicalize_variant_outcome (tag : Tag) (wire : Value) :
    (∀ canonical, canonicalize (.variant tag) wire = .ok canonical ↔
      ∃ members nested name inner, wire = .mapping members ∧
        members.lookup "name" = some (.string name) ∧
        members.lookup "data" = some (.mapping nested) ∧
        nested.lookup "name" = some (.string inner) ∧
        canonical = .mapping [("type", .string tag.stamp), ("name", .string name),
          ("data", .mapping [("name", .string inner)])]) ∧
    (∀ error, canonicalize (.variant tag) wire = .error error ↔
      firstFault (Variant.readFindings tag wire ++ Variant.writeFindings tag wire) = some error) ∧
    ∀ type field, canonicalize (.variant tag) wire = .error (.missingField type field) →
      ∀ finding ∈ Variant.readFindings tag wire, finding = none := by
  refine ⟨fun canonical => ?_, fun error => ?_, fun type field h => ?_⟩
  · rw [canonicalize_variant_iff]
    constructor
    · rintro ⟨members, nested, name, inner, hw, hn, hd, hi, rfl⟩
      exact ⟨members, nested, name, inner, hw, Value.lookup_of_slot hn, Value.lookup_of_slot hd,
        Value.lookup_of_slot hi, rfl⟩
    · rintro ⟨members, nested, name, inner, hw, hn, hd, hi, rfl⟩
      refine ⟨members, nested, name, inner, hw, ?_, ?_, ?_, rfl⟩
      all_goals simp only [Value.slot, hn, hd, hi, Value.present_string, Value.present_mapping]
  · rw [← fault?_eq_some_iff, fault?_canonicalize_variant]
  · rw [← firstFault_eq_none_iff]
    rw [← fault?_eq_some_iff, fault?_canonicalize_variant, firstFault_append] at h
    cases hread : firstFault (Variant.readFindings tag wire) with
    | none => rfl
    | some error =>
      -- A fault found on reading would be the one reported, and it is no missing field.
      rw [hread] at h
      obtain rfl : error = .missingField type field := Option.some.inj h
      exact absurd (mem_of_firstFault hread)
        (Variant.missingField_not_mem_readFindings tag wire type field)

/-- A fault in the nested record is reported before the name that is missing. -/
example : canonicalize (.variant .one) (.mapping [("data", .mapping [("name", .bool true)])]) =
    .error (.fieldMismatch .data .name .string .bool) := rfl

/-! ## Points -/

namespace Point

/-- What reading a point finds in its two slots, in order. What is reported of an empty slot names
    what the decoder expected and the shape of the whole. -/
def findings (expected : Expected) (got : Shape) (timestamp value : Option Value) :
    List (Option Error) :=
  [misfit .number (.fieldMismatch .point .timestamp .number) timestamp,
    misfit .number (.fieldMismatch .point .value .number) value,
    lack (.unexpectedShape .point expected got) timestamp,
    lack (.unexpectedShape .point expected got) value]

/-- That a value is read as the point of two slots: of their numbers, if both hold one, and with the
    first fault found in them otherwise. -/
structure ReadFrom (wire : Value) (expected : Expected) (timestamp value : Option Value) :
    Prop where
  ok (point : Point) : decode wire = .ok point ↔
    ∃ m n, timestamp = some (.number m) ∧ value = some (.number n) ∧ point = ⟨some m, some n⟩
  error (error : Error) : decode wire = .error error ↔
    firstFault (findings expected wire.shape timestamp value) = some error

theorem fault?_ofSlots (wire : Value) (expected : Expected) (timestamp value : Option Value) :
    fault? (ofSlots wire expected timestamp value) =
      firstFault (findings expected wire.shape timestamp value) := by
  refine fault?_bind (fault?_numberSlot .point .timestamp timestamp) fun m hm => ?_
  refine fault?_bind (fault?_numberSlot .point .value value) fun n hn => ?_
  obtain rfl := numberSlot_eq_ok_iff.mp hm
  obtain rfl := numberSlot_eq_ok_iff.mp hn
  cases m <;> cases n <;> rfl

theorem readFrom_of_ofSlots {wire : Value} {expected : Expected} {timestamp value : Option Value}
    (h : decode wire = ofSlots wire expected timestamp value) :
    ReadFrom wire expected timestamp value where
  ok point := by rw [h, ofSlots_eq_ok_iff]
  error error := by rw [h, ← fault?_eq_some_iff, fault?_ofSlots]

theorem exists_of_numberSlot {field : Field} {place : Option Value} {error : Error}
    (h : numberSlot .point field place = .error error) :
    ∃ got, error = .fieldMismatch .point field .number got := by
  rw [← fault?_eq_some_iff, fault?_numberSlot] at h
  obtain ⟨value, -, -, rfl⟩ := exists_of_misfit (List.mem_singleton.mp (mem_of_firstFault h)).symm
  exact ⟨value.shape, rfl⟩

/-- What two slots give hangs on the value that they are slots of only where one of them is
    empty. -/
theorem ofSlots_cases (timestamp value : Option Value) :
    (∃ point, ∀ wire expected, ofSlots wire expected timestamp value = .ok point) ∨
    (∃ field got, ∀ wire expected, ofSlots wire expected timestamp value =
      .error (.fieldMismatch .point field .number got)) ∨
    ∀ wire expected, ofSlots wire expected timestamp value =
      .error (.unexpectedShape .point expected wire.shape) := by
  -- The value is looked at only after the timestamp, and the whole only after both.
  cases hm : numberSlot .point .timestamp timestamp with
  | error error =>
    obtain ⟨got, rfl⟩ := exists_of_numberSlot hm
    exact .inr (.inl ⟨.timestamp, got, fun wire expected => by rw [ofSlots, hm, error_bind]⟩)
  | ok m =>
    cases hn : numberSlot .point .value value with
    | error error =>
      obtain ⟨got, rfl⟩ := exists_of_numberSlot hn
      exact .inr (.inl ⟨.value, got, fun wire expected => by
        rw [ofSlots, hm, ok_bind, hn, error_bind]⟩)
    | ok n =>
      obtain rfl := numberSlot_eq_ok_iff.mp hm
      obtain rfl := numberSlot_eq_ok_iff.mp hn
      cases m with
      | none => cases n <;> exact .inr (.inr fun _ _ => rfl)
      | some m =>
        cases n with
        | none => exact .inr (.inr fun _ _ => rfl)
        | some n => exact .inl ⟨⟨some m, some n⟩, fun _ _ => rfl⟩

/-- Whatever is read as a point has both its numbers. -/
theorem fields_of_decode {wire : Value} {point : Point} (h : decode wire = .ok point) :
    ∃ timestamp value, point = ⟨some timestamp, some value⟩ := by
  have hslots {expected : Expected} {s t : Option Value}
      (h : ofSlots wire expected s t = .ok point) :
      ∃ timestamp value, point = ⟨some timestamp, some value⟩ := by
    obtain ⟨m, n, -, -, rfl⟩ := ofSlots_eq_ok_iff.mp h
    exact ⟨m, n, rfl⟩
  cases wire with
  | number n =>
    obtain rfl := Except.ok.inj h
    split
    · exact ⟨_, _, rfl⟩
    · exact ⟨_, _, rfl⟩
  | mapping members => exact hslots h
  | sequence items => exact hslots h
  | _ => exact nomatch h

/-- No point that is read lacks a field. -/
theorem canonicalize_of_decode {wire : Value} {point : Point} (h : decode wire = .ok point) :
    ∃ timestamp value, point = ⟨some timestamp, some value⟩ ∧
      canonicalize .point wire = .ok (pointForm timestamp value) := by
  obtain ⟨timestamp, value, rfl⟩ := fields_of_decode h
  exact ⟨timestamp, value, rfl, canonicalize_point_iff.mpr ⟨timestamp, value, h, rfl⟩⟩

theorem decode_ne_missingField (wire : Value) (type : TypeName) (field : Field) :
    decode wire ≠ .error (.missingField type field) := by
  have hslots (expected : Expected) (s t : Option Value) :
      ofSlots wire expected s t ≠ .error (.missingField type field) := by
    obtain ⟨_, h⟩ | ⟨_, _, h⟩ | h := ofSlots_cases s t <;> rw [h] <;> exact nofun
  cases wire with
  | mapping members => exact hslots _ _ _
  | sequence items => exact hslots _ _ _
  | _ => exact nofun

/-- No field of a point is ever reported missing. -/
theorem canonicalize_ne_missingField (wire : Value) (type : TypeName) (field : Field) :
    canonicalize .point wire ≠ .error (.missingField type field) := by
  intro h
  cases hd : decode wire with
  | ok point =>
    obtain ⟨_, _, -, hc⟩ := canonicalize_of_decode hd
    exact nomatch hc.symm.trans h
  | error error =>
    rw [canonicalize, Record.decode, hd, error_bind, error_bind] at h
    obtain rfl := Except.error.inj h
    exact decode_ne_missingField wire type field hd

/-- A point that is read is whole, so it is written and never lacks a field. Mappings and sequences
    are read slot by slot, and by one rule: a slot that holds no number is reported, the timestamp
    first, and then an empty one; otherwise both numbers are taken as they are. So a mapping and a
    sequence with the same slots differ only in what is reported of an empty slot. A bare number is
    always a point, and values of the other shapes never are. -/
theorem decode_outcome :
    (∀ wire point, decode wire = .ok point →
      ∃ timestamp value, point = ⟨some timestamp, some value⟩ ∧
        canonicalize .point wire = .ok (pointForm timestamp value)) ∧
    (∀ wire type field, canonicalize .point wire ≠ .error (.missingField type field)) ∧
    (∀ members, ReadFrom (.mapping members) .slotMapping (Value.slot members "timestamp")
      (Value.slot members "value")) ∧
    (∀ items, ReadFrom (.sequence items) .slotSequence (Value.slotAt items 0)
      (Value.slotAt items 1)) ∧
    (∀ members items, Value.slot members "timestamp" = Value.slotAt items 0 →
      Value.slot members "value" = Value.slotAt items 1 →
      (∃ point, decode (.mapping members) = .ok point ∧ decode (.sequence items) = .ok point) ∨
      (∃ field got, decode (.mapping members) = .error (.fieldMismatch .point field .number got) ∧
        decode (.sequence items) = .error (.fieldMismatch .point field .number got)) ∨
      decode (.mapping members) = .error (.unexpectedShape .point .slotMapping .mapping) ∧
        decode (.sequence items) = .error (.unexpectedShape .point .slotSequence .sequence)) ∧
    (∀ n, ∃ point, decode (.number n) = .ok point) ∧
    ∀ wire, (wire = .null ∨ (∃ b, wire = .bool b) ∨ ∃ text, wire = .string text) →
      decode wire = .error (.unexpectedShape .point .pointShape wire.shape) := by
  refine ⟨fun _ _ => canonicalize_of_decode, canonicalize_ne_missingField,
    fun members => readFrom_of_ofSlots rfl, fun items => readFrom_of_ofSlots rfl, ?_,
    fun n => ⟨_, rfl⟩, ?_⟩
  · intro members items ht hv
    rw [decode, decode, ht, hv]
    obtain ⟨point, h⟩ | ⟨field, got, h⟩ | h :=
      ofSlots_cases (Value.slotAt items 0) (Value.slotAt items 1)
    · exact .inl ⟨point, h _ _, h _ _⟩
    · exact .inr (.inl ⟨field, got, h _ _, h _ _⟩)
    · exact .inr (.inr ⟨h _ _, h _ _⟩)
  · rintro wire (rfl | ⟨b, rfl⟩ | ⟨text, rfl⟩) <;> rfl

/-- A value that is no number is reported before a timestamp that is missing. -/
example : decode (.sequence [.null, .bool true]) =
    .error (.fieldMismatch .point .value .number .bool) := rfl

end Point

end WireForm
