import WireForm.Proofs.Record.Admitted
import WireForm.Proofs.Value.Condensed

/-!
# Records and repeated keys

Decoders look into a mapping by its keys alone, so of a key that was written more than once they
read the last value. Encoders write each key once: a canonical form has distinct keys at every
depth if the value has that a wrapper puts into it, and a chain of kinds never leaves such values.
-/

namespace WireForm

open Value (lastValue?)

/-! ## What is read of repeated keys -/

/-- What fills the slot of a key when members are condensed: the last value under the key, unless
    that is `null`. -/
def lastSlot (members : Members) (key : String) : Option Value :=
  Value.present ((lastValue? members key).map Value.condensed)

/-- That a value is read by the last value under each key of the members that it was written
    with: its own keys and values, the discriminator, and each field of each decoder. -/
structure ReadsLast (members : Members) (wire : Value) : Prop where
  mapping : ∃ kept, wire = .mapping kept ∧ kept.map (·.1) = (members.map (·.1)).eraseDups ∧
    ∀ key, kept.lookup key = (lastValue? members key).map Value.condensed
  discriminator : wire.discriminator? = lastSlot members tagKey
  data : Data.decode wire = do
    let name ← stringSlot .data .name (lastSlot members "name")
    return ⟨name⟩
  point : Point.decode wire =
    Point.ofSlots wire .slotMapping (lastSlot members "timestamp") (lastSlot members "value")
  variant : ∀ tag, Variant.decode tag wire = do
    let name ← stringSlot (.variant tag) .name (lastSlot members "name")
    let data ← Variant.dataSlot (lastSlot members "data")
    return ⟨tag, name, data⟩
  union : Variant.decodeUnion wire = do
    let tag ← selectTag (lastSlot members tagKey)
    Variant.decode tag wire
  wrapper : Wrapper.decode wire = .ok ⟨lastSlot members "data"⟩

section Members

variable (members : Members)

theorem lookup_condensed (key : String) :
    (Value.keepLast (Value.condensedMembers members)).lookup key =
      (lastValue? members key).map Value.condensed := by
  rw [Value.lookup_keepLast, Value.condensedMembers_eq_map, Value.lastValue?_map]

theorem slot_condensed (key : String) :
    Value.slot (Value.keepLast (Value.condensedMembers members)) key = lastSlot members key := by
  rw [Value.slot, lookup_condensed, lastSlot]

/-- However its members repeat their keys, a mapping is read by the last value under each. -/
theorem readsLast_condensed : ReadsLast members (Value.mapping members).condensed := by
  have hslot := slot_condensed members
  rw [Value.condensed]
  constructor
  case mapping =>
    refine ⟨_, rfl, ?_, lookup_condensed members⟩
    rw [Value.keys_keepLast, Value.condensedMembers_eq_map, List.map_map]
    rfl
  case discriminator => exact hslot tagKey
  case data =>
    rw [← hslot]
    rfl
  case point =>
    rw [← hslot, ← hslot]
    rfl
  case variant =>
    intro tag
    rw [← hslot, ← hslot]
    rfl
  case union =>
    rw [← hslot]
    rfl
  case wrapper =>
    rw [← hslot]
    rfl

end Members

/-! ## What is written -/

/-- The value that a wrapper puts into its canonical form. -/
def Record.payload? : Record → Option Value
  | .wrapper record => record.data
  | _ => none

theorem distinctKeys_variantForm (tag : Tag) (name inner : String) :
    (variantForm tag name inner).DistinctKeys :=
  (admitted_variantForm 0 tag name inner).2

theorem distinctKeys_wrapperForm {payload : Value} (h : payload.DistinctKeys) :
    (wrapperForm payload).DistinctKeys :=
  (admitted_wrapperForm ⟨Nat.le_refl payload.depth, h⟩).2

/-- Encoders make no key stand twice. -/
theorem distinctKeys_encode {record : Record} {form : Value}
    (hp : ∀ payload, record.payload? = some payload → payload.DistinctKeys)
    (h : record.encode = .ok form) : form.DistinctKeys := by
  cases record with
  | data record =>
    obtain ⟨name, -, rfl⟩ := Data.encode_eq_ok_iff.mp h
    exact (admitted_dataForm 0 name).2
  | point record =>
    obtain ⟨timestamp, value, -, rfl⟩ := Point.encode_eq_ok_iff.mp h
    exact (admitted_pointForm 0 timestamp value).2
  | variant record =>
    obtain ⟨name, inner, -, rfl⟩ := Variant.encode_eq_ok_iff.mp h
    exact distinctKeys_variantForm record.tag name inner
  | interface held =>
    obtain ⟨name, inner, -, rfl⟩ := Variant.encode_eq_ok_iff.mp h
    exact distinctKeys_variantForm held.tag name inner
  | wrapper record =>
    obtain ⟨payload, rfl, rfl⟩ := Wrapper.encode_eq_ok_iff.mp h
    exact distinctKeys_wrapperForm (hp payload rfl)

/-! ## Chains -/

section Chains

variable {wire form : Value}

/-- Canonicalization makes no key stand twice. -/
theorem distinctKeys_canonicalize {kind : Kind} (hk : wire.DistinctKeys)
    (h : canonicalize kind wire = .ok form) : form.DistinctKeys :=
  (admitted_canonicalize ⟨Nat.le_add_right wire.depth 2, hk⟩ h).2

theorem distinctKeys_canonicalStep (kind : Kind) (hk : wire.DistinctKeys) :
    (canonicalStep wire kind).DistinctKeys := by
  unfold canonicalStep
  split
  · next hc => exact distinctKeys_canonicalize hk hc
  · exact hk

/-- The value after a chain has distinct keys if the value before it has. -/
theorem distinctKeys_canonicalChain (kinds : List Kind) (hk : wire.DistinctKeys) :
    (canonicalChain wire kinds).DistinctKeys := by
  induction kinds generalizing wire with
  | nil => exact hk
  | cons kind kinds ih => exact ih (distinctKeys_canonicalStep kind hk)

/-- Every step of a chain that succeeds gives a value with distinct keys. -/
theorem distinctKeys_chainByName {names : List String} (hk : wire.DistinctKeys)
    (h : .ok form ∈ chainByName wire names) : form.DistinctKeys := by
  induction names generalizing wire with
  | nil => exact nomatch h
  | cons name names ih =>
    have hresult (next : Value) (hstep : (do canonicalize (← Kind.parse name) wire) = .ok next) :
        next.DistinctKeys := by
      obtain ⟨kind, -, hc⟩ := bind_eq_ok_iff.mp hstep
      exact distinctKeys_canonicalize hk hc
    rw [chainByName] at h
    obtain h | h := List.mem_cons.mp h
    · exact hresult form h.symm
    · refine ih ?_ h
      split
      · next hstep => exact hresult _ hstep
      · exact hk

end Chains

end WireForm
