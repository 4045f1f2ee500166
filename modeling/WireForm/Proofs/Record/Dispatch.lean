import WireForm.Proofs.Json.Layout
import WireForm.Proofs.Json.NumberText
import WireForm.Proofs.Record.Grammar

/-!
# Which alternative a union is read as

The discriminator of a mapping is looked at before any of its fields. The text of a tag makes the
union the variant with that tag, faults included; any other discriminator is reported as it is
shown, and what is shown of one that is no string is never the text of a tag.
-/

namespace WireForm

section Union

variable {wire : Value} {members : Members} {tag : Tag}

/-- What stands under a key and is a string fills the slot. -/
theorem Value.slot_of_lookup {key text : String} (h : members.lookup key = some (.string text)) :
    slot members key = some (.string text) := by
  rw [slot, h, present_string]

theorem Value.lookup_of_slot {key : String} {value : Value} (h : slot members key = some value) :
    members.lookup key = some value :=
  (Option.filter_eq_some_iff.mp h).1

/-- Only mappings are unions. -/
theorem Variant.decodeUnion_of_not_mapping (h : ∀ members, wire ≠ .mapping members) :
    decodeUnion wire = .error (.unexpectedShape .interface .mapping wire.shape) := by
  cases wire with
  | mapping members => exact absurd rfl (h members)
  | _ => rfl

/-- The text of a tag makes the union the variant with that tag, whether it is read or not. -/
theorem Variant.decodeUnion_of_tag (h : Value.slot members tagKey = some (.string tag.text)) :
    decodeUnion (.mapping members) = decode tag (.mapping members) := by
  simp only [decodeUnion, expectMapping, ok_bind, selectTag_eq_ok_iff.mpr h]

/-- Any other discriminator is reported as it is shown. -/
theorem selectTag_of_ne {discriminator : Option Value}
    (h : ∀ tag : Tag, discriminator ≠ some (.string tag.text)) :
    selectTag discriminator = .error (.unknownTag (discriminator.map discriminatorText)) := by
  cases hs : selectTag discriminator with
  | ok tag => exact absurd (selectTag_eq_ok_iff.mp hs) (h tag)
  | error error =>
    cases discriminator with
    | none => exact hs.symm
    | some value =>
      cases value with
      | string text =>
        have ht : Tag.ofText? text = none :=
          Option.eq_none_iff_forall_ne_some.mpr fun tag ho =>
            h tag (by rw [Tag.ofText?_eq_some_iff.mp ho])
        rw [← hs, selectTag, ht]
        rfl
      | _ => exact hs.symm

/-- The discriminator is reported before any field of the mapping is looked at. -/
theorem Variant.decodeUnion_of_ne
    (h : ∀ tag : Tag, Value.slot members tagKey ≠ some (.string tag.text)) :
    decodeUnion (.mapping members) =
      .error (.unknownTag ((Value.slot members tagKey).map discriminatorText)) := by
  simp only [decodeUnion, expectMapping, ok_bind, selectTag_of_ne h, error_bind]

/-! ### Under a kind -/

theorem Record.decode_interface (wire : Value) :
    decode .interface wire = (Variant.decodeUnion wire).map .interface := by
  rw [decode]
  cases Variant.decodeUnion wire <;> rfl

theorem Record.decode_variant (tag : Tag) (wire : Value) :
    decode (.variant tag) wire = (Variant.decode tag wire).map .variant := by
  rw [decode]
  cases Variant.decode tag wire <;> rfl

/-- The union with a tag is written as the variant with it is, or fails as that does. -/
theorem canonicalize_interface_of_tag
    (h : Value.slot members tagKey = some (.string tag.text)) :
    canonicalize .interface (.mapping members) = canonicalize (.variant tag) (.mapping members) := by
  rw [canonicalize, canonicalize, Record.decode_interface, Record.decode_variant,
    Variant.decodeUnion_of_tag h]
  cases Variant.decode tag (.mapping members) <;> rfl

end Union

/-! ## Discriminators that are no strings -/

/-- The compact form of a value that is no string is not the text of a tag. -/
theorem compact_ne_tagText {value : Value} (h : ∀ text, value ≠ .string text) (tag : Tag) :
    Json.compact value ≠ tag.text := by
  intro he
  have hchars : Json.compactChars value = tag.text.toList := by
    rw [← he, Json.toList_compact]
  cases value with
  | null => cases tag <;> exact absurd hchars (by decide)
  | bool b => cases b <;> cases tag <;> exact absurd hchars (by decide)
  | number n =>
    -- Both texts have an `o` in them, which no number has.
    have htext : n.text = tag.text.toList := hchars
    have hmem : 'o' ∈ n.text := by
      rw [htext]
      cases tag <;> decide
    exact absurd (Json.numeric_text n 'o' hmem) (by decide)
  | string text => exact h text rfl
  | sequence items =>
    -- A bracket or a brace begins no tag.
    have hhead : some '[' = tag.text.toList.head? := congrArg List.head? hchars
    cases tag <;> exact absurd hhead (by decide)
  | mapping members =>
    have hhead : some '\x7b' = tag.text.toList.head? := congrArg List.head? hchars
    cases tag <;> exact absurd hhead (by decide)

theorem discriminatorText_ne_tagText {value : Value} (h : ∀ text, value ≠ .string text)
    (tag : Tag) : discriminatorText value ≠ tag.text := by
  cases value with
  | string text => exact absurd rfl (h text)
  | _ => exact compact_ne_tagText h tag

end WireForm
