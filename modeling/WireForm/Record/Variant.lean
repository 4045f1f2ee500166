import WireForm.Json.Writer
import WireForm.Record.Data

/-!
# The tagged union

A variant is one alternative of the union: a name and a nested record. Read as a known
alternative its tag is not looked at; read as the union the tag selects the alternative.
It is written with a stamp in place of the tag.
-/

namespace WireForm

/-- One alternative of the union. Its name and its record are required for writing. -/
structure Variant where
  tag : Tag
  name : Option String
  data : Option Data
deriving DecidableEq

namespace Variant

/-- Reads the record nested in a variant, if the slot is filled. -/
def dataSlot : Option Value → Except Error (Option Data)
  | none => .ok none
  | some wire => do return some (← Data.decode wire)

/-- Reads a mapping as the given alternative. -/
def decode (tag : Tag) (wire : Value) : Except Error Variant := do
  let members ← expectMapping (.variant tag) wire
  let name ← stringSlot (.variant tag) .name (Value.slot members "name")
  let data ← dataSlot (Value.slot members "data")
  return ⟨tag, name, data⟩

/-- The canonical form. -/
def encode (variant : Variant) : Except Error Value := do
  let name ← require (.variant variant.tag) .name variant.name
  let data ← require (.variant variant.tag) .data variant.data
  let data ← data.encode
  return .mapping [(tagKey, .string variant.tag.stamp), ("name", .string name), ("data", data)]

/-- The description of the variant. -/
def describe (variant : Variant) : String :=
  (TypeName.variant variant.tag).label ++ "(name=" ++ slotText variant.name ++ ", data=" ++
    slotText (variant.data.map (·.describe)) ++ ")"

end Variant

/-! ## The union -/

/-- What stands under the tag key, if it is there and not `null`. -/
def Value.discriminator? : Value → Option Value
  | .mapping members => Value.slot members tagKey
  | _ => none

/-- The text that a discriminator is shown as: a string as it is, any other value in the
    compact form. -/
def discriminatorText : Value → String
  | .string text => text
  | other => Json.compact other

/-- The alternative that a discriminator selects. -/
def selectTag (discriminator : Option Value) : Except Error Tag :=
  match discriminator with
  | some (.string text) =>
    match Tag.ofText? text with
    | some tag => .ok tag
    | none => .error (.unknownTag (some text))
  | some other => .error (.unknownTag (some (discriminatorText other)))
  | none => .error (.unknownTag none)

/-- Reads a mapping as the alternative that its tag selects. -/
def Variant.decodeUnion (wire : Value) : Except Error Variant := do
  let members ← expectMapping .interface wire
  let tag ← selectTag (Value.slot members tagKey)
  Variant.decode tag wire

end WireForm
