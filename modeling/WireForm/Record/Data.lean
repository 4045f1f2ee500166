import WireForm.Record.Slots

/-!
# Data records

A record with a name, written as a mapping with that one member.
-/

namespace WireForm

/-- A named record. Its name is required for writing. -/
structure Data where
  name : Option String
deriving DecidableEq

namespace Data

/-- Reads a mapping; members other than the name are ignored. -/
def decode (wire : Value) : Except Error Data := do
  let members ← expectMapping .data wire
  let name ← stringSlot .data .name (Value.slot members "name")
  return ⟨name⟩

/-- The canonical form. -/
def encode (record : Data) : Except Error Value := do
  let name ← require .data .name record.name
  return .mapping [("name", .string name)]

/-- The description of the record. -/
def describe (record : Data) : String := "Data(name=" ++ slotText record.name ++ ")"

end Data

end WireForm
