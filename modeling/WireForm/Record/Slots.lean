import WireForm.Error

/-!
# Reading and requiring slots

The steps that all decoders and encoders are made of. A slot that is absent or `null` is
no fault of a decoder; a field that is not there is one of an encoder.
-/

namespace WireForm

/-- The members of a mapping, for the decoder of `type`. -/
def expectMapping (type : TypeName) : Value → Except Error Members
  | .mapping members => .ok members
  | other => .error (.unexpectedShape type .mapping other.shape)

/-- The string in a slot, if the slot is filled. -/
def stringSlot (type : TypeName) (field : Field) : Option Value → Except Error (Option String)
  | none => .ok none
  | some (.string text) => .ok (some text)
  | some other => .error (.fieldMismatch type field .string other.shape)

/-- The number in a slot, if the slot is filled. -/
def numberSlot (type : TypeName) (field : Field) : Option Value → Except Error (Option Number)
  | none => .ok none
  | some (.number n) => .ok (some n)
  | some other => .error (.fieldMismatch type field .number other.shape)

/-- The value of a field that an encoder needs. -/
def require {α : Type} (type : TypeName) (field : Field) : Option α → Except Error α
  | some value => .ok value
  | none => .error (.missingField type field)

/-- The text of a field in a record's description. -/
def slotText : Option String → String
  | some text => text
  | none => "null"

end WireForm
