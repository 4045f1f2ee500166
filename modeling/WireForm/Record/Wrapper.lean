import WireForm.Json.Writer
import WireForm.Record.Slots

/-!
# Wrappers

A wrapper holds any value. It is written as a mapping with the value under `data`, and read
from such a mapping or from a bare string, which is then the value.
-/

namespace WireForm

/-- A wrapped value. The value is required for writing. -/
structure Wrapper where
  data : Option Value
deriving DecidableEq

namespace Wrapper

/-- Reads a wrapper. Members other than the value are ignored. -/
def decode (wire : Value) : Except Error Wrapper :=
  match wire with
  | .string text => .ok ⟨some (.string text)⟩
  | .mapping members => .ok ⟨Value.slot members "data"⟩
  | other => .error (.unexpectedShape .wrapper .stringOrMapping other.shape)

/-- The canonical form. -/
def encode (wrapper : Wrapper) : Except Error Value := do
  let data ← require .wrapper .data wrapper.data
  return .mapping [("data", data)]

/-- The description of the wrapper. -/
def describe (wrapper : Wrapper) : String :=
  "Type(data=" ++ slotText (wrapper.data.map Json.compact) ++ ")"

/-- Equality of wrappers, by wire equality of their values. -/
def same (a b : Wrapper) : Bool :=
  match a.data, b.data with
  | none, none => true
  | some x, some y => x.same y
  | _, _ => false

end Wrapper

end WireForm
