import WireForm.Kind
import WireForm.Record.Point
import WireForm.Record.Variant
import WireForm.Record.Wrapper

/-!
# Records of every kind

A record is what a value is read as under a kind. Reading and writing again brings a value
into the canonical form of the kind.
-/

namespace WireForm

/-- A record of one of the kinds. A union is kept apart from the variant it holds. -/
inductive Record where
  | data (record : Data)
  | point (record : Point)
  | variant (record : Variant)
  | interface (held : Variant)
  | wrapper (record : Wrapper)
deriving DecidableEq

namespace Record

/-- The kind of a record. -/
def kind : Record → Kind
  | .data _ => .data
  | .point _ => .point
  | .variant record => .variant record.tag
  | .interface _ => .interface
  | .wrapper _ => .wrapper

/-- Reads a value as a kind. -/
def decode (kind : Kind) (wire : Value) : Except Error Record :=
  match kind with
  | .data => do return .data (← Data.decode wire)
  | .point => do return .point (← Point.decode wire)
  | .variant tag => do return .variant (← Variant.decode tag wire)
  | .interface => do return .interface (← Variant.decodeUnion wire)
  | .wrapper => do return .wrapper (← Wrapper.decode wire)

/-- The canonical form. A union is written as the variant it holds. -/
def encode : Record → Except Error Value
  | .data record => record.encode
  | .point record => record.encode
  | .variant record => record.encode
  | .interface held => held.encode
  | .wrapper record => record.encode

/-- The description of a record. -/
def describe : Record → String
  | .data record => record.describe
  | .point record => record.describe
  | .variant record => record.describe
  | .interface held => held.describe
  | .wrapper record => record.describe

/-- Equality of records, by the values of the numbers in them. -/
def same : Record → Record → Bool
  | .data a, .data b => a == b
  | .point a, .point b => a.same b
  | .variant a, .variant b => a == b
  | .interface a, .interface b => a == b
  | .wrapper a, .wrapper b => a.same b
  | _, _ => false

end Record

/-! ## Canonical forms -/

/-- Reads a value as a kind and writes it again. -/
def canonicalize (kind : Kind) (wire : Value) : Except Error Value := do
  (← Record.decode kind wire).encode

/-- One step of a chain: the canonical form if there is one, else the value as it was. -/
def canonicalStep (wire : Value) (kind : Kind) : Value :=
  match canonicalize kind wire with
  | .ok next => next
  | .error _ => wire

/-- The value after a chain of kinds. -/
def canonicalChain (wire : Value) (kinds : List Kind) : Value := kinds.foldl canonicalStep wire

/-- What each step of a chain of named kinds gives. A name of no kind is a failed step. -/
def chainByName (wire : Value) : List String → List (Except Error Value)
  | [] => []
  | name :: names =>
    let result := do canonicalize (← Kind.parse name) wire
    let next :=
      match result with
      | .ok next => next
      | .error _ => wire
    result :: chainByName next names

end WireForm
