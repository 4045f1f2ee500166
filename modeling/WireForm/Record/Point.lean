import WireForm.Record.Slots

/-!
# Points

A sample with a timestamp, written as a sequence of two numbers. It is read from a bare
number, from a mapping or from a sequence. A bare number is a timestamp alone, except 42,
which stands for one fixed point.
-/

namespace WireForm

/-- A sample. Both numbers are required for writing. -/
structure Point where
  timestamp : Option Number
  value : Option Number
deriving DecidableEq

namespace Point

/-- The number 42.0. -/
def fortyTwo : Binary64 := ⟨false, 0x4045000000000000, by decide⟩

/-- The number nearest to 41.2. -/
def fortyOnePointTwo : Binary64 := ⟨false, 0x404499999999999A, by decide⟩

/-- The point that a bare 42 stands for. -/
def sentinel : Point := ⟨some (.ofNat 42), some (.float fortyOnePointTwo)⟩

/-- The point of any other bare number. -/
def ofBare (timestamp : Number) : Point := ⟨some timestamp, some (.ofNat 42)⟩

/-- Whether a number is 42, in either form. -/
def isSentinel (n : Number) : Bool := (n.toBinary64?.map (·.same fortyTwo)).getD false

/-- The forms a point is read from. -/
inductive Branch where
  | sentinel | bareNumber | mapping | sequence
deriving DecidableEq

/-- The label of a form. -/
def Branch.label : Branch → String
  | .sentinel => "sentinel"
  | .bareNumber => "bare_number"
  | .mapping => "mapping"
  | .sequence => "sequence"

/-- The form that a value has, if it is one a point is read from. -/
def branch? : Value → Option Branch
  | .number n => some (if isSentinel n then .sentinel else .bareNumber)
  | .mapping _ => some .mapping
  | .sequence _ => some .sequence
  | _ => none

/-- The point of two slots. A slot of the wrong shape is reported before an empty one. -/
def ofSlots (wire : Value) (expected : Expected) (timestamp value : Option Value) :
    Except Error Point := do
  let timestamp ← numberSlot .point .timestamp timestamp
  let value ← numberSlot .point .value value
  match timestamp, value with
  | some timestamp, some value => return ⟨some timestamp, some value⟩
  | _, _ => .error (.unexpectedShape .point expected wire.shape)

/-- Reads a point. Members other than the two slots and items after the second are
    ignored. -/
def decode (wire : Value) : Except Error Point :=
  match wire with
  | .number n => .ok (if isSentinel n then sentinel else ofBare n)
  | .mapping members =>
    ofSlots wire .slotMapping (Value.slot members "timestamp") (Value.slot members "value")
  | .sequence items => ofSlots wire .slotSequence (Value.slotAt items 0) (Value.slotAt items 1)
  | other => .error (.unexpectedShape .point .pointShape other.shape)

/-- The canonical form. -/
def encode (point : Point) : Except Error Value := do
  let timestamp ← require .point .timestamp point.timestamp
  let value ← require .point .value point.value
  return .sequence [.number timestamp, .number value]

/-- The description of the point. -/
def describe (point : Point) : String :=
  let text (slot : Option Number) := slotText (slot.map fun n => String.ofList n.text)
  "Point(timestamp=" ++ text point.timestamp ++ ", value=" ++ text point.value ++ ")"

/-- Equality of slots that may be empty. -/
def sameSlot : Option Number → Option Number → Bool
  | none, none => true
  | some m, some n => m.same n
  | _, _ => false

/-- Equality of points, by the values of their numbers. -/
def same (p q : Point) : Bool :=
  sameSlot p.timestamp q.timestamp && sameSlot p.value q.value

end Point

end WireForm
