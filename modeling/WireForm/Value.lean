import WireForm.Number

/-!
# Wire values

The tree that documents are read into and records are written as. A mapping is a
list of members: their order is part of the value, and a lookup takes the first
member with the key.
-/

namespace WireForm

/-- A wire value. -/
inductive Value where
  | null
  | bool (value : Bool)
  | number (value : Number)
  | string (text : String)
  | sequence (items : List Value)
  | mapping (members : List (String × Value))
deriving Inhabited

/-- The members of a mapping, in order. -/
abbrev Members := List (String × Value)

/-! ## Shapes -/

/-- The six shapes of wire values. -/
inductive Shape where
  | null | bool | number | string | sequence | mapping
deriving DecidableEq

/-- The label of a shape. -/
def Shape.label : Shape → String
  | .null => "null"
  | .bool => "bool"
  | .number => "number"
  | .string => "string"
  | .sequence => "sequence"
  | .mapping => "mapping"

namespace Value

/-- The shape of a value. -/
def shape : Value → Shape
  | .null => .null
  | .bool _ => .bool
  | .number _ => .number
  | .string _ => .string
  | .sequence _ => .sequence
  | .mapping _ => .mapping

/-- Whether the value is `null`. -/
def isNull : Value → Bool
  | .null => true
  | _ => false

/-- The keys of a mapping in order, and none for any other value. -/
def keys : Value → List String
  | .mapping members => members.map (·.1)
  | _ => []

/-! ## Slots

A slot is a place a decoder reads. `null` fills no slot. -/

/-- A value that is there and is not `null`. -/
def present (value : Option Value) : Option Value := value.filter (!·.isNull)

/-- The slot of a mapping under a key. -/
def slot (members : Members) (key : String) : Option Value := present (members.lookup key)

/-- The slot of a sequence at a place. -/
def slotAt (items : List Value) (index : Nat) : Option Value := present items[index]?

theorem present_of_not_null {v : Value} (h : v.isNull = false) : present (some v) = some v := by
  simp [present, Option.filter, h]

theorem isNull_of_present {o : Option Value} {v : Value} (h : present o = some v) :
    v.isNull = false := by
  simpa using Option.filter_eq_some_iff.1 h |>.2

/-! ## Wire equality

Sequences are compared item by item and mappings regardless of the order of their
members. -/

mutual
/-- Whether two values are equal on the wire. -/
def same : Value → Value → Bool
  | .null, .null => true
  | .bool a, .bool b => a == b
  | .number a, .number b => a.same b
  | .string a, .string b => a == b
  | .sequence a, .sequence b => sameItems a b
  | .mapping a, .mapping b => a.length == b.length && sameMembers a b
  | _, _ => false
/-- Whether two lists of items are equal on the wire, place by place. -/
def sameItems : List Value → List Value → Bool
  | [], [] => true
  | a :: as, b :: bs => a.same b && sameItems as bs
  | _, _ => false
/-- Whether every member of the first list has an equal one in the second. -/
def sameMembers : Members → Members → Bool
  | [], _ => true
  | (key, a) :: as, bs =>
    (match bs.lookup key with
      | some b => a.same b
      | none => false) && sameMembers as bs
end

/-! ## Decidable identity -/

mutual
/-- Decides whether two values are the identical tree. -/
def decEq : (a b : Value) → Decidable (a = b)
  | .null, b => by
    cases b
    case null => exact isTrue rfl
    all_goals exact isFalse nofun
  | .bool x, b => by
    cases b
    case bool y => exact decidable_of_iff (x = y) (by simp)
    all_goals exact isFalse nofun
  | .number x, b => by
    cases b
    case number y => exact decidable_of_iff (x = y) (by simp)
    all_goals exact isFalse nofun
  | .string x, b => by
    cases b
    case string y => exact decidable_of_iff (x = y) (by simp)
    all_goals exact isFalse nofun
  | .sequence xs, b => by
    cases b
    case sequence ys =>
      have := decEqItems xs ys
      exact decidable_of_iff (xs = ys) (by simp)
    all_goals exact isFalse nofun
  | .mapping xs, b => by
    cases b
    case mapping ys =>
      have := decEqMembers xs ys
      exact decidable_of_iff (xs = ys) (by simp)
    all_goals exact isFalse nofun
/-- Decides whether two lists of items are identical. -/
def decEqItems : (as bs : List Value) → Decidable (as = bs)
  | [], bs => by
    cases bs
    · exact isTrue rfl
    · exact isFalse nofun
  | a :: as, bs => by
    cases bs with
    | nil => exact isFalse nofun
    | cons b bs =>
      have := decEq a b
      have := decEqItems as bs
      exact decidable_of_iff (a = b ∧ as = bs) (by simp)
/-- Decides whether two lists of members are identical. -/
def decEqMembers : (as bs : Members) → Decidable (as = bs)
  | [], bs => by
    cases bs
    · exact isTrue rfl
    · exact isFalse nofun
  | (key, a) :: as, bs => by
    cases bs with
    | nil => exact isFalse nofun
    | cons b bs =>
      obtain ⟨key', b⟩ := b
      have := decEq a b
      have := decEqMembers as bs
      exact decidable_of_iff (key = key' ∧ a = b ∧ as = bs) (by simp [and_assoc])
end

instance : DecidableEq Value := decEq

end Value

end WireForm
