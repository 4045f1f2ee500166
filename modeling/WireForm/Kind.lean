import WireForm.Error

/-!
# Kinds

The names under which a reader can be asked for.
-/

namespace WireForm

/-- What a value can be read as. -/
inductive Kind where
  | data
  | point
  | variant (tag : Tag)
  | interface
  | wrapper
deriving DecidableEq

namespace Kind

/-- Every kind, in the order in which they are listed. -/
def all : List Kind := [.data, .point, .variant .one, .variant .two, .interface, .wrapper]

/-- The name of a kind. -/
def label : Kind → String
  | .data => "data"
  | .point => "point"
  | .variant tag => tag.text
  | .interface => "interface"
  | .wrapper => "type"

/-- The kind with a name. -/
def parse (name : String) : Except Error Kind :=
  match all.find? (·.label == name) with
  | some kind => .ok kind
  | none => .error (.unknownKind name)

end Kind

end WireForm
