/-!
# The alternatives of the tagged union

The union has two alternatives of one shape. Each has a tag that selects it on reading and
another text that is stamped on writing.
-/

namespace WireForm

/-- The alternatives of the union. -/
inductive Tag where
  | one | two
deriving DecidableEq

namespace Tag

/-- The text that selects the alternative on reading. -/
def text : Tag → String
  | .one => "one"
  | .two => "two"

/-- The text stamped on writing. -/
def stamp : Tag → String
  | .one => "One"
  | .two => "Two"

/-- The alternative selected by a text. -/
def ofText? (text : String) : Option Tag :=
  if text = "one" then some .one
  else if text = "two" then some .two
  else none

@[simp] theorem ofText?_text (tag : Tag) : ofText? tag.text = some tag := by cases tag <;> rfl

theorem ofText?_eq_some_iff {text : String} {tag : Tag} :
    ofText? text = some tag ↔ text = tag.text := by
  constructor
  · intro h
    unfold ofText? at h
    split at h
    · next h' => obtain rfl := Option.some.inj h; exact h'
    · split at h
      · next h' => obtain rfl := Option.some.inj h; exact h'
      · exact nomatch h
  · rintro rfl
    exact ofText?_text tag

/-- What is stamped on writing selects nothing on reading. -/
@[simp] theorem ofText?_stamp (tag : Tag) : ofText? tag.stamp = none := by cases tag <;> rfl

end Tag

/-- The key that holds the tag of a union. -/
def tagKey : String := "type"

end WireForm
