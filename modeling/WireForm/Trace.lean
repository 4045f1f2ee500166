import WireForm.Document
import WireForm.Record
import WireForm.Text.Quoted

/-!
# Traces

The decisions that loading and decoding take, in order, as one line each.
-/

namespace WireForm

/-! ## The text of a value in a trace -/

mutual
/-- A value with the shape of each part spelled out. -/
def Value.traceText : Value → String
  | .null => "Null"
  | .bool value => "Bool(" ++ (if value then "true" else "false") ++ ")"
  | .number n => "Number(" ++ String.ofList n.text ++ ")"
  | .string text => "String(" ++ Text.quoted text ++ ")"
  | .sequence items => "Array [" ++ ", ".intercalate (traceItems items) ++ "]"
  | .mapping members => "Object \x7b" ++ ", ".intercalate (traceMembers members) ++ "\x7d"
/-- The texts of items. -/
def Value.traceItems : List Value → List String
  | [] => []
  | item :: rest => item.traceText :: traceItems rest
/-- The texts of members. -/
def Value.traceMembers : Members → List String
  | [] => []
  | (key, value) :: rest => (Text.quoted key ++ ": " ++ value.traceText) :: traceMembers rest
end

/-! ## Events -/

/-- A decision. -/
inductive TraceEvent where
  /-- A file is about to be read. -/
  | opening (path : String)
  /-- A document was read to its end. -/
  | parsed (compression : Compression) (len : Nat)
  /-- A value is about to be read as a kind. -/
  | decoding (kind : Kind)
  /-- A point is read from this form. -/
  | pointForm (branch : Point.Branch)
  /-- A union is read by this discriminator. -/
  | discriminator (value : Option Value)
deriving DecidableEq

/-- The line of an event. -/
def TraceEvent.text : TraceEvent → String
  | .opening path => "DEBUG open wire document path=" ++ path
  | .parsed compression len =>
    "DEBUG parsed wire document compression=" ++ compression.label ++ " len=" ++ toString len
  | .decoding kind => "DEBUG decode kind=" ++ kind.label
  | .pointForm branch => "TRACE point decode branch=" ++ branch.label
  | .discriminator none => "DEBUG interface decode discriminator=None"
  | .discriminator (some value) =>
    "DEBUG interface decode discriminator=Some(" ++ value.traceText ++ ")"

/-- The events of loading a document. -/
def loadTrace : Except Error Document → List TraceEvent
  | .ok document => [.parsed document.compression document.len]
  | .error _ => []

/-- The events of reading a value as a kind. -/
def decodeTrace (kind : Kind) (wire : Value) : List TraceEvent :=
  .decoding kind ::
    match kind, wire with
    | .point, wire => ((Point.branch? wire).map .pointForm).toList
    | .interface, .mapping members => [.discriminator (Value.slot members tagKey)]
    | _, _ => []

end WireForm
