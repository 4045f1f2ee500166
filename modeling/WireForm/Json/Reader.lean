import WireForm.Json.NumberReader
import WireForm.Json.StringReader
import WireForm.Value

/-!
# Reading values

A value is read by looking at one byte. Lists and objects may be nested 127 deep. A
repeated key keeps the place of its first appearance and the value of its last.
-/

namespace WireForm.Json

/-- How deep lists and objects may be nested. -/
def maxDepth : Nat := 127

/-- Puts a member under its key: in place if the key is there, else at the end. -/
def putMember (key : String) (value : Value) : Members → Members
  | [] => [(key, value)]
  | (k, v) :: rest =>
    if k = key then (key, value) :: rest else (k, v) :: putMember key value rest

/-- Reads the items of a list from the first on, up to the closing bracket. `read` holds
    the items before, last first. The first list bounds the steps: it loses a byte at each,
    and the text loses at least one. -/
def readItems (item : List UInt8 → Except Stop (After Value)) :
    List UInt8 → List Value → List UInt8 → Except Stop (After (List Value))
  | [], _, text => Stop.peek .endInList text
  | _ :: steps, read, text => do
    let (value, rest) ← item text
    match skipBlanks rest with
    | [] => Stop.peek .endInList []
    | 0x5D :: rest => .ok ((value :: read).reverse, rest)
    | 0x2C :: rest =>
      match skipBlanks rest with
      | [] => Stop.peek .endInValue []
      | 0x5D :: rest => Stop.peek .trailingComma (0x5D :: rest)
      | rest => readItems item steps (value :: read) rest
    | rest => Stop.peek .expectedCommaOrListEnd rest

/-- Reads a list after its opening bracket. -/
def readList (item : List UInt8 → Except Stop (After Value)) (text : List UInt8) :
    Except Stop (After Value) :=
  match skipBlanks text with
  | [] => Stop.peek .endInList []
  | 0x5D :: rest => .ok (.sequence [], rest)
  | rest => do
    let (items, rest) ← readItems item rest [] rest
    .ok (.sequence items, rest)

/-- Reads the colon after a key and the value after that. -/
def readMemberValue (item : List UInt8 → Except Stop (After Value)) (text : List UInt8) :
    Except Stop (After Value) :=
  match skipBlanks text with
  | [] => Stop.peek .endInObject []
  | 0x3A :: rest => item rest
  | rest => Stop.peek .expectedColon rest

/-- Reads the members of an object from the opening quote of a key on, up to the closing
    brace. `read` holds the members before, and the first list bounds the steps. -/
def readMembers (item : List UInt8 → Except Stop (After Value)) :
    List UInt8 → Members → List UInt8 → Except Stop (After Members)
  | [], _, text => Stop.peek .endInObject text
  | _ :: steps, read, text => do
    let (key, rest) ← readString text.tail
    let (value, rest) ← readMemberValue item rest
    let read := putMember key value read
    match skipBlanks rest with
    | [] => Stop.peek .endInObject []
    | 0x7D :: rest => .ok (read, rest)
    | 0x2C :: rest =>
      match skipBlanks rest with
      | [] => Stop.peek .endInValue []
      | 0x22 :: rest => readMembers item steps read (0x22 :: rest)
      | 0x7D :: rest => Stop.peek .trailingComma (0x7D :: rest)
      | rest => Stop.peek .keyNotString rest
    | rest => Stop.peek .expectedCommaOrObjectEnd rest

/-- Reads an object after its opening brace. -/
def readObject (item : List UInt8 → Except Stop (After Value)) (text : List UInt8) :
    Except Stop (After Value) :=
  match skipBlanks text with
  | [] => Stop.peek .endInObject []
  | 0x7D :: rest => .ok (.mapping [], rest)
  | 0x22 :: rest => do
    let (members, rest) ← readMembers item (0x22 :: rest) [] (0x22 :: rest)
    .ok (.mapping members, rest)
  | rest => Stop.peek .keyNotString rest

/-- Reads a value that is neither a list nor an object, from its first byte on. -/
def readScalar (text : List UInt8) : Except Stop (After Value) :=
  match text with
  | [] => Stop.peek .endInValue []
  | 0x6E :: rest => do
    let (_, rest) ← readWord [0x75, 0x6C, 0x6C] rest
    .ok (.null, rest)
  | 0x74 :: rest => do
    let (_, rest) ← readWord [0x72, 0x75, 0x65] rest
    .ok (.bool true, rest)
  | 0x66 :: rest => do
    let (_, rest) ← readWord [0x61, 0x6C, 0x73, 0x65] rest
    .ok (.bool false, rest)
  | 0x22 :: rest => do
    let (string, rest) ← readString rest
    .ok (.string string, rest)
  | b :: rest =>
    if b = 0x2D ∨ (digit? b).isSome then do
      let (number, rest) ← readNumber (b :: rest)
      .ok (.number number, rest)
    else Stop.peek .expectedValue (b :: rest)

/-- Reads a value with blanks before it, in which lists and objects may still be nested
    `depth` deep. -/
def readValue : Nat → List UInt8 → Except Stop (After Value)
  | depth, text =>
    match skipBlanks text with
    | 0x5B :: rest =>
      match depth with
      | 0 => Stop.peek .recursionLimit (0x5B :: rest)
      | depth + 1 => readList (readValue depth) rest
    | 0x7B :: rest =>
      match depth with
      | 0 => Stop.peek .recursionLimit (0x7B :: rest)
      | depth + 1 => readObject (readValue depth) rest
    | rest => readScalar rest

/-- Reads a text that holds one value and nothing else but blanks. -/
def readDocument (text : List UInt8) : Except Stop Value := do
  let (value, rest) ← readValue maxDepth text
  match skipBlanks rest with
  | [] => .ok value
  | rest => Stop.peek .trailingCharacters rest

/-- The value of a JSON text. -/
def read (text : List UInt8) : Except Fault Value :=
  (readDocument text).mapError (·.fault text)

end WireForm.Json
