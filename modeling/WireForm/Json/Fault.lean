/-!
# What can be wrong with a JSON text

A fault names the problem and the place it was noticed at. Lines count from 1 and
columns count the bytes since the last newline.
-/

namespace WireForm.Json

/-- What is wrong with a text. -/
inductive Problem where
  | endInValue
  | endInList
  | endInObject
  | endInString
  | expectedValue
  | expectedIdent
  | invalidNumber
  | numberOutOfRange
  | expectedCommaOrListEnd
  | expectedCommaOrObjectEnd
  | expectedColon
  | trailingComma
  | keyNotString
  | trailingCharacters
  | controlCharacter
  | invalidEscape
  | loneSurrogate
  | unpairedEscape
  | invalidCodePoint
  | recursionLimit
deriving DecidableEq

/-- The wording of a problem. -/
def Problem.text : Problem → String
  | .endInValue => "EOF while parsing a value"
  | .endInList => "EOF while parsing a list"
  | .endInObject => "EOF while parsing an object"
  | .endInString => "EOF while parsing a string"
  | .expectedValue => "expected value"
  | .expectedIdent => "expected ident"
  | .invalidNumber => "invalid number"
  | .numberOutOfRange => "number out of range"
  | .expectedCommaOrListEnd => "expected `,` or `]`"
  | .expectedCommaOrObjectEnd => "expected `,` or `\x7d`"
  | .expectedColon => "expected `:`"
  | .trailingComma => "trailing comma"
  | .keyNotString => "key must be a string"
  | .trailingCharacters => "trailing characters"
  | .controlCharacter => "control character (\\u0000-\\u001F) found while parsing a string"
  | .invalidEscape => "invalid escape"
  | .loneSurrogate => "lone leading surrogate in hex escape"
  | .unpairedEscape => "unexpected end of hex escape"
  | .invalidCodePoint => "invalid unicode code point"
  | .recursionLimit => "recursion limit exceeded"

/-- A place in a text. -/
structure Position where
  line : Nat
  column : Nat
deriving DecidableEq

/-- The place after a beginning of a text. -/
def Position.after (beginning : List UInt8) : Position :=
  beginning.foldl
    (fun p b => if b = 0x0A then ⟨p.line + 1, 0⟩ else ⟨p.line, p.column + 1⟩) ⟨1, 0⟩

/-- A problem and the place it was noticed at. -/
structure Fault where
  problem : Problem
  position : Position
deriving DecidableEq

/-- The wording of a fault. -/
def Fault.message (fault : Fault) : String :=
  fault.problem.text ++ " at line " ++ toString fault.position.line ++ " column " ++
    toString fault.position.column

end WireForm.Json
