import WireForm.Command.Arguments
import WireForm.Record

/-!
# Reports

What a command prints: a few lines of text, or one JSON mapping with the same fields.
-/

namespace WireForm.Command

/-- How a document is stored. -/
structure Info where
  path : String
  compression : Compression
  len : Nat
  len_lt : len < 0x10000000000000000
  shape : Shape
  keys : List String
  discriminator : Option String

namespace Info

/-- The information about a document that came from a path. -/
def ofDocument (path : String) (document : Document) : Info :=
  { path
    compression := document.compression
    len := document.len
    len_lt := document.len_lt
    shape := document.root.shape
    keys := document.root.keys
    discriminator := document.discriminatorLabel? }

/-- The lines of text. Keys and discriminator have a line if there are any. -/
def lines (info : Info) : List String :=
  ["path: " ++ info.path, "compression: " ++ info.compression.label,
    "len: " ++ toString info.len, "shape: " ++ info.shape.label] ++
  (if info.keys = [] then [] else ["keys: " ++ ", ".intercalate info.keys]) ++
  (info.discriminator.map ("discriminator: " ++ ·)).toList

/-- The JSON form. -/
def toValue (info : Info) : Value :=
  .mapping ([("path", .string info.path), ("compression", .string info.compression.label),
    ("len", .number (.ofNat info.len info.len_lt)), ("shape", .string info.shape.label),
    ("keys", .sequence (info.keys.map .string))] ++
    (info.discriminator.map fun label => ("discriminator", .string label)).toList)

end Info

/-- A record read from a document, and its canonical form. -/
structure Decoded where
  path : String
  kind : Kind
  compression : Compression
  description : String
  canonical : Value
deriving DecidableEq

namespace Decoded

/-- Reads the root of a document that came from a path as a kind. -/
def ofDocument (path : String) (kind : Kind) (document : Document) : Except Error Decoded := do
  let record ← Record.decode kind document.root
  let canonical ← record.encode
  return ⟨path, kind, document.compression, record.describe, canonical⟩

/-- The lines of text. The canonical form is the last. -/
def lines (decoded : Decoded) : List String :=
  ["path: " ++ decoded.path, "kind: " ++ decoded.kind.label,
    "compression: " ++ decoded.compression.label, "decoded: " ++ decoded.description,
    "canonical: " ++ Json.compact decoded.canonical]

/-- The JSON form. -/
def toValue (decoded : Decoded) : Value :=
  .mapping [("path", .string decoded.path), ("kind", .string decoded.kind.label),
    ("compression", .string decoded.compression.label),
    ("decoded", .string decoded.description), ("canonical", decoded.canonical)]

end Decoded

/-- Lines of text, each with its end. -/
def unlines (lines : List String) : String := String.join (lines.map (· ++ "\n"))

/-- What a report prints. -/
def print (json : Bool) (lines : List String) (value : Value) : String :=
  unlines (if json then [Json.pretty value] else lines)

end WireForm.Command
