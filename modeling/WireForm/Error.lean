import WireForm.Json.Fault
import WireForm.Tag
import WireForm.Value
import WireForm.Zstd.Defect

/-!
# Errors

Every way in which loading, decoding or encoding can fail, with the facts of the case. The
wording is in one place, `Error.message`.
-/

namespace WireForm

/-! ## What an error speaks of -/

/-- The types that errors name. -/
inductive TypeName where
  | data
  | point
  | variant (tag : Tag)
  | interface
  | wrapper
deriving DecidableEq

/-- The label of a type. -/
def TypeName.label : TypeName → String
  | .data => "Data"
  | .point => "Point"
  | .variant tag => "Interface." ++ tag.stamp
  | .interface => "Interface"
  | .wrapper => "Type"

/-- The fields of records. -/
inductive Field where
  | name | data | timestamp | value
deriving DecidableEq

/-- The label of a field, which is also its key on the wire. -/
def Field.label : Field → String
  | .name => "name"
  | .data => "data"
  | .timestamp => "timestamp"
  | .value => "value"

/-- The label under which a field is reported missing. The timestamp has one of its own. -/
def Field.missingLabel : Field → String
  | .timestamp => "TS"
  | field => field.label

/-- What a decoder accepts in a place. -/
inductive Expected where
  | string
  | number
  | mapping
  | stringOrMapping
  | slotMapping
  | slotSequence
  | pointShape
deriving DecidableEq

/-- The description of what a decoder accepts. -/
def Expected.label : Expected → String
  | .string => "string"
  | .number => "number"
  | .mapping => "mapping"
  | .stringOrMapping => "string or mapping"
  | .slotMapping => "mapping with timestamp and value"
  | .slotSequence => "2-element sequence"
  | .pointShape => "number, mapping, or 2-element sequence"

/-- Why the bytes of a file could not be had. -/
inductive FileFault where
  | notFound
  | isFolder
  | notFolder
  | nameTooLong
  | nulInPath
  | other (text : String)
deriving DecidableEq

/-- The wording of a file fault. -/
def FileFault.text : FileFault → String
  | .notFound => "No such file or directory (os error 2)"
  | .isFolder => "Is a directory (os error 21)"
  | .notFolder => "Not a directory (os error 20)"
  | .nameTooLong => "File name too long (os error 36)"
  | .nulInPath => "file name contained an unexpected NUL byte"
  | .other text => text

/-! ## Errors -/

/-- Why an operation failed. -/
inductive Error where
  /-- A file could not be read. -/
  | file (fault : FileFault)
  /-- A compressed document could not be inflated. -/
  | inflate (defect : Zstd.Defect)
  /-- A document is no JSON text. -/
  | json (fault : Json.Fault)
  /-- A raw document is longer than the limit. -/
  | inputTooLarge (size limit : Nat)
  /-- A compressed document inflates to more than the limit. -/
  | inflatedTooLarge (limit : Nat)
  /-- A document is compressed and compressed documents are refused. -/
  | compressionRefused
  /-- No kind has this name. -/
  | unknownKind (name : String)
  /-- A record lacks a required field. -/
  | missingField (type : TypeName) (field : Field)
  /-- A tag is absent or selects no alternative. -/
  | unknownTag (discriminator : Option String)
  /-- A value has another shape than its decoder accepts. -/
  | unexpectedShape (type : TypeName) (expected : Expected) (got : Shape)
  /-- A field holds a value of another shape than its decoder accepts. -/
  | fieldMismatch (type : TypeName) (field : Field) (expected : Expected) (got : Shape)
deriving DecidableEq

/-- The wording of an error. -/
def Error.message : Error → String
  | .file fault => "io: " ++ fault.text
  | .inflate defect => "io: " ++ defect.text
  | .json fault => "json: " ++ fault.message
  | .inputTooLarge size limit =>
    "input too large: size=" ++ toString size ++ ", limit=" ++ toString limit
  | .inflatedTooLarge limit =>
    "decompressed data exceeds limit (" ++ toString limit ++ " bytes)"
  | .compressionRefused => "compressed input is disabled (zstd frame detected)"
  | .unknownKind name => "unknown kind: " ++ name
  | .missingField type field =>
    field.missingLabel ++ ": is a required field (in " ++ type.label ++ ")"
  | .unknownTag discriminator => "bad type: " ++ discriminator.getD "<missing>"
  | .unexpectedShape type expected got =>
    type.label ++ ": expected " ++ expected.label ++ ", got " ++ got.label
  | .fieldMismatch type field expected got =>
    type.label ++ "." ++ field.label ++ ": expected " ++ expected.label ++ ", got " ++ got.label

end WireForm
