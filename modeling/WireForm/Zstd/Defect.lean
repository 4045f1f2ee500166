/-!
# What can be wrong with a stream of zstd frames
-/

namespace WireForm.Zstd

/-- Why a stream of frames cannot be inflated to its end. -/
inductive Defect where
  /-- The input ends inside a frame. -/
  | incomplete
  /-- What follows a frame is not the beginning of another. -/
  | unknownFrame
  /-- A reserved bit of a frame header is set. -/
  | unsupported
  /-- The frame asks for a larger window than is granted. -/
  | windowTooLarge
  /-- The frame was made with a dictionary. -/
  | dictionary
  /-- The checksum of the content is another one. -/
  | checksum
  /-- A compressed block is too long, or ends within the head of its list of sequences. -/
  | blockSize
  /-- A block recalls a code for literals, and no block before it has one. -/
  | codeMissing
  /-- Fewer literals are divided among four streams than these can share. -/
  | literalsHeader
  /-- A block gives more than there is room for. -/
  | noRoom
  /-- A block, or the content as a whole, is otherwise not what the format allows. -/
  | corrupted
  /-- Anything else that an inflater finds wrong. -/
  | other (text : String)
deriving DecidableEq

/-- The wording of a defect. -/
def Defect.text : Defect → String
  | .incomplete => "incomplete frame"
  | .unknownFrame => "Unknown frame descriptor"
  | .unsupported => "Unsupported frame parameter"
  | .windowTooLarge => "Frame requires too much memory for decoding"
  | .dictionary => "Dictionary mismatch"
  | .checksum => "Restored data doesn't match checksum"
  | .blockSize => "Src size is incorrect"
  | .codeMissing => "Dictionary is corrupted"
  | .literalsHeader => "Header of Literals' block doesn't respect format specification"
  | .noRoom => "Destination buffer is too small"
  | .corrupted => "Data corruption detected"
  | .other text => text

/-- What was found, or the defect that nothing was. -/
def Defect.ifNone {α : Type} (defect : Defect) : Option α → Except Defect α
  | none => .error defect
  | some found => .ok found

end WireForm.Zstd
