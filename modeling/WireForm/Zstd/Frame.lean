import WireForm.Zstd.Block
import WireForm.Zstd.Checksum
import WireForm.Zstd.FrameHeader

/-!
# Frames

A stream is a row of frames. `unfold` says what a stream gives in turn and what is wrong with
it, if it does not end well. A frame is inflated block by block, except that one whose content
is small and which lies whole in the input is inflated at once, under fewer checks.
-/

namespace WireForm.Zstd

/-- What a stream gives in turn. -/
inductive Event where
  | content (bytes : List UInt8)
  | frameEnd
deriving DecidableEq

/-- What a part of a stream gives in turn, and then the bytes after it or what is wrong. -/
structure Yield (α : Type) where
  events : List Event
  result : Except Defect α

namespace Yield

/-- Gives nothing and ends. -/
def fail {α : Type} (defect : Defect) : Yield α := ⟨[], .error defect⟩

/-- Gives content first. -/
def after {α : Type} (bytes : List UInt8) (rest : Yield α) : Yield α :=
  ⟨.content bytes :: rest.events, rest.result⟩

end Yield

/-! ## The end of a frame -/

/-- Splits the checksum off, if the frame has one. -/
def takeChecksum? (header : FrameHeader) (bytes : List UInt8) :
    Option (Option Nat × List UInt8) :=
  if header.hasChecksum then
    (splitBytes? 4 bytes).map fun (written, rest) => (some (ofLittleEndian written), rest)
  else some (none, bytes)

/-- Whether the content has the checksum, if there is one. -/
def Content.hasChecksum (content : Content) : Option Nat → Bool
  | none => true
  | some written => checksum (content.since 0) == written

/-- Whether the content has the size that the header says. -/
def Content.hasSize (content : Content) (header : FrameHeader) : Bool :=
  header.contentSize.all (· == content.bytes.size)

/-- Ends a frame after its last block. -/
def endFrame (header : FrameHeader) (content : Content) (bytes : List UInt8) :
    Yield (List UInt8) :=
  match takeChecksum? header bytes with
  | none => .fail .incomplete
  | some (written, rest) =>
    if content.hasChecksum written then ⟨[.frameEnd], .ok rest⟩ else .fail .checksum

/-! ## Block by block -/

/-- The size of the buffer that a frame is inflated into: a window, two blocks and a margin for
    each, or less if the content is smaller. -/
def FrameHeader.bufferSize (header : FrameHeader) : Nat :=
  let size := max header.window 1024 + 2 * header.maxBlock + 2 * copyMargin
  (header.contentSize.map (min · size)).getD size

/-- Where the next block goes in the buffer: behind the last one, which ends at `place`, or to
    the front again if a block might not fit there and the buffer does not hold all content. -/
def FrameHeader.nextPlace (header : FrameHeader) (place : Nat) : Nat :=
  if header.contentSize.all (header.bufferSize < ·) ∧
      header.bufferSize < place + header.maxBlock then 0
  else place

/-- Inflates blocks, the first of them to a place in the buffer. A plain block gives what is
    there of it, and any block of no bytes gives nothing. -/
def unfoldBlocks (header : FrameHeader) (place : Nat) (content : Content) (bytes : List UInt8) :
    Yield (List UInt8) :=
  match _ : BlockHeader.read? bytes with
  | none => .fail .incomplete
  | some (block, rest) =>
    if block.form = .reserved ∨ header.maxBlock < block.bodySize then .fail .corrupted
    else if block.bodySize = 0 then
      if block.isLast then endFrame header content rest
      else unfoldBlocks header place content rest
    else if rest.length < block.bodySize ∧ (block.form ≠ .plain ∨ rest = []) then
      .fail .incomplete
    else
      let room : Room := ⟨header.bufferSize - place, false⟩
      let start := content.bytes.size
      match content.pushBlock header.maxBlock room block (rest.take block.bodySize) with
      | .error defect => .fail defect
      | .ok content =>
        let given := content.since start
        let rest' := rest.drop block.bodySize
        if header.maxBlock < given.length then .fail .corrupted
        else if rest.length < block.bodySize then .after given (.fail .incomplete)
        else if block.isLast then
          if content.hasSize header then .after given (endFrame header content rest')
          else .fail .corrupted
        else
          .after given
            (unfoldBlocks header (header.nextPlace (place + given.length)) content rest')
  termination_by bytes.length
  decreasing_by
    · exact BlockHeader.read?_length ‹_›
    · have := BlockHeader.read?_length ‹_›
      simp only [List.length_drop]
      omega

/-- The largest window that is granted. -/
def maxWindow : Nat := 0x8000001

/-- Inflates a frame block by block. -/
def unfoldFrame (header : FrameHeader) (bytes : List UInt8) : Yield (List UInt8) :=
  if header.dictionary ≠ 0 then .fail .dictionary
  else if maxWindow < header.window then .fail .windowTooLarge
  else unfoldBlocks header 0 .empty bytes

/-! ## At once -/

/-- The blocks of a frame with their bodies, and the bytes after them, if all are there. -/
def wholeBlocks? (bytes : List UInt8) :
    Option (List (BlockHeader × List UInt8) × List UInt8) :=
  match _ : BlockHeader.read? bytes with
  | none => none
  | some (block, rest) =>
    if block.form = .reserved then none
    else if rest.length < block.bodySize then none
    else
      let body := rest.take block.bodySize
      let rest' := rest.drop block.bodySize
      if block.isLast then some ([(block, body)], rest')
      else (wholeBlocks? rest').map fun (blocks, after) => ((block, body) :: blocks, after)
  termination_by bytes.length
  decreasing_by
    have := BlockHeader.read?_length ‹_›
    simp only [List.length_drop]
    omega

/-- How many bytes one read can hold. -/
def readSize : Nat := 8192

/-- Appends the content of blocks, at most what one read can hold. -/
def pushBlocks (maxBlock : Nat) (content : Content) :
    List (BlockHeader × List UInt8) → Except Defect Content
  | [] => .ok content
  | (block, body) :: blocks =>
    let room : Room := ⟨readSize - content.bytes.size, true⟩
    if block.form = .compressed ∧ maxBlock < block.size then .error .blockSize
    else
      match content.pushBlock maxBlock room block body with
      | .error defect => .error defect
      | .ok content => pushBlocks maxBlock content blocks

/-- Inflates a frame at once, given its blocks and its checksum. -/
def inflateWhole (header : FrameHeader) (size : Nat) (blocks : List (BlockHeader × List UInt8))
    (written : Option Nat) : Except Defect (List UInt8) :=
  if header.dictionary ≠ 0 then .error .dictionary
  else
    match pushBlocks header.maxBlock .empty blocks with
    | .error defect => .error defect
    | .ok content =>
      if content.bytes.size ≠ size then .error .corrupted
      else if content.hasChecksum written then .ok (content.since 0)
      else .error .checksum

/-- The blocks and the checksum of a frame that is inflated at once, with its size and the bytes
    after it. -/
def whole? (header : FrameHeader) (bytes : List UInt8) :
    Option (Nat × List (BlockHeader × List UInt8) × Option Nat × List UInt8) := do
  let size ← header.contentSize
  if readSize < size then none
  let (blocks, rest) ← wholeBlocks? bytes
  let (written, rest) ← takeChecksum? header rest
  return (size, blocks, written, rest)

/-! ## Streams -/

/-- Inflates a frame. -/
def unfoldAny (header : FrameHeader) (bytes : List UInt8) : Yield (List UInt8) :=
  match whole? header bytes with
  | none => unfoldFrame header bytes
  | some (size, blocks, written, rest) =>
    match inflateWhole header size blocks written with
    | .error defect => .fail defect
    | .ok content => ⟨[.content content, .frameEnd], .ok rest⟩

/-- Inflates one frame or skips one. -/
def unfoldOpening (bytes : List UInt8) : Yield (List UInt8) :=
  match readOpening bytes with
  | .error defect => .fail defect
  | .ok (.frame header, rest) => unfoldAny header rest
  | .ok (.skippable size, rest) =>
    if rest.length < size then .fail .incomplete else ⟨[.frameEnd], .ok (rest.drop size)⟩

/-- Inflates frame after frame, at most as many as there are bytes. -/
def unfoldUpTo : Nat → List UInt8 → Yield Unit
  | _, [] => ⟨[], .ok ()⟩
  | 0, _ :: _ => .fail .incomplete
  | count + 1, bytes =>
    let first := unfoldOpening bytes
    match first.result with
    | .error defect => ⟨first.events, .error defect⟩
    | .ok rest =>
      let later := unfoldUpTo count rest
      ⟨first.events ++ later.events, later.result⟩

/-- What a stream gives in turn, and what is wrong with it. -/
def unfold (bytes : List UInt8) : Yield Unit := unfoldUpTo bytes.length bytes

end WireForm.Zstd
