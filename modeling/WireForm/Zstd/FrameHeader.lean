import WireForm.Zstd.Bits
import WireForm.Zstd.Defect

/-!
# What a frame begins with

A frame begins with a magic number and a header, which says how much memory its content takes.
A skippable frame begins with another magic number and its size.
-/

namespace WireForm.Zstd

/-- The bytes that a frame begins with. -/
def magic : List UInt8 := [0x28, 0xB5, 0x2F, 0xFD]

/-- The bytes that a skippable frame begins with, the first less than sixteen above. -/
def skippableMagic : List UInt8 := [0x50, 0x2A, 0x4D, 0x18]

/-- Whether bytes, of which four are looked at, are a skippable magic number or begin one. -/
def beginsSkippable : List UInt8 → Bool
  | [] => true
  | first :: rest =>
    first &&& 0xF0 = 0x50 && (rest.take 3).isPrefixOf (skippableMagic.drop 1)

/-- Whether bytes, of which four are looked at, are the magic number or begin one. -/
def beginsFrame (bytes : List UInt8) : Bool := (bytes.take 4).isPrefixOf magic

/-- The header of a frame. -/
structure FrameHeader where
  /-- How far back a match may begin. -/
  window : Nat
  /-- The size of the content, if it is known. -/
  contentSize : Option Nat
  /-- The dictionary that the frame was made with; zero is none. -/
  dictionary : Nat
  /-- Whether a checksum follows the last block. -/
  hasChecksum : Bool
deriving DecidableEq

/-- The largest block of a frame. -/
def FrameHeader.maxBlock (header : FrameHeader) : Nat := min header.window 131072

/-- What stands where a frame is due. -/
inductive Opening where
  | frame (header : FrameHeader)
  | skippable (size : Nat)
deriving DecidableEq

/-- How many bytes the number of a dictionary takes. -/
def dictionarySize (descriptor : Nat) : Nat :=
  match descriptor % 4 with
  | 3 => 4
  | size => size

/-- How many bytes the size of the content takes. -/
def contentSizeSize (descriptor : Nat) : Nat :=
  match descriptor / 64 with
  | 0 => descriptor / 32 % 2
  | form => 1 <<< form

/-- The size of the content as written. Two bytes count from 256 on, and the largest number of
    eight bytes stands for an unknown size. -/
def contentSize? (bytes : List UInt8) : Option Nat :=
  let size := ofLittleEndian bytes
  match bytes.length with
  | 0 => none
  | 2 => some (size + 256)
  | _ => if size = 0xFFFFFFFFFFFFFFFF then none else some size

/-- Reads what follows the magic number of a frame. -/
def readFrameHeader (descriptor : Nat) (bytes : List UInt8) :
    Except Defect (FrameHeader × List UInt8) := do
  let single := descriptor / 32 % 2 = 1
  let windowSize := if single then 0 else 1
  let size := windowSize + dictionarySize descriptor + contentSizeSize descriptor
  if bytes.length < size then .error .incomplete
  if descriptor / 8 % 2 = 1 then .error .unsupported
  let written := ofLittleEndian (bytes.take windowSize)
  let log := written / 8 + 10
  if 31 < log then .error .windowTooLarge
  let bytes := bytes.drop windowSize
  let dictionary := ofLittleEndian (bytes.take (dictionarySize descriptor))
  let bytes := bytes.drop (dictionarySize descriptor)
  let contentSize := contentSize? (bytes.take (contentSizeSize descriptor))
  let window :=
    if single then contentSize.getD 0xFFFFFFFFFFFFFFFF
    else (1 <<< log) + (1 <<< log) / 8 * (written % 8)
  return (⟨window, contentSize, dictionary, descriptor / 4 % 2 = 1⟩,
    bytes.drop (contentSizeSize descriptor))

/-- Reads what stands where a frame is due. Nothing is said of a header before it is whole. -/
def readOpening (bytes : List UInt8) : Except Defect (Opening × List UInt8) :=
  if beginsFrame bytes then
    match bytes.drop 4 with
    | [] => .error .incomplete
    | descriptor :: rest => do
      let (header, rest) ← readFrameHeader descriptor.toNat rest
      return (.frame header, rest)
  else if beginsSkippable bytes then
    if bytes.length < 8 then .error .incomplete
    else .ok (.skippable (ofLittleEndian ((bytes.drop 4).take 4)), bytes.drop 8)
  else .error .unknownFrame

end WireForm.Zstd
