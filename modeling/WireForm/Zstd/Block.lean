import WireForm.Zstd.Content

/-!
# Blocks

The content of a frame is divided into blocks. A block holds its part of the content as it is,
as one repeated byte, or compressed.
-/

namespace WireForm.Zstd

/-- How a block holds its part of the content. -/
inductive BlockForm where
  | plain | repeated | compressed | reserved
deriving DecidableEq

/-- The form that two bits stand for. -/
def BlockForm.ofBits : Nat → BlockForm
  | 0 => .plain
  | 1 => .repeated
  | 2 => .compressed
  | _ => .reserved

/-- The header of a block. -/
structure BlockHeader where
  isLast : Bool
  form : BlockForm
  /-- The size of the body, or how often its one byte is repeated. -/
  size : Nat
deriving DecidableEq

namespace BlockHeader

/-- Reads a header of three bytes. -/
def read? : List UInt8 → Option (BlockHeader × List UInt8)
  | low :: middle :: high :: rest =>
    let written := ofLittleEndian [low, middle, high]
    some (⟨written % 2 = 1, BlockForm.ofBits (written / 2 % 4), written / 8⟩, rest)
  | _ => none

/-- How many bytes the body takes. -/
def bodySize (block : BlockHeader) : Nat :=
  match block.form with
  | .repeated => 1
  | _ => block.size

theorem read?_length {bytes rest : List UInt8} {block : BlockHeader}
    (h : read? bytes = some (block, rest)) : rest.length < bytes.length := by
  unfold read? at h
  split at h
  · obtain ⟨_, rfl⟩ := Prod.mk.inj (Option.some.inj h)
    simp only [List.length_cons]
    omega
  · exact nomatch h

end BlockHeader

/-- Appends the content of a block, given its body. -/
def Content.pushBlock (maxBlock : Nat) (room : Room) (content : Content) (block : BlockHeader)
    (body : List UInt8) : Except Defect Content :=
  match block.form with
  | .plain =>
    if room.size < body.length then .error .noRoom
    else .ok { content with bytes := pushBytes content.bytes body }
  | .repeated =>
    if room.size < block.size then .error .noRoom
    else
      .ok { content with
        bytes := pushBytes content.bytes (List.replicate block.size (body.headD 0)) }
  | .compressed => content.pushCompressed maxBlock room body
  | .reserved => .error .corrupted

/-- The bytes of the content from a place on. -/
def Content.since (content : Content) (place : Nat) : List UInt8 :=
  (content.bytes.extract place content.bytes.size).toList

end WireForm.Zstd
