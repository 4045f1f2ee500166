import WireForm.Zstd.Literals
import WireForm.Zstd.Sequences

/-!
# Content of a frame

What the blocks of a frame have given so far, and what they leave for later blocks: the code of
the literals, the tables of the sequences and the offsets used last.
-/

namespace WireForm.Zstd

/-! ## Recent offsets -/

/-- The three offsets used last, the most recent first. -/
structure RecentOffsets where
  first : Nat
  second : Nat
  third : Nat
deriving DecidableEq

/-- The offsets that a frame begins with. -/
def RecentOffsets.initial : RecentOffsets := ⟨1, 4, 8⟩

/-- The offset of a sequence, and the recent offsets after it. A written offset of one to three
    names a recent one. After no literals the names are shifted by one, and the last of them is
    the most recent offset less one. -/
def RecentOffsets.resolve (recent : RecentOffsets) (s : Sequence) : Nat × RecentOffsets :=
  if 3 < s.offset then
    let offset := s.offset - 3
    (offset, ⟨offset, recent.first, recent.second⟩)
  else
    match s.offset - 1 + (if s.literalLength = 0 then 1 else 0) with
    | 0 => (recent.first, recent)
    | 1 => (recent.second, ⟨recent.second, recent.first, recent.third⟩)
    | 2 => (recent.third, ⟨recent.third, recent.first, recent.second⟩)
    | _ => (recent.first - 1, ⟨recent.first - 1, recent.first, recent.second⟩)

/-! ## Room -/

/-- The room that there is for the content of a block. -/
structure Room where
  size : Nat
  /-- Whether the literals of the block may lie in it as well. -/
  shared : Bool

/-- How much of the room is for the sequences of a block. The literals of a small block, unless
    they are copied from where they stand, lie behind its content. -/
def Room.forSequences (room : Room) (maxBlock : Nat) (literals : Literals) : Nat :=
  if room.shared ∧ ¬ literals.inPlace ∧
      maxBlock + copyMargin + literals.bytes.length + copyMargin < room.size then
    maxBlock + copyMargin
  else room.size

/-! ## Content -/

/-- The content of a frame so far. -/
structure Content where
  bytes : ByteArray
  code : Option PrefixCode
  tables : Option SequenceTables
  recent : RecentOffsets

namespace Content

/-- The content that a frame begins with. -/
def empty : Content := ⟨ByteArray.empty, none, none, .initial⟩

/-- Appends bytes. -/
def pushBytes (bytes : ByteArray) (more : List UInt8) : ByteArray := more.foldl (·.push ·) bytes

/-- Appends bytes that stand `offset` places back, one after another, so that they may include
    bytes appended just now. -/
def pushMatch (offset : Nat) : Nat → ByteArray → ByteArray
  | 0, bytes => bytes
  | count + 1, bytes =>
    match bytes[bytes.size - offset]? with
    | some byte => pushMatch offset count (bytes.push byte)
    | none => bytes

/-- Appends what sequences give, up to `limit` bytes in all, and says which literals they
    leave. -/
def pushSequences (limit : Nat) (recent : RecentOffsets) (literals : List UInt8)
    (bytes : ByteArray) :
    List Sequence → Except Defect (ByteArray × RecentOffsets × List UInt8)
  | [] => .ok (bytes, recent, literals)
  | s :: rest =>
    if limit < bytes.size + s.literalLength + s.matchLength then .error .noRoom
    else
      match splitBytes? s.literalLength literals with
      | none => .error .corrupted
      | some (front, literals) =>
        let bytes := pushBytes bytes front
        let (offset, recent) := recent.resolve s
        if offset = 0 ∨ bytes.size < offset then .error .corrupted
        else pushSequences limit recent literals (pushMatch offset s.matchLength bytes) rest

/-- Appends the content of a compressed block: what its sequences give, and last the literals
    that they leave. -/
def pushCompressed (maxBlock : Nat) (room : Room) (content : Content) (block : List UInt8) :
    Except Defect Content := do
  if block.length < 2 then .error .corrupted
  let literals ← Literals.read maxBlock room.size content.code block
  let sequences ← Sequences.read content.tables literals.rest
  if room.size = 0 ∧ sequences.count ≠ 0 then .error .noRoom
  let limit := content.bytes.size + room.forSequences maxBlock literals
  let (bytes, recent, left) ←
    pushSequences limit content.recent literals.bytes content.bytes sequences.list
  if ¬ sequences.exact then .error .corrupted
  if limit < bytes.size + left.length then .error .noRoom
  return ⟨pushBytes bytes left, literals.code, sequences.tables, recent⟩

end Content

end WireForm.Zstd
