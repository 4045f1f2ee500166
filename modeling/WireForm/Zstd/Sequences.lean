import WireForm.Zstd.Defect
import WireForm.Zstd.StateTable

/-!
# Sequences of a block

After its literals a compressed block lists sequences. Each copies some literals and then a
match, which is content that came earlier. Three interleaved state tables code the length of
the literals, the length of the match and how far back it begins.
-/

namespace WireForm.Zstd

/-! ## Codes -/

/-- A code that stands for a range of numbers: where it begins, and how many further bits say
    where in it the number is. -/
structure NumberRange where
  base : Nat
  width : Nat
deriving DecidableEq, Inhabited

/-- Ranges of the given widths that follow each other from `base` on. -/
def consecutiveRanges (base : Nat) : List Nat → List NumberRange
  | [] => []
  | width :: widths => ⟨base, width⟩ :: consecutiveRanges (base + (1 <<< width)) widths

/-- The three numbers of a sequence. -/
inductive Part where
  | literalLength | offset | matchLength
deriving DecidableEq

/-- The lengths of literals. -/
def literalLengthRanges : Array NumberRange :=
  (consecutiveRanges 0 (List.replicate 16 0 ++
    [1, 1, 1, 1, 2, 2, 3, 3, 4, 6, 7, 8, 9, 10, 11, 12, 13, 14, 15, 16])).toArray

/-- The lengths of matches. No match is shorter than three bytes. -/
def matchLengthRanges : Array NumberRange :=
  (consecutiveRanges 3 (List.replicate 32 0 ++
    [1, 1, 1, 1, 2, 2, 3, 3, 4, 4, 5, 7, 8, 9, 10, 11, 12, 13, 14, 15, 16])).toArray

/-- What a written offset can be, before recent offsets are looked up. -/
def offsetRanges : Array NumberRange := (consecutiveRanges 1 (List.range 32)).toArray

namespace Part

/-- The ranges that the codes of a part stand for. -/
def ranges : Part → Array NumberRange
  | .literalLength => literalLengthRanges
  | .offset => offsetRanges
  | .matchLength => matchLengthRanges

/-- The largest table of a part. -/
def maxLog : Part → Nat
  | .offset => 8
  | _ => 9

/-- The distribution that is used where none is written. -/
def usual : Part → Distribution
  | .literalLength => ⟨6, ([4, 3] ++ List.replicate 11 2 ++ [1, 1, 1] ++ List.replicate 9 2 ++
      [3, 2, 1, 1, 1, 1, 1]).map .cells ++ List.replicate 4 .rare⟩
  | .offset => ⟨5, ([1, 1, 1, 1, 1, 1, 2, 2, 2] ++ List.replicate 15 1).map .cells ++
      List.replicate 5 .rare⟩
  | .matchLength => ⟨6, ([1, 4, 3] ++ List.replicate 6 2 ++ List.replicate 37 1).map .cells ++
      List.replicate 7 .rare⟩

end Part

/-! ## Tables -/

/-- The tables of the three parts. -/
structure SequenceTables where
  literalLength : StateTable
  offset : StateTable
  matchLength : StateTable
deriving DecidableEq

/-- The table of a part. -/
def SequenceTables.get (tables : SequenceTables) : Part → StateTable
  | .literalLength => tables.literalLength
  | .offset => tables.offset
  | .matchLength => tables.matchLength

/-- Where a table comes from. -/
inductive TableSource where
  | usual | single | written | recalled
deriving DecidableEq

/-- The source that two bits stand for. -/
def TableSource.ofBits : Nat → TableSource
  | 0 => .usual
  | 1 => .single
  | 2 => .written
  | _ => .recalled

/-- Reads the table of a part. -/
def readTable? (part : Part) (recalled : Option SequenceTables) (source : TableSource)
    (bytes : List UInt8) : Option (StateTable × List UInt8) :=
  match source with
  | .usual => some (StateTable.ofDistribution part.usual, bytes)
  | .single =>
    match bytes with
    | [] => none
    | symbol :: bytes =>
      if symbol.toNat < part.ranges.size then some (StateTable.single symbol.toNat, bytes)
      else none
  | .written => do
    let (distribution, bytes) ← Distribution.read? part.maxLog part.ranges.size bytes
    return (StateTable.ofDistribution distribution, bytes)
  | .recalled => recalled.map fun tables => (tables.get part, bytes)

/-- Reads the three tables. The byte in front names their sources; its last two bits are
    empty. -/
def SequenceTables.read (recalled : Option SequenceTables) :
    List UInt8 → Except Defect (SequenceTables × List UInt8)
  | [] => .error .blockSize
  | sources :: bytes => Defect.corrupted.ifNone do
    let sources := sources.toNat
    if sources % 4 ≠ 0 then none
    let read (part : Part) (place : Nat) (bytes : List UInt8) :=
      readTable? part recalled (TableSource.ofBits (sources / place % 4)) bytes
    let (literalLength, bytes) ← read .literalLength 64 bytes
    let (offset, bytes) ← read .offset 16 bytes
    let (matchLength, bytes) ← read .matchLength 4 bytes
    return (⟨literalLength, offset, matchLength⟩, bytes)

/-! ## Sequences -/

/-- One sequence. The offset is as written. -/
structure Sequence where
  literalLength : Nat
  offset : Nat
  matchLength : Nat
deriving DecidableEq

/-- How many sequences there are. -/
def sequenceCount? : List UInt8 → Option (Nat × List UInt8)
  | [] => none
  | first :: bytes =>
    if first < 128 then some (first.toNat, bytes)
    else if first < 255 then
      match bytes with
      | second :: bytes => some ((first.toNat - 128) * 256 + second.toNat, bytes)
      | [] => none
    else
      match bytes with
      | low :: high :: bytes => some (ofLittleEndian [low, high] + 0x7F00, bytes)
      | _ => none

/-- The states of the three coders. -/
structure SequenceStates where
  literalLength : Nat
  offset : Nat
  matchLength : Nat

namespace SequenceTables

/-- The first states. -/
def start? (tables : SequenceTables) (stream : List Bool) :
    Option (SequenceStates × List Bool) := do
  let (literalLength, stream) ← tables.literalLength.start? stream
  let (offset, stream) ← tables.offset.start? stream
  let (matchLength, stream) ← tables.matchLength.start? stream
  return (⟨literalLength, offset, matchLength⟩, stream)

/-- The states that follow. -/
def next? (tables : SequenceTables) (states : SequenceStates) (stream : List Bool) :
    Option (SequenceStates × List Bool) := do
  let (literalLength, stream) ← tables.literalLength.next? states.literalLength stream
  let (matchLength, stream) ← tables.matchLength.next? states.matchLength stream
  let (offset, stream) ← tables.offset.next? states.offset stream
  return (⟨literalLength, offset, matchLength⟩, stream)

/-- Reads the number that the cell of a state stands for. -/
def number? (tables : SequenceTables) (part : Part) (state : Nat) (stream : List Bool) :
    Option (Nat × List Bool) := do
  let range := part.ranges.getD ((tables.get part).cell state).symbol default
  let (further, stream) ← takeHigh? range.width stream
  return (range.base + further, stream)

/-- The sequence that the states stand for. -/
def sequence? (tables : SequenceTables) (states : SequenceStates) (stream : List Bool) :
    Option (Sequence × List Bool) := do
  let (offset, stream) ← tables.number? .offset states.offset stream
  let (matchLength, stream) ← tables.number? .matchLength states.matchLength stream
  let (literalLength, stream) ← tables.number? .literalLength states.literalLength stream
  return (⟨literalLength, offset, matchLength⟩, stream)

/-- Reads a number of sequences after those `read` already, the last of them first, and says
    whether they are all there and nothing else. The states do not move after the last one. -/
def sequencesUpTo (tables : SequenceTables) :
    Nat → SequenceStates → List Bool → List Sequence → List Sequence × Bool
  | 0, _, stream, read => (read.reverse, stream.isEmpty)
  | count + 1, states, stream, read =>
    match tables.sequence? states stream with
    | none => (read.reverse, false)
    | some (s, stream) =>
      match if count = 0 then some (states, stream) else tables.next? states stream with
      | none => ((s :: read).reverse, false)
      | some (states, stream) => tables.sequencesUpTo count states stream (s :: read)

end SequenceTables

/-- The sequences of a block. -/
structure Sequences where
  /-- How many there should be. -/
  count : Nat
  list : List Sequence
  /-- Whether the list is all that there should be. -/
  exact : Bool
  /-- The tables that a later block may recall. -/
  tables : Option SequenceTables

/-- Reads the sequences that end a block. Where their stream is at fault, those before the fault
    are read. -/
def Sequences.read (recalled : Option SequenceTables) (bytes : List UInt8) :
    Except Defect Sequences := do
  let (count, bytes) ← Defect.blockSize.ifNone (sequenceCount? bytes)
  if count = 0 then
    if bytes.isEmpty then .ok ⟨0, [], true, recalled⟩ else .error .corrupted
  else
    let (tables, bytes) ← SequenceTables.read recalled bytes
    let (list, exact) :=
      match (backwardBits? bytes).bind tables.start? with
      | none => ([], false)
      | some (states, stream) => tables.sequencesUpTo count states stream []
    return ⟨count, list, exact, some tables⟩

end WireForm.Zstd
