import WireForm.Zstd.Defect
import WireForm.Zstd.PrefixCode

/-!
# Literals of a block

A compressed block opens with the bytes that its sequences copy into the content. They stand
there as they are, as one repeated byte, or in a code, which is described there or is the one
used last. A stream of coded literals must be used up exactly. Which streams that break this rule
are let through all the same depends on the machine; here none is.
-/

namespace WireForm.Zstd

/-- How the literals of a block are written. -/
inductive LiteralsForm where
  | plain | repeated | described | recalled
deriving DecidableEq

/-- The form that two bits stand for. -/
def LiteralsForm.ofBits : Nat → LiteralsForm
  | 0 => .plain
  | 1 => .repeated
  | 2 => .described
  | _ => .recalled

/-- The header of uncoded literals: how many there are, and how many bytes it takes itself. -/
def plainLiteralsHeader (bytes : List UInt8) : Nat × Nat :=
  let first := ofLittleEndian (bytes.take 1)
  match first / 4 % 4 with
  | 1 => (ofLittleEndian (bytes.take 2) / 16, 2)
  | 3 => (ofLittleEndian (bytes.take 3) / 16, 3)
  | _ => (first / 8, 1)

/-- The header of coded literals. -/
structure CodedLiteralsHeader where
  /-- How many literals there are. -/
  count : Nat
  /-- How many bytes they take, with the description of the code. -/
  size : Nat
  /-- How many streams they are divided among: one or four. -/
  divided : Bool
  /-- How many bytes the header takes. -/
  headerSize : Nat
deriving DecidableEq

/-- Reads the header of coded literals. -/
def codedLiteralsHeader (bytes : List UInt8) : CodedLiteralsHeader :=
  let header := ofLittleEndian (bytes.take 5)
  let read (width : Nat) (divided : Bool) : CodedLiteralsHeader :=
    { count := header / 16 % (1 <<< width)
      size := header / (1 <<< (width + 4)) % (1 <<< width)
      divided
      headerSize := (2 * width + 4 + 7) / 8 }
  match header / 4 % 4 with
  | 0 => read 10 false
  | 1 => read 10 true
  | 2 => read 14 true
  | _ => read 18 true

/-- Splits the first `size` bytes off, if there are as many. -/
def splitBytes? (size : Nat) (bytes : List UInt8) : Option (List UInt8 × List UInt8) :=
  let front := bytes.take size
  if front.length = size then some (front, bytes.drop size) else none

/-- The fewest literals that four streams can share. -/
def minDivided : Nat := 6

/-- The literals of four streams. The sizes of the first three stand in front, and the last
    stream holds what three equal parts leave. -/
def fourStreams? (code : PrefixCode) (count : Nat) (bytes : List UInt8) :
    Option (List UInt8) := do
  let (sizes, bytes) ← splitBytes? 6 bytes
  let part := (count + 3) / 4
  let (first, bytes) ← splitBytes? (ofLittleEndian (sizes.take 2)) bytes
  let (second, bytes) ← splitBytes? (ofLittleEndian ((sizes.drop 2).take 2)) bytes
  let (third, fourth) ← splitBytes? (ofLittleEndian (sizes.drop 4)) bytes
  return (← code.symbols? part first) ++ (← code.symbols? part second) ++
    (← code.symbols? part third) ++ (← code.symbols? (count - 3 * part) fourth)

/-- The literals of a block. -/
structure Literals where
  bytes : List UInt8
  /-- Whether they are copied from where they stand in the block. -/
  inPlace : Bool
  /-- The code that a later block may recall. -/
  code : Option PrefixCode
  /-- The bytes of the block that follow. -/
  rest : List UInt8

/-- Reads literals in a code, which is the recalled one if there is one and else described. A
    block holds at most `maxBlock` of them, and there is room for `room`. -/
def codedLiterals (maxBlock room : Nat) (recalled : Option PrefixCode) (block : List UInt8) :
    Except Defect Literals := do
  if block.length < 5 then .error .corrupted
  let header := codedLiteralsHeader block
  if maxBlock < header.count then .error .corrupted
  if header.divided ∧ header.count < minDivided then .error .literalsHeader
  let (bytes, rest) ←
    Defect.corrupted.ifNone (splitBytes? header.size (block.drop header.headerSize))
  if room < header.count then .error .noRoom
  Defect.corrupted.ifNone do
    let (code, bytes) ←
      match recalled with
      | some code => some (code, bytes)
      | none => PrefixCode.read? bytes
    let literals ←
      if header.divided then fourStreams? code header.count bytes
      else code.symbols? header.count bytes
    return ⟨literals, false, some code, rest⟩

/-- How far literals must be from the end of a block to be copied from where they stand. -/
def copyMargin : Nat := 32

/-- Reads the literals at the front of a block. A block holds at most `maxBlock` of them, and
    there is room for `room`. -/
def Literals.read (maxBlock room : Nat) (recalled : Option PrefixCode) (block : List UInt8) :
    Except Defect Literals := do
  let (count, headerSize) := plainLiteralsHeader block
  match LiteralsForm.ofBits (ofLittleEndian (block.take 1) % 4) with
  | .plain =>
    if block.length < headerSize ∨ maxBlock < count then .error .corrupted
    if room < count then .error .noRoom
    let (bytes, rest) ← Defect.corrupted.ifNone (splitBytes? count (block.drop headerSize))
    return ⟨bytes, copyMargin ≤ rest.length, recalled, rest⟩
  | .repeated =>
    match block.drop headerSize with
    | [] => .error .corrupted
    | byte :: rest =>
      if maxBlock < count then .error .corrupted
      if room < count then .error .noRoom
      return ⟨List.replicate count byte, false, recalled, rest⟩
  | .described => codedLiterals maxBlock room none block
  | .recalled =>
    match recalled with
    | none => .error .codeMissing
    | some code => codedLiterals maxBlock room (some code) block

end WireForm.Zstd
