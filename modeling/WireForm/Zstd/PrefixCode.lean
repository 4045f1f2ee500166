import WireForm.Zstd.StateTable

/-!
# Codes without a common beginning

Literals are coded with a binary code in which no code word begins another. The code is
described by weights: a symbol of weight `w > 0` owns `2 ^ (w - 1)` of the leaves of a full
binary tree, and lighter symbols stand before heavier ones. The weight of the last symbol is
not written, for it fills the tree up. `PrefixCode.read?` reads a description and
`PrefixCode.symbols?` reads symbols.
-/

namespace WireForm.Zstd

/-- A binary code. -/
inductive PrefixCode where
  | leaf (symbol : UInt8)
  | branch (zero one : PrefixCode)
deriving DecidableEq

namespace PrefixCode

/-! ## From weights -/

/-- The heaviest weight, which is also the longest code word. -/
def maxWeight : Nat := 12

/-- How many leaves a weight owns. -/
def leaves (weight : Nat) : Nat := if weight = 0 then 0 else 1 <<< (weight - 1)

/-- A full tree of the given depth over the first of the weighed symbols, and those left. -/
def grow : Nat → List (Nat × UInt8) → Option (PrefixCode × List (Nat × UInt8))
  | _, [] => none
  | 0, (_, s) :: rest => some (.leaf s, rest)
  | depth + 1, (weight, s) :: rest =>
    if weight = depth + 2 then some (.leaf s, rest)
    else do
      let (zero, rest) ← grow depth ((weight, s) :: rest)
      let (one, rest) ← grow depth rest
      return (.branch zero one, rest)

/-- The weight that fills the tree up, and the depth of the tree, if there is one. -/
def lastWeight? (weights : List Nat) : Option (Nat × Nat) :=
  let total := weights.foldl (fun total weight => total + leaves weight) 0
  let depth := total.log2 + 1
  let rest := (1 <<< depth) - total
  if total = 0 ∨ maxWeight < depth ∨ rest ≠ 1 <<< rest.log2 then none
  else some (rest.log2 + 1, depth)

/-- The code in which the symbols from zero on have the given weights and one more symbol fills
    the tree up. At least two symbols have the lightest weight. -/
def ofWeights? (weights : List Nat) : Option PrefixCode := do
  if weights.any (maxWeight < ·) then none
  let (last, depth) ← lastWeight? weights
  let all := weights ++ [last]
  if all.count 1 < 2 then none
  let weighed := all.zipIdx.filterMap fun (weight, symbol) =>
    if weight = 0 then none else some (weight, UInt8.ofNat symbol)
  let sorted := weighed.mergeSort fun a b => a.1 ≤ b.1
  return (← grow depth sorted).1

/-! ## Descriptions -/

/-- The weights of a description that spends half a byte on each. -/
def plainWeights? (count : Nat) (bytes : List UInt8) : Option (List Nat × List UInt8) :=
  let size := (count + 1) / 2
  let used := bytes.take size
  if used.length = size then
    some ((used.flatMap fun byte => [byte.toNat / 16, byte.toNat % 16]).take count,
      bytes.drop size)
  else none

/-- Reads weights with two states that take turns, at most `room` of them. When the stream
    cannot move the state whose turn it is, the other state gives the last weight. -/
def alternate (table : StateTable) : Nat → Nat → Nat → List Bool → Option (List Nat)
  | room + 2, turn, other, stream =>
    let weight := (table.cell turn).symbol
    match table.next? turn stream with
    | none => some [weight, (table.cell other).symbol]
    | some (turn, stream) => (alternate table (room + 1) other turn stream).map (weight :: ·)
  | _, _, _, _ => none

/-- The weights of a description that is coded itself. -/
def codedWeights? (size : Nat) (bytes : List UInt8) : Option (List Nat × List UInt8) := do
  let used := bytes.take size
  if used.length ≠ size then none
  let (distribution, coded) ← Distribution.read? 6 256 used
  let table := StateTable.ofDistribution distribution
  let stream ← backwardBits? coded
  let (first, stream) ← table.start? stream
  let (second, stream) ← table.start? stream
  return (← alternate table 255 first second stream, bytes.drop size)

/-- Reads the description of a code off the front of the bytes. -/
def read? : List UInt8 → Option (PrefixCode × List UInt8)
  | [] => none
  | form :: bytes => do
    let (weights, bytes) ←
      if 128 ≤ form then plainWeights? (form.toNat - 127) bytes
      else codedWeights? form.toNat bytes
    return (← ofWeights? weights, bytes)

/-! ## Symbols -/

/-- Reads one symbol. -/
def next? : PrefixCode → List Bool → Option (UInt8 × List Bool)
  | .leaf s, stream => some (s, stream)
  | .branch _ _, [] => none
  | .branch zero one, bit :: stream => if bit then one.next? stream else zero.next? stream

/-- Reads a number of symbols, which must be all that is in the stream, after those `read`
    already, the last of them first. -/
def symbolsUpTo? (code : PrefixCode) : Nat → List Bool → List UInt8 → Option (List UInt8)
  | 0, [], later => some later.reverse
  | 0, _ :: _, _ => none
  | count + 1, stream, read =>
    match code.next? stream with
    | none => none
    | some (s, stream) => code.symbolsUpTo? count stream (s :: read)

/-- The symbols of a backward stream that holds exactly `count` of them. -/
def symbols? (code : PrefixCode) (count : Nat) (bytes : List UInt8) : Option (List UInt8) := do
  code.symbolsUpTo? count (← backwardBits? bytes) []

end PrefixCode

end WireForm.Zstd
