import WireForm.Zstd.Bits

/-!
# State tables

A coder over an alphabet whose symbols have unequal shares of a table of `2 ^ log` cells. A
state is a cell of the table. It stands for a symbol, and the bits read next choose among the
cells that may follow. `Distribution.read?` reads the shares and `StateTable.ofDistribution`
lays out the table.
-/

namespace WireForm.Zstd

/-! ## Distributions -/

/-- The share of a symbol in a table. -/
inductive Share where
  /-- Less than one cell is worth. It gets one cell at the end of the table. -/
  | rare
  /-- A number of cells, which may be zero. -/
  | cells (count : Nat)
deriving DecidableEq

/-- How many cells a share takes. -/
def Share.count : Share → Nat
  | .rare => 1
  | .cells count => count

/-- The shares of the symbols from zero on, for a table of `2 ^ log` cells. -/
structure Distribution where
  log : Nat
  shares : List Share
deriving DecidableEq

/-- The share that a written number stands for. -/
def Share.ofWritten : Nat → Share
  | 0 => .rare
  | count + 1 => .cells count

/-- Reads a number that is at most `left + 1`. The lower part of the range takes one bit less
    than the rest. -/
def readBounded? (left : Nat) (stream : List Bool) : Option (Nat × List Bool) := do
  let width := (left + 1).log2
  let short := (1 <<< (width + 1)) - (left + 2)
  let (low, stream) ← takeLow? width stream
  if low < short then return (low, stream)
  let (high, stream) ← takeLow? 1 stream
  return (if high = 0 then low else low + (1 <<< width) - short, stream)

/-- Reads how many further symbols have no cell: two bits at a time, going on after a three. -/
def readAbsent? : List Bool → Option (Nat × List Bool)
  | true :: true :: stream => (readAbsent? stream).map fun (count, rest) => (count + 3, rest)
  | low :: high :: stream => some (low.toNat + 2 * high.toNat, stream)
  | _ => none

/-- Reads shares until `left` cells are given away, for at most `room` symbols. -/
def readShares? (room left : Nat) (stream : List Bool) : Option (List Share × List Bool) :=
  if left = 0 then some ([], stream)
  else
    match room with
    | 0 => none
    | room + 1 =>
      match readBounded? left stream with
      | none => none
      | some (written, stream) =>
        let share := Share.ofWritten written
        if share = .cells 0 then
          match readAbsent? stream with
          | none => none
          | some (absent, stream) =>
            (readShares? (room - absent) left stream).map fun (shares, rest) =>
              (share :: List.replicate absent (.cells 0) ++ shares, rest)
        else
          (readShares? room (left - share.count) stream).map fun (shares, rest) =>
            (share :: shares, rest)
  termination_by room

/-- Reads a distribution off the front of the bytes. It ends at a byte boundary. -/
def Distribution.read? (maxLog symbols : Nat) (bytes : List UInt8) :
    Option (Distribution × List UInt8) := do
  let bits := forwardBits bytes
  let (low, stream) ← takeLow? 4 bits
  let log := low + 5
  if log > maxLog then none
  let (shares, stream) ← readShares? symbols (1 <<< log) stream
  let used := bits.length - stream.length
  return (⟨log, shares⟩, bytes.drop ((used + 7) / 8))

/-! ## Tables -/

/-- A cell of a table: its symbol, and the cells that may follow, `2 ^ width` of them from
    `base` on. -/
structure Cell where
  symbol : Nat
  width : Nat
  base : Nat
deriving DecidableEq, Inhabited

/-- A table of `2 ^ log` cells. -/
structure StateTable where
  log : Nat
  cells : Array Cell
deriving DecidableEq

namespace StateTable

/-- The table of a single symbol, which takes no bits. -/
def single (symbol : Nat) : StateTable := ⟨0, #[⟨symbol, 0, 0⟩]⟩

/-- Which symbol stands in each place of the table. The rare symbols stand at the end, the last
    of them first. The others are spread over the rest, each run of equal symbols in steps of
    five eighths of the table. -/
def layout (distribution : Distribution) : Array Nat :=
  let size := 1 <<< distribution.log
  let numbered := distribution.shares.zipIdx
  let rare := numbered.filterMap fun (share, symbol) =>
    if share = .rare then some symbol else none
  let common := numbered.flatMap fun (share, symbol) =>
    match share with
    | .rare => []
    | .cells count => List.replicate count symbol
  let step := size / 2 + size / 8 + 3
  let places := (List.range size).map fun i => i * step % size
  let free := places.filter (· < size - rare.length)
  let spread := (free.zip common).foldl
    (fun cells (place, symbol) => cells.setIfInBounds place symbol) (Array.replicate size 0)
  rare.zipIdx.foldl (fun cells (symbol, i) => cells.setIfInBounds (size - 1 - i) symbol) spread

/-- The table of a distribution. The cells of one symbol share out all cells among them, those
    that come first the larger parts. -/
def ofDistribution (distribution : Distribution) : StateTable :=
  let size := 1 <<< distribution.log
  let counts := (distribution.shares.map Share.count).toArray
  let (cells, _) := (layout distribution).foldl (fun (cells, next) symbol =>
    let number := next.getD symbol 0
    let width := distribution.log - number.log2
    (cells.push ⟨symbol, width, (number <<< width) - size⟩,
      next.setIfInBounds symbol (number + 1))) (#[], counts)
  ⟨distribution.log, cells⟩

/-- The first state of a stream. -/
def start? (table : StateTable) (stream : List Bool) : Option (Nat × List Bool) :=
  takeHigh? table.log stream

/-- The cell of a state. -/
def cell (table : StateTable) (state : Nat) : Cell := table.cells.getD state default

/-- The state that follows. -/
def next? (table : StateTable) (state : Nat) (stream : List Bool) : Option (Nat × List Bool) := do
  let cell := table.cell state
  let (offset, stream) ← takeHigh? cell.width stream
  return (cell.base + offset, stream)

end StateTable

end WireForm.Zstd
