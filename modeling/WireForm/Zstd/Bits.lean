/-!
# Bits of a byte sequence

Numbers inside a frame take as many bits as they need. A forward stream is read from the
lowest bit of the first byte. A backward stream is read from the highest bit of the last byte,
so its bits are those of a forward stream in reverse; its first set bit marks where it begins.
-/

namespace WireForm.Zstd

/-- The bits of a byte, the lowest first. -/
def byteBits (byte : UInt8) : List Bool := (List.range 8).map byte.toNat.testBit

/-- The bits of a forward stream. -/
def forwardBits (bytes : List UInt8) : List Bool := bytes.flatMap byteBits

/-- The bits of a backward stream, without its mark. The mark stands in the last byte. -/
def backwardBits? (bytes : List UInt8) : Option (List Bool) :=
  match bytes.getLast? with
  | none => none
  | some last =>
    if last = 0 then none else some (((forwardBits bytes).reverse.dropWhile (!·)).drop 1)

/-- The number with the given bits, the lowest first. -/
def ofLowFirst : List Bool → Nat
  | [] => 0
  | bit :: rest => bit.toNat + 2 * ofLowFirst rest

/-- The number with the given bits, the highest first. -/
def ofHighFirst (bits : List Bool) : Nat := bits.foldl (fun n bit => 2 * n + bit.toNat) 0

/-- Takes a number of the given width off a forward stream. -/
def takeLow? (width : Nat) (stream : List Bool) : Option (Nat × List Bool) :=
  let bits := stream.take width
  if bits.length = width then some (ofLowFirst bits, stream.drop width) else none

/-- Takes a number of the given width off a backward stream. -/
def takeHigh? (width : Nat) (stream : List Bool) : Option (Nat × List Bool) :=
  let bits := stream.take width
  if bits.length = width then some (ofHighFirst bits, stream.drop width) else none

/-- The number with the given bytes, the lowest first. -/
def ofLittleEndian : List UInt8 → Nat
  | [] => 0
  | byte :: rest => byte.toNat + 256 * ofLittleEndian rest

end WireForm.Zstd
