import WireForm.Zstd.Bits

/-!
# Checksum of the content

A frame may end with the low half of a 64-bit hash of its content. The hash runs four lanes
over stripes of 32 bytes, merges them and mixes in the bytes that are left.
-/

namespace WireForm.Zstd.Checksum

/-- The first prime of the hash. -/
def prime1 : UInt64 := 0x9E3779B185EBCA87
/-- The second prime of the hash. -/
def prime2 : UInt64 := 0xC2B2AE3D27D4EB4F
/-- The third prime of the hash. -/
def prime3 : UInt64 := 0x165667B19E3779F9
/-- The fourth prime of the hash. -/
def prime4 : UInt64 := 0x85EBCA77C2B2AE63
/-- The fifth prime of the hash. -/
def prime5 : UInt64 := 0x27D4EB2F165667C5

/-- Moves bits out of the top in again at the bottom. -/
def rotate (word : UInt64) (count : UInt64) : UInt64 :=
  (word <<< count) ||| (word >>> (64 - count))

/-- A word of up to eight bytes, the lowest first. -/
def word (bytes : List UInt8) : UInt64 := UInt64.ofNat (ofLittleEndian bytes)

/-- Takes a word into a lane. -/
def round (lane input : UInt64) : UInt64 := rotate (lane + input * prime2) 31 * prime1

/-- The four lanes. -/
structure Lanes where
  a : UInt64
  b : UInt64
  c : UInt64
  d : UInt64

/-- The lanes at first. -/
def Lanes.initial : Lanes := ⟨prime1 + prime2, prime2, 0, 0 - prime1⟩

/-- Takes a stripe of 32 bytes into the lanes. -/
def Lanes.take (lanes : Lanes) (stripe : List UInt8) : Lanes :=
  ⟨round lanes.a (word (stripe.take 8)), round lanes.b (word ((stripe.drop 8).take 8)),
    round lanes.c (word ((stripe.drop 16).take 8)),
    round lanes.d (word ((stripe.drop 24).take 8))⟩

/-- Merges a lane into the hash. -/
def mergeLane (hash lane : UInt64) : UInt64 := (hash ^^^ round 0 lane) * prime1 + prime4

/-- Merges the lanes. -/
def Lanes.merge (lanes : Lanes) : UInt64 :=
  let hash := rotate lanes.a 1 + rotate lanes.b 7 + rotate lanes.c 12 + rotate lanes.d 18
  mergeLane (mergeLane (mergeLane (mergeLane hash lanes.a) lanes.b) lanes.c) lanes.d

/-- Takes all whole stripes into the lanes. What is left is shorter than a stripe. -/
def stripes (lanes : Lanes) (bytes : List UInt8) : Lanes × List UInt8 :=
  if 32 ≤ bytes.length then stripes (lanes.take (bytes.take 32)) (bytes.drop 32)
  else (lanes, bytes)
  termination_by bytes.length
  decreasing_by simp only [List.length_drop]; omega

/-- Mixes in single bytes. -/
def tailBytes (hash : UInt64) (bytes : List UInt8) : UInt64 :=
  bytes.foldl (fun hash byte => rotate (hash ^^^ (byte.toUInt64 * prime5)) 11 * prime1) hash

/-- Mixes in four bytes, if there are as many, and then single ones. -/
def tailHalf (hash : UInt64) (bytes : List UInt8) : UInt64 :=
  if 4 ≤ bytes.length then
    tailBytes (rotate (hash ^^^ (word (bytes.take 4) * prime1)) 23 * prime2 + prime3)
      (bytes.drop 4)
  else tailBytes hash bytes

/-- Mixes in eight bytes at a time, and then fewer. -/
def tail (hash : UInt64) (bytes : List UInt8) : UInt64 :=
  if 8 ≤ bytes.length then
    tail (rotate (hash ^^^ round 0 (word (bytes.take 8))) 27 * prime1 + prime4) (bytes.drop 8)
  else tailHalf hash bytes
  termination_by bytes.length
  decreasing_by simp only [List.length_drop]; omega

/-- Spreads every bit over the whole word. -/
def finish (hash : UInt64) : UInt64 :=
  let hash := (hash ^^^ (hash >>> 33)) * prime2
  let hash := (hash ^^^ (hash >>> 29)) * prime3
  hash ^^^ (hash >>> 32)

/-- The hash of the content. -/
def hash (bytes : List UInt8) : UInt64 :=
  let size := UInt64.ofNat bytes.length
  if 32 ≤ bytes.length then
    let (lanes, rest) := stripes .initial bytes
    finish (tail (lanes.merge + size) rest)
  else finish (tail (prime5 + size) bytes)

end WireForm.Zstd.Checksum

namespace WireForm.Zstd

/-- The four bytes that a frame with this content may end with, as a number. -/
def checksum (bytes : List UInt8) : Nat := (Checksum.hash bytes).toNat % 0x100000000

end WireForm.Zstd
