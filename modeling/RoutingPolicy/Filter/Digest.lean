/-!
# The 64-bit digest of a byte sequence

The digest xxHash64 with seed zero. Full blocks of 32 bytes are mixed into four lanes; the lanes,
the length and the remaining bytes, taken by eights, a four and ones, then make the result.
-/

namespace RoutingPolicy

namespace Digest

/-- The multipliers of the digest. -/
def prime1 : UInt64 := 0x9E3779B185EBCA87
def prime2 : UInt64 := 0xC2B2AE3D27D4EB4F
def prime3 : UInt64 := 0x165667B19E3779F9
def prime4 : UInt64 := 0x85EBCA77C2B2AE63
def prime5 : UInt64 := 0x27D4EB2F165667C5

/-- The word with its bits turned left by `n` places, for `n` between 1 and 63. -/
def rotate (word : UInt64) (n : UInt64) : UInt64 := (word <<< n) ||| (word >>> (64 - n))

/-- The number whose base 256 digits are the bytes, the least significant one first. -/
def littleEndian (bytes : List UInt8) : UInt64 :=
  bytes.foldr (fun byte word => word * 256 + byte.toUInt64) 0

def round (lane input : UInt64) : UInt64 := rotate (lane + input * prime2) 31 * prime1

/-- The four lanes that blocks are mixed into. -/
structure Lanes where
  first : UInt64
  second : UInt64
  third : UInt64
  fourth : UInt64

namespace Lanes

def start : Lanes := ⟨prime1 + prime2, prime2, 0, 0 - prime1⟩

def absorb (lanes : Lanes) (block : List UInt8) : Lanes where
  first := round lanes.first (littleEndian (block.take 8))
  second := round lanes.second (littleEndian ((block.drop 8).take 8))
  third := round lanes.third (littleEndian ((block.drop 16).take 8))
  fourth := round lanes.fourth (littleEndian (block.drop 24))

def merge (result lane : UInt64) : UInt64 := (result ^^^ round 0 lane) * prime1 + prime4

def collect (lanes : Lanes) : UInt64 :=
  let sum := rotate lanes.first 1 + rotate lanes.second 7 + rotate lanes.third 12 +
    rotate lanes.fourth 18
  [lanes.first, lanes.second, lanes.third, lanes.fourth].foldl merge sum

end Lanes

/-- Mixes all full blocks into the lanes; the second component holds the bytes left over. -/
def blocks (lanes : Lanes) (bytes : List UInt8) : Lanes × List UInt8 :=
  if 32 ≤ bytes.length then blocks (lanes.absorb (bytes.take 32)) (bytes.drop 32)
  else (lanes, bytes)
termination_by bytes.length
decreasing_by
  simp only [List.length_drop]
  omega

def ones (result : UInt64) (bytes : List UInt8) : UInt64 :=
  bytes.foldl (fun word byte => rotate (word ^^^ (byte.toUInt64 * prime5)) 11 * prime1) result

/-- Mixes in four bytes, if there are so many, and the others one by one. -/
def four (result : UInt64) (bytes : List UInt8) : UInt64 :=
  if 4 ≤ bytes.length then
    ones (rotate (result ^^^ (littleEndian (bytes.take 4) * prime1)) 23 * prime2 + prime3)
      (bytes.drop 4)
  else ones result bytes

def tail (result : UInt64) (bytes : List UInt8) : UInt64 :=
  if 8 ≤ bytes.length then
    tail (rotate (result ^^^ round 0 (littleEndian (bytes.take 8))) 27 * prime1 + prime4)
      (bytes.drop 8)
  else four result bytes
termination_by bytes.length
decreasing_by
  simp only [List.length_drop]
  omega

/-- Spreads every bit of the result over the word. -/
def finish (word : UInt64) : UInt64 :=
  let word := (word ^^^ (word >>> 33)) * prime2
  let word := (word ^^^ (word >>> 29)) * prime3
  word ^^^ (word >>> 32)

def ofBytes (bytes : List UInt8) : UInt64 :=
  let (lanes, rest) := blocks Lanes.start bytes
  let result := if 32 ≤ bytes.length then lanes.collect else prime5
  finish (tail (result + UInt64.ofNat bytes.length) rest)

end Digest

end RoutingPolicy
