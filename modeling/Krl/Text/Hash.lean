/-!
# Content hash

XXH64 with seed 0 over the UTF-8 bytes of a text: equal texts have equal hashes, and a different
hash tells two texts apart.
-/

set_option autoImplicit false

namespace Krl.Text.Hash

def prime1 : UInt64 := 0x9E3779B185EBCA87
def prime2 : UInt64 := 0xC2B2AE3D27D4EB4F
def prime3 : UInt64 := 0x165667B19E3779F9
def prime4 : UInt64 := 0x85EBCA77C2B2AE63
def prime5 : UInt64 := 0x27D4EB2F165667C5

def rotateLeft (x : UInt64) (n : UInt64) : UInt64 := (x <<< n) ||| (x >>> (64 - n))

/-- The number that bytes stand for, least significant byte first. -/
def littleEndian (bytes : List UInt8) : UInt64 :=
  bytes.foldr (fun b acc => acc * 256 + b.toUInt64) 0

/-- Mix eight bytes into an accumulator. -/
def round (acc lane : UInt64) : UInt64 := rotateLeft (acc + lane * prime2) 31 * prime1

/-- The four accumulators of the long part. -/
structure Lanes where
  a : UInt64 := prime1 + prime2
  b : UInt64 := prime2
  c : UInt64 := 0
  d : UInt64 := 0 - prime1

namespace Lanes

/-- Mix in a stripe of 32 bytes, eight to each accumulator. -/
def stripe (v : Lanes) (bytes : List UInt8) : Lanes where
  a := round v.a (littleEndian (bytes.take 8))
  b := round v.b (littleEndian ((bytes.drop 8).take 8))
  c := round v.c (littleEndian ((bytes.drop 16).take 8))
  d := round v.d (littleEndian ((bytes.drop 24).take 8))

/-- Mix in `n` stripes; also gives the bytes behind them. -/
def stripes : Nat → Lanes → List UInt8 → Lanes × List UInt8
  | 0, v, bytes => (v, bytes)
  | n + 1, v, bytes => stripes n (v.stripe (bytes.take 32)) (bytes.drop 32)

def merge (acc lane : UInt64) : UInt64 := (acc ^^^ round 0 lane) * prime1 + prime4

/-- The four accumulators as one. -/
def converge (v : Lanes) : UInt64 :=
  let acc := rotateLeft v.a 1 + rotateLeft v.b 7 + rotateLeft v.c 12 + rotateLeft v.d 18
  merge (merge (merge (merge acc v.a) v.b) v.c) v.d

end Lanes

/-- Mix in `n` groups of eight bytes; also gives the bytes behind them. -/
def eights : Nat → UInt64 → List UInt8 → UInt64 × List UInt8
  | 0, h, bytes => (h, bytes)
  | n + 1, h, bytes =>
    let h := rotateLeft (h ^^^ round 0 (littleEndian (bytes.take 8))) 27 * prime1 + prime4
    eights n h (bytes.drop 8)

/-- Mix in a group of four bytes, if one is left. -/
def four (h : UInt64) (bytes : List UInt8) : UInt64 × List UInt8 :=
  if 4 ≤ bytes.length then
    (rotateLeft (h ^^^ littleEndian (bytes.take 4) * prime1) 23 * prime2 + prime3, bytes.drop 4)
  else (h, bytes)

/-- Mix in a single byte. -/
def single (h : UInt64) (b : UInt8) : UInt64 := rotateLeft (h ^^^ b.toUInt64 * prime5) 11 * prime1

/-- Spread each bit over the whole word. -/
def avalanche (h : UInt64) : UInt64 :=
  let h := (h ^^^ (h >>> 33)) * prime2
  let h := (h ^^^ (h >>> 29)) * prime3
  h ^^^ (h >>> 32)

/-- The hash of a sequence of bytes. -/
def ofBytes (bytes : List UInt8) : UInt64 :=
  let n := bytes.length
  let (start, rest) :=
    if 32 ≤ n then
      let (v, rest) := Lanes.stripes (n / 32) {} bytes
      (v.converge, rest)
    else (prime5, bytes)
  let (h, rest) := eights (rest.length / 8) (start + UInt64.ofNat n) rest
  let (h, rest) := four h rest
  avalanche (rest.foldl single h)

end Krl.Text.Hash

namespace Krl.Text

/-- The content hash of a text. -/
def hash (text : String) : UInt64 := Hash.ofBytes text.toUTF8.data.toList

/-- A hash in sixteen lowercase hexadecimal digits. -/
def hashDigits (h : UInt64) : String :=
  let digits := Nat.toDigits 16 h.toNat
  String.ofList (List.replicate (16 - digits.length) '0' ++ digits)

end Krl.Text
