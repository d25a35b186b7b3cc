import SignedHandshake.Bytes.Basic

/-!
# SHAKE256

An output of any length from the Keccak sponge: 136 bytes are taken in or given out between two
applications of the permutation on 25 lanes of 64 bits.
-/

namespace SignedHandshake.Digest.Shake256

/-- The number of bytes taken in or given out at once. -/
def rate : Nat := 136

/-- One constant for each of the 24 rounds. -/
def roundConstants : List UInt64 := [
  0x0000000000000001, 0x0000000000008082, 0x800000000000808A, 0x8000000080008000,
  0x000000000000808B, 0x0000000080000001, 0x8000000080008081, 0x8000000000008009,
  0x000000000000008A, 0x0000000000000088, 0x0000000080008009, 0x000000008000000A,
  0x000000008000808B, 0x800000000000008B, 0x8000000000008089, 0x8000000000008003,
  0x8000000000008002, 0x8000000000000080, 0x000000000000800A, 0x800000008000000A,
  0x8000000080008081, 0x8000000000008080, 0x0000000080000001, 0x8000000080008008]

/-- How far each lane is turned, in the order of the lanes. -/
def rotations : Array UInt64 := #[
  0, 1, 62, 28, 27, 36, 44, 6, 55, 20, 3, 10, 43, 25, 39, 41, 45, 15, 21, 8, 18, 2, 61, 56, 14]

/-- A lane turned left by `n` bits. -/
def rotateLeft (x n : UInt64) : UInt64 :=
  if n = 0 then x else (x <<< n) ||| (x >>> (64 - n))

/-- The lane in column `x` and row `y`, both modulo five. -/
def lane (lanes : Array UInt64) (x y : Nat) : UInt64 :=
  lanes.getD (x % 5 + 5 * (y % 5)) 0

/-- One round of the permutation. -/
def round (lanes : Array UInt64) (constant : UInt64) : Array UInt64 :=
  let column := (Array.range 5).map fun x =>
    lane lanes x 0 ^^^ lane lanes x 1 ^^^ lane lanes x 2 ^^^ lane lanes x 3 ^^^ lane lanes x 4
  let parity := (Array.range 5).map fun x =>
    column.getD ((x + 4) % 5) 0 ^^^ rotateLeft (column.getD ((x + 1) % 5) 0) 1
  let turned := (Array.range 25).map fun i =>
    rotateLeft (lanes.getD i 0 ^^^ parity.getD (i % 5) 0) (rotations.getD i 0)
  let moved := (Array.range 25).map fun i =>
    lane turned (i % 5 + 3 * (i / 5)) (i % 5)
  let mixed := (Array.range 25).map fun i =>
    let x := i % 5
    let y := i / 5
    lane moved x y ^^^ (~~~(lane moved (x + 1) y) &&& lane moved (x + 2) y)
  mixed.set! 0 (mixed.getD 0 0 ^^^ constant)

/-- The permutation. -/
def permute (lanes : Array UInt64) : Array UInt64 :=
  roundConstants.foldl round lanes

/-- The little-endian lanes of a block. -/
def lanesOfBlock (block : Array UInt8) : Array UInt64 :=
  (Array.range 25).map fun i =>
    (List.range 8).foldl
      (fun x j => x ||| ((block.getD (8 * i + j) 0).toUInt64 <<< (8 * j).toUInt64)) 0

/-- Take one block in. -/
def absorb (lanes : Array UInt64) (block : Array UInt8) : Array UInt64 :=
  permute (lanes.zipWith (· ^^^ ·) (lanesOfBlock block))

/-- The bytes that can be given out before the next permutation. -/
def outputBlock (lanes : Array UInt64) : Bytes :=
  (lanes.toList.flatMap fun x => Bytes.littleEndian 8 x.toNat).take rate

/-- Take in the blocks of a padded message. -/
def absorbAll (lanes : Array UInt64) : (blocks : Nat) → Bytes → Array UInt64
  | 0, _ => lanes
  | blocks + 1, message =>
    absorbAll (absorb lanes (message.take rate).toArray) blocks (message.drop rate)

/-- Give out blocks, permuting in between. -/
def squeeze (lanes : Array UInt64) : (blocks : Nat) → Bytes
  | 0 => []
  | blocks + 1 => outputBlock lanes ++ squeeze (permute lanes) blocks

/-- A message filled up to whole blocks: the marker of the function, zeros, and a final one bit. -/
def pad (message : Bytes) : Bytes :=
  let free := rate - message.length % rate
  if free = 1 then message ++ [0x9F]
  else message ++ 0x1F :: List.replicate (free - 2) 0 ++ [0x80]

end Shake256

/-- The first `length` bytes of SHAKE256 of a message. -/
def shake256 (length : Nat) (message : Bytes) : Bytes :=
  let padded := Shake256.pad message
  let lanes := Shake256.absorbAll (Array.replicate 25 0) (padded.length / Shake256.rate) padded
  (Shake256.squeeze lanes ((length + Shake256.rate - 1) / Shake256.rate)).take length

end SignedHandshake.Digest
