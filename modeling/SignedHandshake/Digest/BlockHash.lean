import SignedHandshake.Bytes.Basic

/-!
# Hash functions over blocks

The SHA-1 and SHA-2 functions cut a message into blocks and take one block after the other into a
chain of words.

- `BlockHash`: such a function; `BlockHash.digest` is its digest of a whole message.
- `State`: what was made of a message that arrives in pieces. How it was cut does not matter
  (`State.update_append`).
- `BlockHash.hmac`: the authentication code of a message under a key.
-/

namespace SignedHandshake.Digest

/-!
## Messages in pieces

`State` holds the chain of the complete blocks, the bytes of the block that is still open, and the
number of bytes so far.
-/

/-- A hash function that takes blocks into a chain. -/
structure BlockHash where
  /-- What is carried from block to block. -/
  Chain : Type
  /-- The number of bytes in a block. -/
  blockLength : Nat
  /-- The number of bytes at the very end that hold the length of the message. -/
  counterLength : Nat
  /-- The number of bytes of a digest. -/
  digestLength : Nat
  initial : Chain
  compress : Chain → Array UInt8 → Chain
  output : Chain → Bytes

/-- What has been made of the message so far. -/
structure State (H : BlockHash) where
  chain : H.Chain
  /-- The bytes of the block that is still open. -/
  pending : Array UInt8
  length : Nat

namespace State

variable {H : BlockHash}

/-- Nothing has arrived yet. -/
def start : State H :=
  { chain := H.initial, pending := #[], length := 0 }

/-- Take in one byte; a block that is complete goes into the chain. -/
def absorb (state : State H) (byte : UInt8) : State H :=
  let pending := state.pending.push byte
  if pending.size < H.blockLength then { state with pending, length := state.length + 1 }
  else { chain := H.compress state.chain pending, pending := #[], length := state.length + 1 }

/-- Take in bytes in order. -/
def update (state : State H) (bytes : Bytes) : State H :=
  bytes.foldl absorb state

@[simp] theorem update_nil (state : State H) : state.update [] = state := rfl

/-- A message may be cut anywhere. -/
theorem update_append (state : State H) (left right : Bytes) :
    state.update (left ++ right) = (state.update left).update right :=
  List.foldl_append

/-- What follows a message of `length` bytes: a one bit, zeros up to the end of a block, and the
number of bits. -/
def padding (H : BlockHash) (length : Nat) : Bytes :=
  let used := (length + 1 + H.counterLength) % H.blockLength
  0x80 :: List.replicate ((H.blockLength - used) % H.blockLength) 0 ++
    Bytes.bigEndian H.counterLength (8 * length)

/-- The digest of the message that has arrived. -/
def finish (state : State H) : Bytes :=
  H.output (state.update (padding H state.length)).chain

end State

/-- The digest of a whole message. -/
def BlockHash.digest (H : BlockHash) (message : Bytes) : Bytes :=
  ((State.start : State H).update message).finish

end SignedHandshake.Digest

/-!
## Keyed hashing

HMAC over any hash function that works on blocks.
-/

namespace SignedHandshake.Digest.BlockHash

/-- A key as one block: hashed if it is too long, filled up with zeros. -/
def keyBlock (H : BlockHash) (key : Bytes) : Bytes :=
  let short := if key.length > H.blockLength then H.digest key else key
  short ++ List.replicate (H.blockLength - short.length) 0

/-- The authentication code of a message under a key. -/
def hmac (H : BlockHash) (key message : Bytes) : Bytes :=
  let block := H.keyBlock key
  H.digest (block.map (· ^^^ 0x5C) ++ H.digest (block.map (· ^^^ 0x36) ++ message))

end SignedHandshake.Digest.BlockHash
