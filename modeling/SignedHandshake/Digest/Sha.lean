import SignedHandshake.Digest.BlockHash
import SignedHandshake.Text.Basic

/-!
# SHA-1 and SHA-2

The hash functions that the names of signature algorithms begin with.

- `sha1`, `sha224`, `sha256`, `sha384`, `sha512`: the functions. The last four share the round
  function `Sha2.round`, on words of 32 or 64 bits.
- `HashName`: their names, with the function for each (`HashName.function`).
-/

namespace SignedHandshake.Digest.Sha1

/-!
## SHA-1

Five 32-bit words and eighty rounds for each block. It is here because peers may still sign with it.
-/

/-- The five words of a SHA-1 chain. -/
structure Chain where
  a : UInt32
  b : UInt32
  c : UInt32
  d : UInt32
  e : UInt32

/-- A word turned left by `n` bits, for `n` between 1 and 31. -/
def rotateLeft (x n : UInt32) : UInt32 :=
  (x <<< n) ||| (x >>> (32 - n))

/-- The big-endian word at position `i` of a block. -/
def wordAt (block : Array UInt8) (i : Nat) : UInt32 :=
  (List.range 4).foldl (fun x j => (x <<< 8) ||| (block.getD (4 * i + j) 0).toUInt32) 0

/-- Extend the words of a block by `more` further words. -/
def schedule : (more : Nat) → Array UInt32 → Array UInt32
  | 0, words => words
  | more + 1, words =>
    let back n := words.getD (words.size - n) 0
    schedule more (words.push (rotateLeft (back 3 ^^^ back 8 ^^^ back 14 ^^^ back 16) 1))

/-- The function and the constant of round `i`; they change every twenty rounds. -/
def mixer (i : Nat) (b c d : UInt32) : UInt32 × UInt32 :=
  if i < 20 then ((b &&& c) ^^^ (~~~b &&& d), 0x5A827999)
  else if i < 40 then (b ^^^ c ^^^ d, 0x6ED9EBA1)
  else if i < 60 then ((b &&& c) ^^^ (b &&& d) ^^^ (c &&& d), 0x8F1BBCDC)
  else (b ^^^ c ^^^ d, 0xCA62C1D6)

/-- Round `i` with its schedule word. -/
def round (x : Chain) (i : Nat) (word : UInt32) : Chain :=
  let (mixed, constant) := mixer i x.b x.c x.d
  ⟨rotateLeft x.a 5 + mixed + x.e + constant + word, x.a, rotateLeft x.b 30, x.c, x.d⟩

/-- Take one block into a chain. -/
def compress (chain : Chain) (block : Array UInt8) : Chain :=
  let words := schedule 64 ((Array.range 16).map (wordAt block))
  let x := ((List.range 80).zip words.toList).foldl (fun x (i, word) => round x i word) chain
  ⟨chain.a + x.a, chain.b + x.b, chain.c + x.c, chain.d + x.d, chain.e + x.e⟩

/-- The digest in a chain. -/
def output (chain : Chain) : Bytes :=
  [chain.a, chain.b, chain.c, chain.d, chain.e].flatMap fun word => Bytes.bigEndian 4 word.toNat

end Sha1

/-- SHA-1. -/
def sha1 : BlockHash where
  Chain := Sha1.Chain
  blockLength := 64
  counterLength := 8
  digestLength := 20
  initial := ⟨0x67452301, 0xEFCDAB89, 0x98BADCFE, 0x10325476, 0xC3D2E1F0⟩
  compress := Sha1.compress
  output := Sha1.output

/-!
## The SHA-2 round function

All members of the family share one round function on eight words; they differ in the size of the
words, the constants, and the four functions that mix the bits of a word.
-/

/-- The eight words of a SHA-2 chain. -/
structure Words (W : Type) where
  a : W
  b : W
  c : W
  d : W
  e : W
  f : W
  g : W
  h : W

namespace Words

/-- The words in order. -/
def toList {W : Type} (x : Words W) : List W :=
  [x.a, x.b, x.c, x.d, x.e, x.f, x.g, x.h]

/-- Add words position by position. -/
@[specialize] def add {W : Type} [Add W] (x y : Words W) : Words W :=
  ⟨x.a + y.a, x.b + y.b, x.c + y.c, x.d + y.d, x.e + y.e, x.f + y.f, x.g + y.g, x.h + y.h⟩

end Words

/-- What distinguishes the members of the family. -/
structure Sha2 (W : Type) where
  /-- One constant for each round. -/
  constants : List W
  /-- Mixes the first word of the chain. -/
  sum0 : W → W
  /-- Mixes the fifth word of the chain. -/
  sum1 : W → W
  /-- Mixes the schedule word fifteen back. -/
  mix0 : W → W
  /-- Mixes the schedule word two back. -/
  mix1 : W → W

namespace Sha2

variable {W : Type} [Add W] [AndOp W] [XorOp W] [Complement W] [Inhabited W]

/-- Extend the words of a block by `more` further words. -/
@[specialize] def schedule (H : Sha2 W) : (more : Nat) → Array W → Array W
  | 0, words => words
  | more + 1, words =>
    let back n := words.getD (words.size - n) default
    schedule H more (words.push (H.mix1 (back 2) + back 7 + H.mix0 (back 15) + back 16))

/-- One round, with the round's constant and schedule word. -/
@[specialize] def round (H : Sha2 W) (x : Words W) (constant word : W) : Words W :=
  let choice := (x.e &&& x.f) ^^^ (~~~x.e &&& x.g)
  let majority := (x.a &&& x.b) ^^^ (x.a &&& x.c) ^^^ (x.b &&& x.c)
  let first := x.h + H.sum1 x.e + choice + constant + word
  let second := H.sum0 x.a + majority
  ⟨first + second, x.a, x.b, x.c, x.d + first, x.e, x.f, x.g⟩

/-- Take the sixteen words of a block into a chain. -/
@[specialize] def compress (H : Sha2 W) (chain : Words W) (block : Array W) : Words W :=
  let words := schedule H (H.constants.length - 16) block
  chain.add ((H.constants.zip words.toList).foldl (fun x (k, w) => H.round x k w) chain)

end Sha2

end SignedHandshake.Digest

/-!
## SHA-224 and SHA-256

The 32-bit members of the SHA-2 family.
-/

namespace SignedHandshake.Digest

/-- A 32-bit word turned right by `n` bits, for `n` between 1 and 31. -/
def rotateRight32 (x n : UInt32) : UInt32 :=
  (x >>> n) ||| (x <<< (32 - n))

/-- One constant for each of the 64 rounds. -/
def roundConstants32 : List UInt32 := [
  0x428A2F98, 0x71374491, 0xB5C0FBCF, 0xE9B5DBA5, 0x3956C25B, 0x59F111F1,
  0x923F82A4, 0xAB1C5ED5, 0xD807AA98, 0x12835B01, 0x243185BE, 0x550C7DC3,
  0x72BE5D74, 0x80DEB1FE, 0x9BDC06A7, 0xC19BF174, 0xE49B69C1, 0xEFBE4786,
  0x0FC19DC6, 0x240CA1CC, 0x2DE92C6F, 0x4A7484AA, 0x5CB0A9DC, 0x76F988DA,
  0x983E5152, 0xA831C66D, 0xB00327C8, 0xBF597FC7, 0xC6E00BF3, 0xD5A79147,
  0x06CA6351, 0x14292967, 0x27B70A85, 0x2E1B2138, 0x4D2C6DFC, 0x53380D13,
  0x650A7354, 0x766A0ABB, 0x81C2C92E, 0x92722C85, 0xA2BFE8A1, 0xA81A664B,
  0xC24B8B70, 0xC76C51A3, 0xD192E819, 0xD6990624, 0xF40E3585, 0x106AA070,
  0x19A4C116, 0x1E376C08, 0x2748774C, 0x34B0BCB5, 0x391C0CB3, 0x4ED8AA4A,
  0x5B9CCA4F, 0x682E6FF3, 0x748F82EE, 0x78A5636F, 0x84C87814, 0x8CC70208,
  0x90BEFFFA, 0xA4506CEB, 0xBEF9A3F7, 0xC67178F2]

/-- The 32-bit round function. -/
def sha2Round32 : Sha2 UInt32 where
  constants := roundConstants32
  sum0 x := rotateRight32 x 2 ^^^ rotateRight32 x 13 ^^^ rotateRight32 x 22
  sum1 x := rotateRight32 x 6 ^^^ rotateRight32 x 11 ^^^ rotateRight32 x 25
  mix0 x := rotateRight32 x 7 ^^^ rotateRight32 x 18 ^^^ (x >>> 3)
  mix1 x := rotateRight32 x 17 ^^^ rotateRight32 x 19 ^^^ (x >>> 10)

/-- The big-endian word at position `i` of a block. -/
def word32At (block : Array UInt8) (i : Nat) : UInt32 :=
  (List.range 4).foldl (fun x j => (x <<< 8) ||| (block.getD (4 * i + j) 0).toUInt32) 0

/-- A word in four bytes, most significant first. -/
def bytesOfWord32 (x : UInt32) : Bytes :=
  Bytes.bigEndian 4 x.toNat

/-- Take one block into a chain of 32-bit words. -/
def compress32 (chain : Words UInt32) (block : Array UInt8) : Words UInt32 :=
  sha2Round32.compress chain ((Array.range 16).map (word32At block))

/-- SHA-256. -/
def sha256 : BlockHash where
  Chain := Words UInt32
  blockLength := 64
  counterLength := 8
  digestLength := 32
  initial := ⟨0x6A09E667, 0xBB67AE85, 0x3C6EF372, 0xA54FF53A,
    0x510E527F, 0x9B05688C, 0x1F83D9AB, 0x5BE0CD19⟩
  compress := compress32
  output chain := chain.toList.flatMap bytesOfWord32

/-- SHA-224: another start, and one word less at the end. -/
def sha224 : BlockHash where
  Chain := Words UInt32
  blockLength := 64
  counterLength := 8
  digestLength := 28
  initial := ⟨0xC1059ED8, 0x367CD507, 0x3070DD17, 0xF70E5939,
    0xFFC00B31, 0x68581511, 0x64F98FA7, 0xBEFA4FA4⟩
  compress := compress32
  output chain := (chain.toList.take 7).flatMap bytesOfWord32

/-!
## SHA-384 and SHA-512

The 64-bit members of the SHA-2 family.
-/

/-- A 64-bit word turned right by `n` bits, for `n` between 1 and 63. -/
def rotateRight64 (x n : UInt64) : UInt64 :=
  (x >>> n) ||| (x <<< (64 - n))

/-- One constant for each of the 80 rounds. -/
def roundConstants64 : List UInt64 := [
  0x428A2F98D728AE22, 0x7137449123EF65CD, 0xB5C0FBCFEC4D3B2F, 0xE9B5DBA58189DBBC,
  0x3956C25BF348B538, 0x59F111F1B605D019, 0x923F82A4AF194F9B, 0xAB1C5ED5DA6D8118,
  0xD807AA98A3030242, 0x12835B0145706FBE, 0x243185BE4EE4B28C, 0x550C7DC3D5FFB4E2,
  0x72BE5D74F27B896F, 0x80DEB1FE3B1696B1, 0x9BDC06A725C71235, 0xC19BF174CF692694,
  0xE49B69C19EF14AD2, 0xEFBE4786384F25E3, 0x0FC19DC68B8CD5B5, 0x240CA1CC77AC9C65,
  0x2DE92C6F592B0275, 0x4A7484AA6EA6E483, 0x5CB0A9DCBD41FBD4, 0x76F988DA831153B5,
  0x983E5152EE66DFAB, 0xA831C66D2DB43210, 0xB00327C898FB213F, 0xBF597FC7BEEF0EE4,
  0xC6E00BF33DA88FC2, 0xD5A79147930AA725, 0x06CA6351E003826F, 0x142929670A0E6E70,
  0x27B70A8546D22FFC, 0x2E1B21385C26C926, 0x4D2C6DFC5AC42AED, 0x53380D139D95B3DF,
  0x650A73548BAF63DE, 0x766A0ABB3C77B2A8, 0x81C2C92E47EDAEE6, 0x92722C851482353B,
  0xA2BFE8A14CF10364, 0xA81A664BBC423001, 0xC24B8B70D0F89791, 0xC76C51A30654BE30,
  0xD192E819D6EF5218, 0xD69906245565A910, 0xF40E35855771202A, 0x106AA07032BBD1B8,
  0x19A4C116B8D2D0C8, 0x1E376C085141AB53, 0x2748774CDF8EEB99, 0x34B0BCB5E19B48A8,
  0x391C0CB3C5C95A63, 0x4ED8AA4AE3418ACB, 0x5B9CCA4F7763E373, 0x682E6FF3D6B2B8A3,
  0x748F82EE5DEFB2FC, 0x78A5636F43172F60, 0x84C87814A1F0AB72, 0x8CC702081A6439EC,
  0x90BEFFFA23631E28, 0xA4506CEBDE82BDE9, 0xBEF9A3F7B2C67915, 0xC67178F2E372532B,
  0xCA273ECEEA26619C, 0xD186B8C721C0C207, 0xEADA7DD6CDE0EB1E, 0xF57D4F7FEE6ED178,
  0x06F067AA72176FBA, 0x0A637DC5A2C898A6, 0x113F9804BEF90DAE, 0x1B710B35131C471B,
  0x28DB77F523047D84, 0x32CAAB7B40C72493, 0x3C9EBE0A15C9BEBC, 0x431D67C49C100D4C,
  0x4CC5D4BECB3E42B6, 0x597F299CFC657E2A, 0x5FCB6FAB3AD6FAEC, 0x6C44198C4A475817]

/-- The 64-bit round function. -/
def sha2Round64 : Sha2 UInt64 where
  constants := roundConstants64
  sum0 x := rotateRight64 x 28 ^^^ rotateRight64 x 34 ^^^ rotateRight64 x 39
  sum1 x := rotateRight64 x 14 ^^^ rotateRight64 x 18 ^^^ rotateRight64 x 41
  mix0 x := rotateRight64 x 1 ^^^ rotateRight64 x 8 ^^^ (x >>> 7)
  mix1 x := rotateRight64 x 19 ^^^ rotateRight64 x 61 ^^^ (x >>> 6)

/-- The big-endian word at position `i` of a block. -/
def word64At (block : Array UInt8) (i : Nat) : UInt64 :=
  (List.range 8).foldl (fun x j => (x <<< 8) ||| (block.getD (8 * i + j) 0).toUInt64) 0

/-- A word in eight bytes, most significant first. -/
def bytesOfWord64 (x : UInt64) : Bytes :=
  Bytes.bigEndian 8 x.toNat

/-- Take one block into a chain of 64-bit words. -/
def compress64 (chain : Words UInt64) (block : Array UInt8) : Words UInt64 :=
  sha2Round64.compress chain ((Array.range 16).map (word64At block))

/-- SHA-512. -/
def sha512 : BlockHash where
  Chain := Words UInt64
  blockLength := 128
  counterLength := 16
  digestLength := 64
  initial := ⟨0x6A09E667F3BCC908, 0xBB67AE8584CAA73B,
    0x3C6EF372FE94F82B, 0xA54FF53A5F1D36F1,
    0x510E527FADE682D1, 0x9B05688C2B3E6C1F,
    0x1F83D9ABFB41BD6B, 0x5BE0CD19137E2179⟩
  compress := compress64
  output chain := chain.toList.flatMap bytesOfWord64

/-- SHA-384: another start, and two words less at the end. -/
def sha384 : BlockHash where
  Chain := Words UInt64
  blockLength := 128
  counterLength := 16
  digestLength := 48
  initial := ⟨0xCBBB9D5DC1059ED8, 0x629A292A367CD507,
    0x9159015A3070DD17, 0x152FECD8F70E5939,
    0x67332667FFC00B31, 0x8EB44A8768581511,
    0xDB0C2E0D64F98FA7, 0x47B5481DBEFA4FA4⟩
  compress := compress64
  output chain := (chain.toList.take 6).flatMap bytesOfWord64

end SignedHandshake.Digest

/-!
## The hash functions by name

The names are those that the names of signature algorithms begin with.
-/

namespace SignedHandshake

/-- The hash functions that engines put in front of a signature over a digest. -/
inductive HashName where
  | sha1
  | sha224
  | sha256
  | sha384
  | sha512
  deriving DecidableEq, Repr

namespace HashName

/-- The five hash functions. -/
def all : List HashName := [.sha1, .sha224, .sha256, .sha384, .sha512]

/-- The name as it appears in the names of algorithms. -/
def name : HashName → Text
  | .sha1 => "SHA1"
  | .sha224 => "SHA224"
  | .sha256 => "SHA256"
  | .sha384 => "SHA384"
  | .sha512 => "SHA512"

/-- The function itself. -/
def function : HashName → Digest.BlockHash
  | .sha1 => Digest.sha1
  | .sha224 => Digest.sha224
  | .sha256 => Digest.sha256
  | .sha384 => Digest.sha384
  | .sha512 => Digest.sha512

end HashName

end SignedHandshake
