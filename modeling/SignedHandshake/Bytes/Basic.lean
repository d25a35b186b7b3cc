import SignedHandshake.Text.Basic

/-!
# Byte strings

Everything that is hashed, signed or sent is a list of bytes.

- `Bytes.bigEndian` and `Bytes.toNat` are inverse to each other on numbers that fit
  (`toNat_bigEndian`, `bigEndian_toNat`).
- `Bytes.concat` gives the bytes of several strings in their order (`concat_eq_flatten`).
- `Bytes.agree` decides equality (`agree_iff`), although it looks at every byte.
- `Hex.encode`, `Hex.decode`: bytes as hexadecimal text.
-/

namespace SignedHandshake

/-! ## Numbers, sequences and comparison -/

/-- A string of bytes, first byte first. -/
abbrev Bytes := List UInt8

namespace Bytes

/-! ### Numbers, most significant byte first -/

/-- The number a byte string denotes, most significant byte first. -/
def toNat (bytes : Bytes) : Nat :=
  bytes.foldl (fun n byte => n * 256 + byte.toNat) 0

/-- The number `n` as exactly `width` bytes, most significant first. Digits that do not fit are
dropped. -/
def bigEndian : (width n : Nat) → Bytes
  | 0, _ => []
  | width + 1, n => bigEndian width (n / 256) ++ [UInt8.ofNat n]

@[simp] theorem length_bigEndian (width n : Nat) : (bigEndian width n).length = width := by
  induction width generalizing n with
  | zero => rfl
  | succ width ih => simp [bigEndian, ih]

@[simp] theorem toNat_nil : toNat [] = 0 := rfl

@[simp] theorem toNat_append_singleton (bytes : Bytes) (byte : UInt8) :
    toNat (bytes ++ [byte]) = toNat bytes * 256 + byte.toNat := by
  simp [toNat]

/-- The least number that does not fit into `width` bytes. -/
def limit : (width : Nat) → Nat
  | 0 => 1
  | width + 1 => 256 * limit width

/-- Reading back what was written loses only the digits that did not fit. -/
theorem toNat_bigEndian (width n : Nat) : toNat (bigEndian width n) = n % limit width := by
  induction width generalizing n with
  | zero => simp [bigEndian, limit, Nat.mod_one]
  | succ width ih =>
    rw [bigEndian, toNat_append_singleton, ih, limit, Nat.mod_mul, UInt8.toNat_ofNat']
    omega

theorem toNat_bigEndian_of_lt {width n : Nat} (h : n < limit width) :
    toNat (bigEndian width n) = n := by
  rw [toNat_bigEndian, Nat.mod_eq_of_lt h]

/-- A number read from last byte to first fits into as many bytes. The bytes are taken backwards
because the last one is the one that reading adds. -/
theorem toNat_reverse_lt (bytes : Bytes) : toNat bytes.reverse < limit bytes.length := by
  induction bytes with
  | nil => exact Nat.one_pos
  | cons byte rest ih =>
    rw [List.reverse_cons, toNat_append_singleton, List.length_cons, limit]
    have := byte.toNat_lt
    omega

theorem toNat_lt (bytes : Bytes) : toNat bytes < limit bytes.length := by
  simpa using toNat_reverse_lt bytes.reverse

theorem bigEndian_toNat_reverse (bytes : Bytes) :
    bigEndian bytes.length (toNat bytes.reverse) = bytes.reverse := by
  induction bytes with
  | nil => rfl
  | cons byte rest ih =>
    have hlt := byte.toNat_lt
    have hhigh : (toNat rest.reverse * 256 + byte.toNat) / 256 = toNat rest.reverse := by omega
    have hlow : UInt8.ofNat (toNat rest.reverse * 256 + byte.toNat) = byte := by
      rw [← UInt8.toNat_inj, UInt8.toNat_ofNat']
      omega
    rw [List.reverse_cons, toNat_append_singleton, List.length_cons, bigEndian, hhigh, hlow, ih]

/-- Writing back what was read gives the same bytes. -/
@[simp] theorem bigEndian_toNat (bytes : Bytes) : bigEndian bytes.length (toNat bytes) = bytes := by
  simpa using bigEndian_toNat_reverse bytes.reverse

/-- Digits that do not fit make no difference. -/
theorem bigEndian_mod (width n : Nat) : bigEndian width (n % limit width) = bigEndian width n := by
  simpa [toNat_bigEndian] using bigEndian_toNat (bigEndian width n)

/-! ### Numbers, least significant byte first -/

/-- The number a byte string denotes, least significant byte first. -/
def toNatLittle (bytes : Bytes) : Nat :=
  toNat bytes.reverse

/-- The number `n` as exactly `width` bytes, least significant first. -/
def littleEndian (width n : Nat) : Bytes :=
  (bigEndian width n).reverse

/-! ### Concatenation -/

/-- The bytes with `part` written over them from `offset` on. -/
def overwrite (bytes : Bytes) (offset : Nat) (part : Bytes) : Bytes :=
  bytes.take offset ++ part ++ bytes.drop (offset + part.length)

/-- Write parts over the bytes, one behind the other, the first of them from `offset` on. -/
def overwriteAll (bytes : Bytes) (offset : Nat) : List Bytes → Bytes
  | [] => bytes
  | part :: rest => overwriteAll (overwrite bytes offset part) (offset + part.length) rest

/-- Byte strings, one behind the other. The room for all of them is made before any is written. -/
def concat (parts : List Bytes) : Bytes :=
  let total := parts.foldl (fun sum part => sum + part.length) 0
  overwriteAll (List.replicate total 0) 0 parts

/-- What is written are the parts in their order; what is in front of them and behind them stays. -/
theorem overwriteAll_eq (parts : List Bytes) {bytes : Bytes} {offset : Nat}
    (h : offset ≤ bytes.length) :
    overwriteAll bytes offset parts = bytes.take offset ++ parts.flatten ++
      bytes.drop (offset + parts.flatten.length) := by
  induction parts generalizing bytes offset with
  | nil => simp [overwriteAll]
  | cons part rest ih =>
    -- after the first part, everything up to its end is in place
    have hfront : (bytes.take offset ++ part).length = offset + part.length := by
      rw [List.length_append, List.length_take_of_le h]
    have hplace : offset + part.length ≤ (overwrite bytes offset part).length := by
      rw [overwrite, List.length_append, hfront]
      omega
    have htake :
        (overwrite bytes offset part).take (offset + part.length) = bytes.take offset ++ part := by
      rw [overwrite, ← hfront, List.take_left]
    have hdrop (count : Nat) : (overwrite bytes offset part).drop (offset + part.length + count) =
        bytes.drop (offset + part.length + count) := by
      rw [overwrite, ← List.drop_drop, List.drop_left' hfront, List.drop_drop]
    rw [overwriteAll, ih hplace, htake, hdrop, List.flatten_cons, List.length_append, Nat.add_assoc,
      ← List.append_assoc (bytes.take offset) part]

/-- The lengths of the parts, added up. -/
theorem foldl_length_eq (parts : List Bytes) (start : Nat) :
    parts.foldl (fun sum part => sum + part.length) start = start + parts.flatten.length := by
  induction parts generalizing start with
  | nil => rfl
  | cons part rest ih =>
    rw [List.foldl_cons, ih, List.flatten_cons, List.length_append, Nat.add_assoc]

/-- The bytes of the parts, and nothing else. -/
theorem concat_eq_flatten (parts : List Bytes) : concat parts = parts.flatten := by
  rw [concat, foldl_length_eq, Nat.zero_add, overwriteAll_eq parts (Nat.zero_le _), Nat.zero_add,
    List.take_zero, List.nil_append, List.drop_of_length_le (Nat.le_of_eq List.length_replicate),
    List.append_nil]

/-! ### Comparison -/

/-- Whether two byte strings are the same. The differences of all positions are gathered before
any of them is looked at, so the time taken says nothing about where the strings differ. -/
def agree (left right : Bytes) : Bool :=
  left.length == right.length &&
    (left.zipWith (· ^^^ ·) right).foldl (· ||| ·) 0 == 0

theorem or_eq_zero_iff (x y : UInt8) : x ||| y = 0 ↔ x = 0 ∧ y = 0 := by
  simp only [← UInt8.toBitVec_inj, UInt8.toBitVec_or, UInt8.toBitVec_zero]
  exact BitVec.or_eq_zero_iff

/-- Gathering differences from `start` gives nothing exactly if there was nothing to start with and
no position differs. -/
theorem gathered_eq_zero_iff {left right : Bytes} (h : left.length = right.length) (start : UInt8) :
    (left.zipWith (· ^^^ ·) right).foldl (· ||| ·) start = 0 ↔ start = 0 ∧ left = right := by
  induction left generalizing right start with
  | nil =>
    cases right with
    | nil => simp
    | cons => simp at h
  | cons x left ih =>
    cases right with
    | nil => simp at h
    | cons y right =>
      rw [List.zipWith_cons_cons, List.foldl_cons, ih (by simpa using h), or_eq_zero_iff,
        UInt8.xor_eq_zero_iff, List.cons.injEq, and_assoc]

theorem agree_iff {left right : Bytes} : agree left right = true ↔ left = right := by
  rw [agree, Bool.and_eq_true, beq_iff_eq, beq_iff_eq]
  constructor
  · rintro ⟨hlength, hgathered⟩
    exact ((gathered_eq_zero_iff hlength 0).mp hgathered).2
  · rintro rfl
    exact ⟨rfl, (gathered_eq_zero_iff rfl 0).mpr ⟨rfl, rfl⟩⟩

end Bytes

end SignedHandshake

/-!
## Hexadecimal text

`Hex.encode` writes two lower-case digits per byte. `Hex.decode` is lenient: it cuts the text
into pairs of 16-bit units and reads each pair as a whole number in base sixteen, which may have
blanks and a sign in front of its digits and anything at all behind them.
-/

namespace SignedHandshake.Hex

/-- The lower-case digit of a value below sixteen. -/
def digit (n : Nat) : Char :=
  if n < 10 then Char.ofNat (48 + n) else Char.ofNat (87 + n)

/-- The two digits of each byte, high digit first. -/
def encode (bytes : Bytes) : String :=
  String.ofList (bytes.flatMap fun byte => [digit (byte.toNat / 16), digit (byte.toNat % 16)])

/-- The digits of `n` without leading zeros. -/
def ofNat (n : Nat) : String :=
  String.ofList (Nat.toDigits 16 n)

/-- The value of a unit that is a digit in base sixteen, of either case. -/
def unitValue? (unit : UInt16) : Option Nat :=
  let n := unit.toNat
  if 48 ≤ n ∧ n ≤ 57 then some (n - 48)
  else if 65 ≤ n ∧ n ≤ 70 then some (n - 55)
  else if 97 ≤ n ∧ n ≤ 102 then some (n - 87)
  else none

/-- The value of the digits at the front of `units`, if there is at least one. -/
def leadingDigits? (units : List UInt16) : Option Nat :=
  match (units.map unitValue?).takeWhile Option.isSome with
  | [] => none
  | digits => some (digits.reduceOption.foldl (fun n d => n * 16 + d) 0)

/-- Drop a leading `0x` or `0X`. -/
def dropBaseMark : List UInt16 → List UInt16
  | 48 :: 120 :: rest => rest
  | 48 :: 88 :: rest => rest
  | units => units

/-- The whole number at the front of `units`: blanks are skipped, a sign and a base mark may stand
before the digits, and what follows the digits is ignored. -/
def leadingInt? (units : List UInt16) : Option Int :=
  match units.dropWhile Text.isBlankUnit with
  | 45 :: rest => (leadingDigits? (dropBaseMark rest)).map fun n : Nat => -(n : Int)
  | 43 :: rest => (leadingDigits? (dropBaseMark rest)).map fun n : Nat => (n : Int)
  | rest => (leadingDigits? (dropBaseMark rest)).map fun n : Nat => (n : Int)

/-- Why a text is not read as bytes: an odd number of units, or a pair that does not start with a
number. -/
inductive DecodeError where
  | oddLength
  | notHex (offset : Nat)
  deriving DecidableEq, Repr

/-- The text of the error, with the offset of the pair. -/
def DecodeError.message : DecodeError → String
  | .oddLength => "Hex string must have even length"
  | .notHex offset => s!"Invalid hex character at offset {offset}"

/-- Read the units from `offset` on, pair by pair. A value outside one byte is reduced modulo
256. -/
def decodePairs (offset : Nat) : List UInt16 → Except DecodeError Bytes
  | [] => .ok []
  | [_] => .error .oddLength
  | high :: low :: rest =>
    match leadingInt? [high, low] with
    | none => .error (.notHex offset)
    | some n => (decodePairs (offset + 2) rest).map (UInt8.ofInt n :: ·)

/-- The bytes a text stands for, two 16-bit units for each. -/
def decode (text : Text) : Except DecodeError Bytes :=
  if text.units.length % 2 = 0 then decodePairs 0 text.units else .error .oddLength

end SignedHandshake.Hex
