import SignedHandshake.Attempt
import SignedHandshake.Failure

/-!
# Writing and reading fields (specification §10.8)

- `Writer`: puts big-endian fields of one to four bytes and plain bytes one behind the other.
- `Reader`: takes such fields and plain bytes off a byte string.
-/

namespace SignedHandshake.Wire

/-!
## Writing

A field that cannot be written leaves the writer as it was.
-/

/-- The number of bytes of a field that is `bits` wide. -/
def fieldWidth? (bits : Number) : Option Nat :=
  match bits.nat? with
  | some 8 => some 1
  | some 16 => some 2
  | some 24 => some 3
  | some 32 => some 4
  | _ => none

/-- The bytes of a field: `value` as an unsigned number that is `bits` wide. -/
def field (value bits : Number) : Except RangeError Bytes :=
  match fieldWidth? bits with
  | none => .error (.width bits)
  | some width =>
    match value.nat? with
    | some n =>
      if n < Bytes.limit width then .ok (Bytes.bigEndian width n) else .error (.value value bits)
    | none => .error (.value value bits)

/-- The widths are those of one to four bytes. -/
theorem fieldWidth?_eq_some_iff {bits : Number} {width : Nat} :
    fieldWidth? bits = some width ↔ bits = .ofNat (8 * width) ∧ 1 ≤ width ∧ width ≤ 4 := by
  constructor
  · intro h
    unfold fieldWidth? at h
    split at h <;> cases h
    all_goals exact ⟨Number.nat?_eq_some_iff.mp (by assumption), by decide, by decide⟩
  · rintro ⟨rfl, hlow, hhigh⟩
    have : width = 1 ∨ width = 2 ∨ width = 3 ∨ width = 4 := by omega
    rcases this with rfl | rfl | rfl | rfl <;> simp [fieldWidth?]

/-- A field can be written exactly if its width is one of those and its value is a natural number
that fits. -/
theorem field_eq_ok_iff {value bits : Number} {bytes : Bytes} :
    field value bits = .ok bytes ↔
      ∃ width n, fieldWidth? bits = some width ∧ value = .ofNat n ∧ n < Bytes.limit width ∧
        bytes = Bytes.bigEndian width n := by
  unfold field
  constructor
  · intro h
    -- three checks in a row: the width, the sort of number, and its size
    split at h
    · cases h
    · next width hwidth =>
      split at h
      · next n hn =>
        split at h
        · next hlt =>
          cases h
          exact ⟨width, n, hwidth, Number.nat?_eq_some_iff.mp hn, hlt, rfl⟩
        · cases h
      · cases h
  · rintro ⟨width, n, hwidth, rfl, hlt, rfl⟩
    simp [hwidth, hlt]

theorem field_of_lt {n : Nat} (width : Nat) (hlow : 1 ≤ width) (hhigh : width ≤ 4)
    (h : n < Bytes.limit width) :
    field (.ofNat n) (.ofNat (8 * width)) = .ok (Bytes.bigEndian width n) :=
  field_eq_ok_iff.mpr ⟨width, n, fieldWidth?_eq_some_iff.mpr ⟨rfl, hlow, hhigh⟩, rfl, h, rfl⟩

/-- A field of a known width is written exactly if its value is a natural number that fits. -/
theorem field_width_eq_ok_iff {value : Number} {bytes : Bytes} (width : Nat)
    (hlow : 1 ≤ width) (hhigh : width ≤ 4) :
    field value (.ofNat (8 * width)) = .ok bytes ↔
      ∃ n < Bytes.limit width, value = .ofNat n ∧ bytes = Bytes.bigEndian width n := by
  constructor
  · intro h
    obtain ⟨width', n, hwidth, hvalue, hlt, hbytes⟩ := field_eq_ok_iff.mp h
    have hsame : width = width' := by
      have := Number.ofNat_inj.mp (fieldWidth?_eq_some_iff.mp hwidth).1
      omega
    subst hsame
    exact ⟨n, hlt, hvalue, hbytes⟩
  · rintro ⟨n, hlt, rfl, rfl⟩
    exact field_of_lt width hlow hhigh hlt

/-- Fields one behind the other, each with its value and its width. -/
def fields : List (Number × Number) → Except RangeError Bytes
  | [] => .ok []
  | (value, bits) :: rest =>
    match field value bits, fields rest with
    | .ok first, .ok others => .ok (first ++ others)
    | .error e, _ => .error e
    | _, .error e => .error e

@[simp] theorem fields_nil_eq_ok_iff {bytes : Bytes} : fields [] = .ok bytes ↔ bytes = [] := by
  simp [fields, eq_comm]

theorem fields_cons_eq_ok_iff {value bits : Number} {rest : List (Number × Number)}
    {bytes : Bytes} :
    fields ((value, bits) :: rest) = .ok bytes ↔
      ∃ first others, field value bits = .ok first ∧ fields rest = .ok others ∧
        bytes = first ++ others := by
  rw [fields]
  constructor
  · intro h
    split at h <;> cases h
    exact ⟨_, _, by assumption, by assumption, rfl⟩
  · rintro ⟨first, others, hfirst, hothers, rfl⟩
    rw [hfirst, hothers]

/-- What has been written. -/
structure Writer where
  written : Bytes := []
  deriving DecidableEq

namespace Writer

/-- Write a field. -/
def write (writer : Writer) (value bits : Number) : Except RangeError Writer :=
  (field value bits).map fun bytes => { written := writer.written ++ bytes }

/-- Write bytes as they are. -/
def writeBytes (writer : Writer) (bytes : Bytes) : Writer :=
  { written := writer.written ++ bytes }

end Writer

/-!
## Reading

Asking for more than there is fails and takes nothing. A negative count moves the reader back and
gives no bytes, unless it leads to a position in front of the first byte: such a position is counted
from the end of the bytes, and what lies between is given.

A count need not be whole. The reader then stops between two bytes: the bytes taken are those
from the whole part of where it was to the whole part of where it is now, and a field read there
is not a number. Readers that are only asked for whole counts stay at whole positions, and the
lemmas below say what they do.
-/

/-- A request that a reader refuses: a field width that does not exist, or more bytes than there
are. -/
inductive ReadError where
  | width (bits : Number)
  | shortage (requested available : Number)
  deriving DecidableEq

namespace ReadError

/-- The text of the refusal. -/
def message : ReadError → String
  | width bits => (RangeError.width bits).message
  | shortage requested available =>
    s!"Requested {requested} bytes, but only {available} bytes are available"

/-- The failure that a request ends with. A shortage is a failure to decode what `peer` sent. -/
def toFailure (peer : Option Peer) : ReadError → Failure
  | width bits => (RangeError.width bits).toFailure
  | shortage requested available => .mk (.decode peer) (shortage requested available).message none

end ReadError

/-- Bytes and how many of them have been taken. -/
structure Reader where
  bytes : Bytes
  position : Number := .ofNat 0
  /-- Where the bytes came from. -/
  peer : Option Peer := none
  deriving DecidableEq

namespace Reader

/-- The total of two amounts of bytes. It is exact up to twice the length of all bytes
and rounded behind that. As long as the bytes fit into a memory, an exact total is one
that rounding leaves alone. -/
def total (reader : Reader) (x y : Number) : Number :=
  match x.int?, y.int? with
  | some m, some n => if (m + n).natAbs ≤ 2 * reader.bytes.length then .ofInt (m + n) else x + y
  | _, _ => x + y

/-- How many bytes are left. -/
def available (reader : Reader) : Number :=
  reader.total (.ofNat reader.bytes.length) reader.position.neg

/-- How many bits are left. -/
def availableBits (reader : Reader) : Number :=
  reader.available * .ofNat 8

/-- Where the whole part of a position lies among the bytes. One below zero counts from their end,
and one that is outside is moved to the nearest end. -/
def index (reader : Reader) (position : Number) : Nat :=
  if position.whole < 0 then (reader.bytes.length + position.whole).toNat
  else min position.whole.toNat reader.bytes.length

/-- The bytes between two positions. -/
def between (reader : Reader) (start stop : Number) : Bytes :=
  (reader.bytes.drop (reader.index start)).take (reader.index stop - reader.index start)

/-- Take exactly `count` bytes. -/
def take (count : Number) : Attempt Reader Bytes := fun reader =>
  if reader.available < count then
    .error ((ReadError.shortage count reader.available).toFailure reader.peer) reader
  else
    let stop := reader.total reader.position count
    .ok (reader.between reader.position stop) { reader with position := stop }

/-- Take a field that is `bits` wide. -/
def read (bits : Number) : Attempt Reader Number := fun reader =>
  match fieldWidth? bits with
  | none => .error ((ReadError.width bits).toFailure reader.peer) reader
  | some width =>
    match take (.ofNat width) reader with
    | .ok bytes after =>
      .ok (if reader.position.nat?.isSome then .ofNat (Bytes.toNat bytes) else .nan) after
    | .error e reader => .error e reader

/-! ### Whole positions -/

section

variable {reader : Reader} {position count : Nat}

/-- The total of whole amounts that is not too large for the bytes is exact. -/
theorem total_ofInt {m n : Int} (h : (m + n).natAbs ≤ 2 * reader.bytes.length) :
    reader.total (.ofInt m) (.ofInt n) = .ofInt (m + n) := by
  simp only [total, Number.int?_ofInt, if_pos h]

/-- A whole position lies where it says. -/
theorem index_ofNat (h : position ≤ reader.bytes.length) :
    reader.index (.ofNat position) = position := by
  rw [index, Number.whole_ofNat, if_neg (by omega), Int.toNat_natCast, Nat.min_eq_left h]

/-- What is behind a whole position is left. -/
theorem available_of_position (hposition : reader.position = .ofNat position)
    (h : position ≤ reader.bytes.length) :
    reader.available = .ofNat (reader.bytes.length - position) := by
  rw [available, hposition, Number.neg_ofNat, ← Number.ofInt_natCast, total_ofInt (by omega),
    ← Number.ofInt_natCast]
  congr 1
  omega

/-- Asking for no more than there is gives the next bytes and moves behind them. -/
theorem take_of_le (hposition : reader.position = .ofNat position)
    (h : position + count ≤ reader.bytes.length) :
    take (.ofNat count) reader = .ok ((reader.bytes.drop position).take count)
      { reader with position := .ofNat (position + count) } := by
  have havailable := available_of_position hposition (by omega)
  have henough : ¬ reader.available < .ofNat count := by
    rw [havailable, Number.ofNat_lt_ofNat]
    omega
  have hstop : reader.total (.ofNat position) (.ofNat count) = .ofNat (position + count) := by
    rw [← Number.ofInt_natCast, ← Number.ofInt_natCast,
      total_ofInt (by omega), ← Number.ofInt_natCast]
    rfl
  have hcount : position + count - position = count := by omega
  simp only [take, if_neg henough, hposition, hstop, between, index_ofNat h,
    index_ofNat (Nat.le_of_add_right_le h), hcount]

/-- Asking for more than there is changes nothing. -/
theorem take_of_gt (hposition : reader.position = .ofNat position)
    (hbehind : position ≤ reader.bytes.length) (h : reader.bytes.length < position + count) :
    take (.ofNat count) reader = .error ((ReadError.shortage (.ofNat count)
      (.ofNat (reader.bytes.length - position))).toFailure reader.peer) reader := by
  have havailable := available_of_position hposition hbehind
  have hmore : reader.available < .ofNat count := by
    rw [havailable, Number.ofNat_lt_ofNat]
    omega
  rw [take, if_pos hmore, havailable]

/-- Asking for as many bytes less than none as were taken moves back before them. -/
theorem take_of_back (hposition : reader.position = .ofNat (position + count))
    (h : position + count ≤ reader.bytes.length) :
    take (.ofInt (-count)) reader = .ok [] { reader with position := .ofNat position } := by
  have henough : ¬ reader.available < .ofInt (-count) := by
    rw [available_of_position hposition h, ← Number.ofInt_natCast, Number.ofInt_lt_ofInt]
    omega
  have hstop : reader.total (.ofNat (position + count)) (.ofInt (-count)) = .ofNat position := by
    rw [← Number.ofInt_natCast, ← Number.ofInt_natCast, total_ofInt (by omega)]
    congr 1
    omega
  -- nothing lies between the two positions, because the second one comes first
  have hnone : position - (position + count) = 0 := by omega
  simp only [take, if_neg henough, hstop, between, hposition, index_ofNat h,
    index_ofNat (Nat.le_of_add_right_le h), hnone, List.take_zero]

/-- A field at a whole position is the number that the next bytes make up. -/
theorem read_of_le {width : Nat} (hlow : 1 ≤ width) (hhigh : width ≤ 4)
    (hposition : reader.position = .ofNat position)
    (h : position + width ≤ reader.bytes.length) :
    read (.ofNat (8 * width)) reader =
      .ok (.ofNat (Bytes.toNat ((reader.bytes.drop position).take width)))
        { reader with position := .ofNat (position + width) } := by
  have hwidth : fieldWidth? (.ofNat (8 * width)) = some width :=
    fieldWidth?_eq_some_iff.mpr ⟨rfl, hlow, hhigh⟩
  simp only [read, hwidth, take_of_le hposition h, hposition]
  simp

end

end Reader

end SignedHandshake.Wire
