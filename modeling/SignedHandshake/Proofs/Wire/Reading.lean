import SignedHandshake.Wire.Datagram

/-!
# What a reader has ahead of it

A reader that is only asked for whole counts is described by two things: how many bytes it has taken
and which bytes are still ahead. `Reader.At` says so, and the lemmas here say what one request does
to them. A field or a run of bytes that is completely there is taken off the front (`At.read`,
`At.take`); if it is cut short, the request fails as malformed input from the reader's peer and
takes nothing (`At.read_short`, `At.take_short`).
-/

namespace SignedHandshake.Wire

namespace Reader

variable {reader : Reader} {taken : Nat} {ahead : Bytes}

/-- The reader has taken `taken` bytes and has the bytes `ahead` in front of it. -/
structure At (reader : Reader) (taken : Nat) (ahead : Bytes) : Prop where
  position_eq : reader.position = .ofNat taken
  taken_le : taken ≤ reader.bytes.length
  drop_eq : reader.bytes.drop taken = ahead

/-- The reader after it took `count` further bytes. -/
def behind (reader : Reader) (taken count : Nat) : Reader :=
  { reader with position := .ofNat (taken + count) }

@[simp] theorem behind_behind (reader : Reader) (taken first second : Nat) :
    (reader.behind taken first).behind (taken + first) second =
      reader.behind taken (first + second) := by
  simp [behind, Nat.add_assoc]

/-- A reader that took nothing further is the reader it was. -/
theorem behind_zero (h : reader.position = .ofNat taken) : reader.behind taken 0 = reader := by
  rw [behind, Nat.add_zero, ← h]

/-- A new reader has everything ahead of it. -/
theorem at_start (bytes : Bytes) (peer : Option Peer) :
    At { bytes, peer } 0 bytes :=
  ⟨rfl, Nat.zero_le _, rfl⟩

namespace At

theorem length_eq (h : reader.At taken ahead) :
    reader.bytes.length = taken + ahead.length := by
  have hle := h.taken_le
  rw [← h.drop_eq, List.length_drop]
  omega

theorem available_eq (h : reader.At taken ahead) : reader.available = .ofNat ahead.length := by
  rw [available_of_position h.position_eq h.taken_le, ← h.drop_eq, List.length_drop]

/-- Moving behind the first part of what is ahead leaves the second part. -/
theorem behind (front : Bytes) {rest : Bytes} (h : reader.At taken (front ++ rest)) :
    (reader.behind taken front.length).At (taken + front.length) rest := by
  have hlength := h.length_eq
  rw [List.length_append] at hlength
  refine ⟨rfl, ?_, ?_⟩
  · show taken + front.length ≤ reader.bytes.length
    omega
  · show reader.bytes.drop (taken + front.length) = rest
    rw [← List.drop_drop, h.drop_eq, List.drop_left]

/-- Bytes that are there are taken. -/
theorem take {front rest : Bytes} (h : reader.At taken (front ++ rest)) :
    Reader.take (.ofNat front.length) reader =
      .ok front (reader.behind taken front.length) := by
  have hlength := h.length_eq
  rw [List.length_append] at hlength
  rw [take_of_le h.position_eq (by omega), h.drop_eq, List.take_left]
  rfl

/-- Bytes that are not there are not taken. -/
theorem take_short {count : Nat} (h : reader.At taken ahead) (hshort : ahead.length < count) :
    Reader.take (.ofNat count) reader =
      .error ((ReadError.shortage (.ofNat count) (.ofNat ahead.length)).toFailure reader.peer)
        reader := by
  have hlength := h.length_eq
  -- the failure says how many bytes were left, which is all that is ahead
  have hleft : reader.bytes.length - taken = ahead.length := by omega
  rw [take_of_gt h.position_eq h.taken_le (by omega), hleft]

/-- A field that is there is read. -/
theorem read (field : Bytes) {rest : Bytes} (h : reader.At taken (field ++ rest))
    (hlow : 1 ≤ field.length) (hhigh : field.length ≤ 4) :
    Reader.read (.ofNat (8 * field.length)) reader =
      .ok (.ofNat (Bytes.toNat field)) (reader.behind taken field.length) := by
  have hlength := h.length_eq
  rw [List.length_append] at hlength
  rw [read_of_le hlow hhigh h.position_eq (by omega), h.drop_eq, List.take_left]
  rfl

/-- A field that is cut short is not read. -/
theorem read_short (width : Nat) (h : reader.At taken ahead) (hlow : 1 ≤ width)
    (hhigh : width ≤ 4) (hshort : ahead.length < width) :
    Reader.read (.ofNat (8 * width)) reader =
      .error ((ReadError.shortage (.ofNat width) (.ofNat ahead.length)).toFailure reader.peer)
        reader := by
  have hwidth : fieldWidth? (.ofNat (8 * width)) = some width :=
    fieldWidth?_eq_some_iff.mpr ⟨rfl, hlow, hhigh⟩
  simp only [Reader.read, hwidth, h.take_short hshort]

/-! ### Fields of one and of two bytes -/

/-- A byte that is there is read. -/
theorem read_byte {byte : UInt8} {rest : Bytes} (h : reader.At taken (byte :: rest)) :
    Reader.read (.ofNat 8) reader = .ok (.ofNat byte.toNat) (reader.behind taken 1) := by
  have hread := At.read [byte] h (by simp) (by simp)
  have hvalue : Bytes.toNat [byte] = byte.toNat := by simp [Bytes.toNat]
  rw [hvalue] at hread
  exact hread

theorem behind_byte {byte : UInt8} {rest : Bytes} (h : reader.At taken (byte :: rest)) :
    (reader.behind taken 1).At (taken + 1) rest :=
  At.behind [byte] h

/-- Two bytes that are there are read as one number, high byte first. -/
theorem read_word {high low : UInt8} {rest : Bytes} (h : reader.At taken (high :: low :: rest)) :
    Reader.read (.ofNat 16) reader =
      .ok (.ofNat (256 * high.toNat + low.toNat)) (reader.behind taken 2) := by
  have hread := At.read [high, low] h (by simp) (by simp)
  have hvalue : Bytes.toNat [high, low] = 256 * high.toNat + low.toNat := by
    simp only [Bytes.toNat, List.foldl]
    omega
  rw [hvalue] at hread
  exact hread

end At

end Reader

end SignedHandshake.Wire
