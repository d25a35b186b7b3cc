import Mathlib.Data.List.Basic
import Mathlib.Data.List.Induction
import SignedHandshake.Proofs.Attempt.Rules
import SignedHandshake.Proofs.Bytes.HexPairs

/-!
# Reading hexadecimal text

What a text is read as, and where it is refused, is known for every sequence of units
(**`Hex.decode_exact`**), and written text is read back (**`Hex.decode_encode_letters`**).
-/

namespace SignedHandshake.Hex

/-!
## Which texts are read as bytes

A text is read pair by pair, and a pair need not consist of digits to be read, so a text may
have units in it that are no digits and be read all the same (`Hex.decode_stray`). What a text
is read as, and where it is refused, is known for every sequence of units
(**`Hex.decode_exact`**): those that consist of digits alone are exactly the ones that come
back, in small letters, when what was read is written again.

Proof structure: a text is read if all its pairs are (`Reads`), and refused at the first that is
not, both by induction on the pairs (`decodePairs_eq_ok_iff`, `decodePairs_eq_error_iff`). Digits
are read as what is written with them, and as nothing else (`reads_digits_iff`).
-/

open Text (smallUnit)

variable {high low : UInt16} {units : List UInt16} {bytes : Bytes}

/-! ### Texts -/

/-- What units are read as, pair by pair. A number that is no byte is taken modulo 256. -/
inductive Reads : List UInt16 → Bytes → Prop where
  | nil : Reads [] []
  | cons {high low : UInt16} {value : Int} {rest : List UInt16} {bytes : Bytes}
    (hpair : ReadsAs high low value) (hrest : Reads rest bytes) :
    Reads (high :: low :: rest) (UInt8.ofInt value :: bytes)

/-- Two units make a byte. -/
theorem Reads.length_eq (h : Reads units bytes) : units.length = 2 * bytes.length := by
  induction h with
  | nil => rfl
  | cons _ _ ih =>
    rw [List.length_cons, List.length_cons, List.length_cons, ih]
    omega

theorem decodePairs_cons (offset : Nat) (high low : UInt16) (rest : List UInt16) :
    decodePairs offset (high :: low :: rest) =
      match leadingInt? [high, low] with
      | none => .error (.notHex offset)
      | some value => (decodePairs (offset + 2) rest).map (UInt8.ofInt value :: ·) := by
  rfl

theorem decodePairs_eq_ok_iff {offset : Nat} :
    decodePairs offset units = .ok bytes ↔ Reads units bytes := by
  constructor
  · intro h
    induction units using List.twoStepInduction generalizing offset bytes with
    | nil =>
      cases h
      exact .nil
    | singleton => cases h
    | cons_cons high low rest ih =>
      rw [decodePairs_cons] at h
      -- the first pair has to be read, and the others by induction
      cases hvalue : leadingInt? [high, low] with
      | none =>
        rw [hvalue] at h
        cases h
      | some value =>
        rw [hvalue] at h
        obtain ⟨others, hothers, rfl⟩ := except_map_eq_ok_iff.mp h
        exact .cons (leadingInt?_pair_eq_some_iff.mp hvalue) (ih hothers)
  · intro h
    induction h generalizing offset with
    | nil => rfl
    | cons hpair _ ih =>
      rw [decodePairs_cons, leadingInt?_pair_eq_some_iff.mpr hpair]
      exact except_map_eq_ok_iff.mpr ⟨_, ih, rfl⟩

/-- The first pair that cannot be read is where whole pairs are refused. -/
theorem decodePairs_eq_error_iff {offset : Nat} {e : DecodeError} (heven : units.length % 2 = 0) :
    decodePairs offset units = .error e ↔ ∃ front bytes high low rest,
      units = front ++ high :: low :: rest ∧ Reads front bytes ∧
        (∀ value, ¬ ReadsAs high low value) ∧
        e = .notHex (offset + front.length) := by
  constructor
  · intro h
    induction units using List.twoStepInduction generalizing offset with
    | nil => cases h
    | singleton => cases heven
    | cons_cons high low rest ih =>
      rw [decodePairs_cons] at h
      cases hvalue : leadingInt? [high, low] with
      | none =>
        rw [hvalue] at h
        cases h
        -- the refused pair is the first one
        refine ⟨[], [], high, low, rest, rfl, .nil, fun value hread => ?_, rfl⟩
        rw [leadingInt?_pair_eq_some_iff.mpr hread] at hvalue
        cases hvalue
      | some value =>
        rw [hvalue] at h
        -- the refused pair is further behind
        have hrest : rest.length % 2 = 0 := by
          rw [List.length_cons, List.length_cons] at heven
          omega
        obtain ⟨front, others, first, second, behind, rfl, hfront, hnone, rfl⟩ :=
          ih hrest (except_map_eq_error_iff.mp h)
        refine ⟨high :: low :: front, _, first, second, behind, rfl,
          .cons (leadingInt?_pair_eq_some_iff.mp hvalue) hfront, hnone, ?_⟩
        rw [List.length_cons, List.length_cons, Nat.add_assoc, Nat.add_comm 2]
  · rintro ⟨front, bytes, high, low, rest, rfl, hfront, hnone, rfl⟩
    clear heven
    induction hfront generalizing offset with
    | nil =>
      have hpair : leadingInt? [high, low] = none :=
        Option.eq_none_iff_forall_ne_some.mpr fun value hvalue =>
          hnone value (leadingInt?_pair_eq_some_iff.mp hvalue)
      rw [List.nil_append, decodePairs_cons, hpair]
      rfl
    | cons hpair _ ih =>
      rw [List.cons_append, List.cons_append, decodePairs_cons,
        leadingInt?_pair_eq_some_iff.mpr hpair]
      refine except_map_eq_error_iff.mpr (ih.trans ?_)
      rw [List.length_cons, List.length_cons, Nat.add_assoc, Nat.add_comm 2]

/-! ### Digits -/

/-- The digits that bytes are written as are units of the text. -/
theorem units_encode (bytes : Bytes) :
    (Text.ofString (encode bytes)).units =
      bytes.flatMap fun byte => [digitUnit (byte.toNat / 16), digitUnit (byte.toNat % 16)] := by
  have hsmall : ∀ n < 16, Text.unitsOfCode (digit n).toNat = [digitUnit n] := by decide
  show ((encode bytes).toList.map Char.toNat).flatMap Text.unitsOfCode = _
  rw [encode, String.toList_ofList]
  induction bytes with
  | nil => rfl
  | cons byte rest ih =>
    have hbyte := byte.toNat_lt
    rw [List.flatMap_cons, List.flatMap_cons, List.map_append, List.flatMap_append, ih]
    simp only [List.map_cons, List.map_nil, List.flatMap_cons, List.flatMap_nil,
      hsmall _ (show byte.toNat / 16 < 16 by omega), hsmall _ (show byte.toNat % 16 < 16 by omega)]
    rfl

/-- The byte of two digits. -/
theorem toNat_ofInt {n : Nat} (h : n < 256) : (UInt8.ofInt (n : Int)).toNat = n := by
  have hmod : ((n : Int) % 2 ^ 8).toNat = n := by omega
  rw [UInt8.ofInt, hmod]
  exact UInt8.toNat_ofNat_of_lt h

/-- **Digits are read as what is written with them.** A text consists of digits and is read as
`bytes` exactly if it is what `bytes` are written as, with its letters in either case. -/
theorem reads_digits_iff :
    (Reads units bytes ∧ ∀ unit ∈ units, IsDigit unit) ↔
      units.map smallUnit = (Text.ofString (encode bytes)).units := by
  rw [units_encode]
  constructor
  · rintro ⟨hreads, hdigits⟩
    induction hreads with
    | nil => rfl
    | @cons high low value rest bytes hpair _ ih =>
      have hrest :=
        ih fun unit hunit => hdigits unit (List.mem_cons_of_mem _ (List.mem_cons_of_mem _ hunit))
      obtain ⟨h, hhigh⟩ := isDigit_iff.mp (hdigits high List.mem_cons_self)
      obtain ⟨l, hlow⟩ := isDigit_iff.mp (hdigits low (List.mem_cons_of_mem _ List.mem_cons_self))
      -- two digits are read in one way only
      have hvalue : ((16 * h + l : Nat) : Int) = value := by
        have hread := leadingInt?_pair_eq_some_iff.mpr (ReadsAs.digits hhigh hlow)
        rw [leadingInt?_pair_eq_some_iff.mpr hpair] at hread
        exact (Option.some.inj hread).symm
      have hh := lt_of_unitValue? hhigh
      have hl := lt_of_unitValue? hlow
      have hbyte : (UInt8.ofInt value).toNat = 16 * h + l := by
        rw [← hvalue]
        exact toNat_ofInt (by omega)
      have hfirst : (UInt8.ofInt value).toNat / 16 = h := by omega
      have hsecond : (UInt8.ofInt value).toNat % 16 = l := by omega
      rw [List.map_cons, List.map_cons, List.flatMap_cons, hrest, hfirst, hsecond,
        (smallUnit_eq_digitUnit_iff hh).mpr hhigh, (smallUnit_eq_digitUnit_iff hl).mpr hlow]
      rfl
  · intro h
    induction bytes generalizing units with
    | nil =>
      rw [List.flatMap_nil, List.map_eq_nil_iff] at h
      subst h
      exact ⟨.nil, nofun⟩
    | cons byte bytes ih =>
      rw [List.flatMap_cons, List.cons_append, List.cons_append, List.nil_append] at h
      obtain ⟨high, units, rfl, hhigh, h⟩ := List.map_eq_cons_iff.mp h
      obtain ⟨low, rest, rfl, hlow, h⟩ := List.map_eq_cons_iff.mp h
      obtain ⟨hrest, hdigits⟩ := ih h
      have hbyte := byte.toNat_lt
      have hhigh := (smallUnit_eq_digitUnit_iff (by omega)).mp hhigh
      have hlow := (smallUnit_eq_digitUnit_iff (by omega)).mp hlow
      have hsame : UInt8.ofInt ((16 * (byte.toNat / 16) + byte.toNat % 16 : Nat) : Int) = byte := by
        rw [← UInt8.toNat_inj, toNat_ofInt (by omega)]
        omega
      have hreads := Reads.cons (ReadsAs.digits hhigh hlow) hrest
      rw [hsame] at hreads
      refine ⟨hreads, fun unit hunit => ?_⟩
      rcases List.mem_cons.mp hunit with rfl | hunit
      · exact isDigit_iff.mpr ⟨_, hhigh⟩
      rcases List.mem_cons.mp hunit with rfl | hunit
      · exact isDigit_iff.mpr ⟨_, hlow⟩
      · exact hdigits unit hunit

/-- Digits are read, if they come in pairs. -/
theorem exists_reads (heven : units.length % 2 = 0) (hdigits : ∀ unit ∈ units, IsDigit unit) :
    ∃ bytes, Reads units bytes := by
  induction units using List.twoStepInduction with
  | nil => exact ⟨[], .nil⟩
  | singleton => cases heven
  | cons_cons high low rest ih =>
    have hbehind : rest.length % 2 = 0 := by
      rw [List.length_cons, List.length_cons] at heven
      omega
    obtain ⟨bytes, hrest⟩ := ih hbehind fun unit hunit =>
      hdigits unit (List.mem_cons_of_mem _ (List.mem_cons_of_mem _ hunit))
    obtain ⟨h, hhigh⟩ := isDigit_iff.mp (hdigits high List.mem_cons_self)
    obtain ⟨l, hlow⟩ := isDigit_iff.mp (hdigits low (List.mem_cons_of_mem _ List.mem_cons_self))
    exact ⟨_, .cons (.digits hhigh hlow) hrest⟩

/-! ### Whole texts -/

theorem decode_eq_ok_iff {text : Text} : decode text = .ok bytes ↔ Reads text.units bytes := by
  unfold decode
  rw [except_ite_error_eq_ok_iff, decodePairs_eq_ok_iff, and_iff_right_iff_imp]
  intro h
  have hlength := h.length_eq
  omega

/-- **Which texts are read, as what, and where the others are refused.** Whatever the units of a
text are, it is read pair by pair, is refused as a whole if its length is odd, and otherwise at the
first pair that is not read. Texts that consist of digits are read, and are those that come back, in
small letters, when what was read is written again. No other text does, also if it is read. -/
theorem decode_exact (text : Text) :
    (∀ bytes, decode text = .ok bytes ↔ Reads text.units bytes) ∧
      (decode text = .error .oddLength ↔ text.units.length % 2 = 1) ∧
      (∀ offset, decode text = .error (.notHex offset) ↔ text.units.length % 2 = 0 ∧
        ∃ front bytes high low rest, text.units = front ++ high :: low :: rest ∧
          front.length = offset ∧
          Reads front bytes ∧ ∀ value, ¬ ReadsAs high low value) ∧
      ((text.units.length % 2 = 0 ∧ ∀ unit ∈ text.units, IsDigit unit) ↔
        ∃ bytes, decode text = .ok bytes ∧
          (Text.ofString (encode bytes)).units = text.units.map smallUnit) := by
  refine ⟨fun bytes => decode_eq_ok_iff, ?_, fun offset => ?_, ?_⟩
  · unfold decode
    -- whole pairs are never refused for their number
    by_cases heven : text.units.length % 2 = 0
    · rw [if_pos heven, decodePairs_eq_error_iff heven]
      refine iff_of_false ?_ (by omega)
      rintro ⟨_, _, _, _, _, -, -, -, h⟩
      cases h
    · rw [if_neg heven]
      exact iff_of_true rfl (by omega)
  · unfold decode
    by_cases heven : text.units.length % 2 = 0
    · rw [if_pos heven, decodePairs_eq_error_iff heven, and_iff_right heven]
      constructor
      · rintro ⟨front, bytes, high, low, rest, hunits, hfront, hnone, hoffset⟩
        rw [Nat.zero_add] at hoffset
        exact ⟨front, bytes, high, low, rest, hunits, (DecodeError.notHex.inj hoffset).symm,
          hfront, hnone⟩
      · rintro ⟨front, bytes, high, low, rest, hunits, hlength, hfront, hnone⟩
        rw [← hlength]
        exact ⟨front, bytes, high, low, rest, hunits, hfront, hnone, by rw [Nat.zero_add]⟩
    · rw [if_neg heven]
      exact iff_of_false nofun fun h => heven h.1
  · constructor
    · rintro ⟨heven, hdigits⟩
      -- texts of digits are read, and are what is written for the bytes
      obtain ⟨bytes, hreads⟩ := exists_reads heven hdigits
      exact ⟨bytes, decode_eq_ok_iff.mpr hreads, (reads_digits_iff.mp ⟨hreads, hdigits⟩).symm⟩
    · rintro ⟨bytes, hdecode, hunits⟩
      obtain ⟨hreads, hdigits⟩ := reads_digits_iff.mpr hunits.symm
      have hlength := hreads.length_eq
      exact ⟨by omega, hdigits⟩

/-- A unit that is no digit need not keep a text from being read: here it is a `g`
behind a digit. -/
theorem decode_stray :
    decode ("1g" : Text) = .ok [0x01] ∧
      ¬ ((∃ e, decode ("1g" : Text) = .error e) ∨
        (∀ unit ∈ ("1g" : Text).units, IsDigit unit) ∧ ∃ bytes, decode ("1g" : Text) = .ok bytes ∧
          (Text.ofString (encode bytes)).units = ("1g" : Text).units.map smallUnit) := by
  have hread : decode ("1g" : Text) = .ok [0x01] := by rfl
  refine ⟨hread, ?_⟩
  rintro (⟨e, he⟩ | ⟨hdigits, -⟩)
  · rw [hread] at he
    cases he
  · exact absurd (hdigits 0x67 (by decide)) (by decide)

end SignedHandshake.Hex

/-!
## Hexadecimal text there and back

What bytes are written as is read as these bytes, also if someone has changed the case of its
letters, and no other text of digits is (**`Hex.decode_encode_letters`**). Written text is as long
as it has to be, and byte strings that are put together are written as what they are written as.
-/

namespace SignedHandshake.Hex

open Text (smallUnit)

/-- The digits that there are. -/
def alphabet : List Char :=
  "0123456789abcdef".toList

theorem digit_mem_alphabet : ∀ n < 16, digit n ∈ alphabet := by
  decide

theorem toList_encode (bytes : Bytes) :
    (encode bytes).toList = bytes.flatMap fun byte =>
      [digit (byte.toNat / 16), digit (byte.toNat % 16)] :=
  String.toList_ofList

/-- Two digits for each byte. -/
theorem length_encode (bytes : Bytes) : (encode bytes).length = 2 * bytes.length := by
  rw [← String.length_toList, toList_encode]
  induction bytes with
  | nil => rfl
  | cons byte rest ih =>
    rw [List.flatMap_cons, List.length_append, ih, List.length_cons, List.length_cons,
      List.length_cons, List.length_nil]
    omega

theorem mem_alphabet_of_mem_encode {bytes : Bytes} {c : Char} (h : c ∈ (encode bytes).toList) :
    c ∈ alphabet := by
  rw [toList_encode, List.mem_flatMap] at h
  obtain ⟨byte, -, h⟩ := h
  have hbyte := byte.toNat_lt
  rcases List.mem_cons.mp h with rfl | h
  · exact digit_mem_alphabet _ (by omega)
  · rw [List.mem_singleton.mp h]
    exact digit_mem_alphabet _ (by omega)

/-- The letters among the digits are small already. -/
theorem map_smallUnit_encode (bytes : Bytes) :
    (Text.ofString (encode bytes)).units.map smallUnit = (Text.ofString (encode bytes)).units := by
  have hsmall : ∀ n < 16, smallUnit (digitUnit n) = digitUnit n := by decide
  rw [units_encode, List.map_flatMap]
  refine List.flatMap_congr fun byte _ => ?_
  have hbyte := byte.toNat_lt
  rw [List.map_cons, List.map_cons, List.map_nil, hsmall _ (by omega), hsmall _ (by omega)]

/-- What is written for two byte strings, one behind the other. -/
theorem encode_append (left right : Bytes) :
    encode (left ++ right) = encode left ++ encode right := by
  rw [encode, List.flatMap_append, String.ofList_append]
  rfl

/-- **Bytes are read back from what they are written as, in either case of its letters.** They are
written as two characters each, which are digits with small letters, and the texts that are read as
them are, among those that consist of digits, exactly the ones with these letters. Byte strings that
are put together are written as what each is written as. -/
theorem decode_encode_letters (bytes : Bytes) :
    (encode bytes).length = 2 * bytes.length ∧ (∀ c ∈ (encode bytes).toList, c ∈ alphabet) ∧
      (∀ text : Text, text.SameLetters (encode bytes) ↔
        decode text = .ok bytes ∧ ∀ unit ∈ text.units, IsDigit unit) ∧
      ∀ other : Bytes, encode (Bytes.concat [bytes, other]) = encode bytes ++ encode other := by
  refine ⟨length_encode bytes, fun c => mem_alphabet_of_mem_encode, fun text => ?_, fun other => ?_⟩
  · rw [decode_eq_ok_iff, reads_digits_iff, Text.SameLetters, map_smallUnit_encode]
  · rw [Bytes.concat_eq_flatten, List.flatten_cons, List.flatten_singleton, encode_append]

end SignedHandshake.Hex
