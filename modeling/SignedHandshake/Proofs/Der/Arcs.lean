import Mathlib.Data.Nat.Digits.Defs
import Mathlib.Data.Rat.Floor
import SignedHandshake.Der.Basic
import SignedHandshake.Proofs.Attempt.Rules
import SignedHandshake.Proofs.Number.Exactness

/-!
# The arcs of object identifiers

An arc that binary64 can hold is written as its digits in base 128, the most significant one first,
without a zero in front and with the top bit set in every byte but the last (`arcBytes_ofNat`).
These bytes are read as the arc, whatever stands behind them (`readArcs_arcCode`). Neither way
rounds anything: what the last digit leaves out of a number that binary64 can hold is again such a
number, and so is its multiple by the base.

Proof structure: both loops take one digit at a time, the writer from the end and the reader from
the front, so both proofs are inductions along division by 128. What the writer has still to write
is `continued n`, and what the reader has read is `n` (`leadingDigits_ofNat`, `readArcs_continued`).
-/

namespace SignedHandshake.Der.ObjectIdentifier

/-- The digits of a number in base 128, the most significant one first, each with the mark
that more of them follow. -/
def continued (n : Nat) : Bytes :=
  ((Nat.digits 128 n).map fun digit => UInt8.ofNat (digit + 128)).reverse

/-- The digits of an arc in base 128, as few as there can be, with the mark on all but the last. -/
def arcCode (n : Nat) : Bytes :=
  continued (n / 128) ++ [UInt8.ofNat (n % 128)]

@[simp] theorem continued_zero : continued 0 = [] := by
  simp [continued]

theorem continued_of_pos {n : Nat} (h : 0 < n) :
    continued n = continued (n / 128) ++ [UInt8.ofNat (n % 128 + 128)] := by
  rw [continued, Nat.digits_def' (by decide) h, List.map_cons, List.reverse_cons]
  rfl

/-! ## Single digits -/

section

variable {digit : Nat}

theorem toNat_last (h : digit < 128) : (UInt8.ofNat digit).toNat = digit := by
  rw [UInt8.toNat_ofNat']
  omega

theorem toNat_marked (h : digit < 128) : (UInt8.ofNat (digit + 128)).toNat = digit + 128 := by
  rw [UInt8.toNat_ofNat']
  omega

theorem last_lt (h : digit < 128) : UInt8.ofNat digit < 0x80 := by
  rw [UInt8.lt_iff_toNat_lt, toNat_last h]
  exact h

theorem not_marked_lt (h : digit < 128) : ¬ UInt8.ofNat (digit + 128) < 0x80 := by
  rw [UInt8.lt_iff_toNat_lt, toNat_marked h]
  exact Nat.not_lt.mpr (Nat.le_add_left 128 digit)

/-- A byte below 128 is the last digit of its arc. -/
theorem eq_last_of_lt {byte : UInt8} (h : byte < 0x80) : UInt8.ofNat (byte.toNat % 128) = byte := by
  have hlt : byte.toNat < 128 := UInt8.lt_iff_toNat_lt.mp h
  rw [Nat.mod_eq_of_lt hlt, UInt8.ofNat_toNat]

/-- Any other byte is a digit with the mark. -/
theorem eq_marked_of_not_lt {byte : UInt8} (h : ¬ byte < 0x80) :
    UInt8.ofNat (byte.toNat % 128 + 128) = byte := by
  have hle : ¬ byte.toNat < 128 := fun hlt => h (UInt8.lt_iff_toNat_lt.mpr hlt)
  have hbyte := byte.toNat_lt
  rw [← UInt8.toNat_inj, UInt8.toNat_ofNat']
  omega

end

/-- The last byte of an arc is put behind the digits in front of it. -/
theorem arcCode_mul_add {byte : UInt8} (h : byte < 0x80) (n : Nat) :
    arcCode (n * 128 + byte.toNat % 128) = continued n ++ [byte] := by
  have hdiv : (n * 128 + byte.toNat % 128) / 128 = n := by omega
  have hmod : (n * 128 + byte.toNat % 128) % 128 = byte.toNat % 128 := by omega
  rw [arcCode, hdiv, hmod, eq_last_of_lt h]

/-- So is any other byte, unless all digits so far are zero. -/
theorem continued_mul_add {byte : UInt8} (h : ¬ byte < 0x80) {n : Nat}
    (hpositive : 0 < n * 128 + byte.toNat % 128) :
    continued (n * 128 + byte.toNat % 128) = continued n ++ [byte] := by
  have hdiv : (n * 128 + byte.toNat % 128) / 128 = n := by omega
  have hmod : (n * 128 + byte.toNat % 128) % 128 = byte.toNat % 128 := by omega
  rw [continued_of_pos hpositive, hdiv, hmod, eq_marked_of_not_lt h]

/-! ## Exact steps -/

section

variable {n : Nat}

/-- What the last digit leaves out can be held. -/
theorem isBinary64_div (h : Number.IsBinary64 n) : Number.IsBinary64 (n / 128 : Nat) :=
  Number.isBinary64_div_pow h 7

/-- Room for one more digit, made without rounding. -/
theorem ofNat_mul_base (h : Number.IsBinary64 n) :
    Number.ofNat (n / 128) * base = .ofNat (n / 128 * 128) :=
  Number.mul_ofNat (Number.isBinary64_div_pow_mul h 7)

/-- One more digit, read without rounding. -/
theorem ofNat_mul_base_add (h : Number.IsBinary64 n) :
    Number.ofNat (n / 128) * base + .ofNat (n % 128) = .ofNat n := by
  have hsum := Nat.div_add_mod' n 128
  rw [ofNat_mul_base h, Number.add_ofNat (by rwa [hsum]), hsum]

/-- One digit less, computed without rounding. -/
theorem dropDigit_ofNat (h : Number.IsBinary64 n) : dropDigit (.ofNat n) = .ofNat (n / 128) := by
  have hquotient : Number.ofNat n * .finite (1 / 128) = .finite (n / (128 : Nat)) := by
    show Number.nearest ((n : Rat) * (1 / 128)) = _
    have hheld := Number.isBinary64_mul_inv_pow h (show 7 ≤ 1074 by decide)
    norm_num at hheld
    rw [Number.nearest_of_isBinary64 (by norm_num; exact hheld)]
    norm_num [div_eq_mul_inv]
  rw [dropDigit, hquotient]
  show Number.finite (((n : Rat) / (128 : Nat)).floor : Rat) = Number.finite ((n / 128 : Nat) : Rat)
  have hfloor : ((n : Rat) / (128 : Nat)).floor = (n / 128 : Nat) :=
    Rat.floor_natCast_div_natCast n 128
  rw [hfloor, Int.cast_natCast]

end

/-! ## Reading -/

section

variable {arc : Number} {byte : UInt8} {rest : Bytes}

/-- A byte without the mark ends an arc. -/
theorem readArcs_of_lt (h : byte < 0x80) :
    readArcs arc (byte :: rest) =
      (readArcs (.ofNat 0) rest).map ((arc * base + .ofNat (byte.toNat % 128)) :: ·) := by
  rw [readArcs, if_pos h]

/-- A byte with the mark needs another one behind it. -/
theorem readArcs_of_not_lt (h : ¬ byte < 0x80) (hrest : rest ≠ []) :
    readArcs arc (byte :: rest) = readArcs (arc * base + .ofNat (byte.toNat % 128)) rest := by
  rw [readArcs, if_neg h, if_neg (by rwa [List.isEmpty_iff])]

end

section

variable {n : Nat} {tail : Bytes}

/-- Digits with the mark are taken in before what is behind them. Induction on the
number without its last digit. -/
theorem readArcs_continued (h : Number.IsBinary64 n) (htail : tail ≠ []) :
    readArcs (.ofNat 0) (continued n ++ tail) = readArcs (.ofNat n) tail := by
  induction n using Nat.strongRecOn generalizing tail with
  | ind n ih =>
    by_cases hzero : n = 0
    · rw [hzero, continued_zero, List.nil_append]
    · have hpositive : 0 < n := Nat.pos_of_ne_zero hzero
      have hdigit : n % 128 < 128 := Nat.mod_lt n (by decide)
      have hstep := ih (n / 128) (Nat.div_lt_self hpositive (by decide)) (isBinary64_div h)
        (List.cons_ne_nil (UInt8.ofNat (n % 128 + 128)) tail)
      rw [continued_of_pos hpositive, List.append_assoc, List.singleton_append, hstep,
        readArcs_of_not_lt (not_marked_lt hdigit) htail, toNat_marked hdigit, Nat.add_mod_right,
        Nat.mod_mod, ofNat_mul_base_add h]

/-- An arc is read from its digits, and reading goes on behind them. -/
theorem readArcs_arcCode (h : Number.IsBinary64 n) (rest : Bytes) :
    readArcs (.ofNat 0) (arcCode n ++ rest) = (readArcs (.ofNat 0) rest).map (.ofNat n :: ·) := by
  have hdigit : n % 128 < 128 := Nat.mod_lt n (by decide)
  rw [arcCode, List.append_assoc, readArcs_continued (isBinary64_div h) (by simp),
    List.singleton_append, readArcs_of_lt (last_lt hdigit), toNat_last hdigit, Nat.mod_mod,
    ofNat_mul_base_add h]

/-- Arcs are read from their digits, one behind the other. -/
theorem readArcs_flatMap {arcs : List Nat} (h : ∀ n ∈ arcs, Number.IsBinary64 n) :
    readArcs (.ofNat 0) (arcs.flatMap arcCode) = .ok (arcs.map .ofNat) := by
  induction arcs with
  | nil => rfl
  | cons n rest ih =>
    rw [List.flatMap_cons, readArcs_arcCode (h n List.mem_cons_self),
      ih fun m hm => h m (List.mem_cons_of_mem n hm)]
    rfl

/-- The digits say where an arc ends: lists of arcs with the same bytes are the same. -/
theorem flatMap_arcCode_inj {arcs others : List Nat} (h : ∀ n ∈ arcs, Number.IsBinary64 n)
    (hothers : ∀ n ∈ others, Number.IsBinary64 n) :
    arcs.flatMap arcCode = others.flatMap arcCode ↔ arcs = others := by
  constructor
  · intro hsame
    have hread := readArcs_flatMap h
    rw [hsame, readArcs_flatMap hothers, Except.ok.injEq] at hread
    exact (List.map_injective_iff.mpr (fun _ _ => Number.ofNat_inj.mp) hread).symm
  · rintro rfl
    rfl

/-! ## Writing -/

/-- The digits of a number are put in front of those that are already written. Induction on the
fuel: there is enough of it for every bit. -/
theorem leadingDigits_ofNat (h : Number.IsBinary64 n) {fuel : Nat} (hfuel : n < 2 ^ fuel)
    (written : Bytes) : leadingDigits fuel (.ofNat n) written = continued n ++ written := by
  induction fuel generalizing n written with
  | zero =>
    obtain rfl : n = 0 := Nat.lt_one_iff.mp hfuel
    rw [leadingDigits, continued_zero, List.nil_append]
  | succ fuel ih =>
    unfold leadingDigits
    rw [Number.nat?_ofNat]
    match n with
    | 0 =>
      rw [continued_zero, List.nil_append]
      rfl
    | n + 1 =>
      -- one digit fewer needs one bit less of fuel
      have hless : (n + 1) / 128 < 2 ^ fuel := by
        rw [Nat.pow_succ] at hfuel
        omega
      show leadingDigits fuel (dropDigit _) (_ :: written) = _
      rw [dropDigit_ofNat h, ih (isBinary64_div h) hless, continued_of_pos (Nat.succ_pos n),
        List.append_assoc, List.singleton_append]

/-- **An arc is written as its digits in base 128**, as few as there can be. -/
theorem arcBytes_ofNat (h : Number.IsBinary64 n) : arcBytes (.ofNat n) = arcCode n := by
  have hfuel : n / 128 < 2 ^ (n.log2 + 1) := lt_of_le_of_lt (Nat.div_le_self n 128) Nat.lt_log2_self
  unfold arcBytes
  rw [Number.nat?_ofNat]
  show leadingDigits (n.log2 + 1) (dropDigit _) [UInt8.ofNat (n % 128)] = _
  rw [dropDigit_ofNat h, leadingDigits_ofNat (isBinary64_div h) hfuel, arcCode]

end

end SignedHandshake.Der.ObjectIdentifier
