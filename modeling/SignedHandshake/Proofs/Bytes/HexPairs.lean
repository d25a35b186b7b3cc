import SignedHandshake.Bytes.Basic
import SignedHandshake.Proofs.Text.Case

/-!
# Pairs of units in hexadecimal text

Two units are read as a number, and they need not be two digits for that: a blank or a sign may
stand in front of a single digit, and anything at all behind one, except that `0x` is no digit with
something behind it. `Hex.ReadsAs` lists the ways there are, and it is complete
(**`Hex.leadingInt?_pair_eq_some_iff`**).

Proof structure: the cases are those of the first unit, with one lemma for each of them
(`leadingInt?_of_blank`, `leadingInt?_plus`, `leadingInt?_minus`, `leadingInt?_of_plain`). Digits
are tied to what is written by a single fact about one unit (`smallUnit_eq_digitUnit_iff`).
-/

namespace SignedHandshake.Hex

open Text (isBlankUnit smallUnit toNat_smallUnit)

variable {unit high low : UInt16}

/-! ## Single units -/

/-- The unit is one of `0` to `9`, `A` to `F` and `a` to `f`. -/
def IsDigit (unit : UInt16) : Prop :=
  (0x30 ≤ unit.toNat ∧ unit.toNat ≤ 0x39) ∨ (0x41 ≤ unit.toNat ∧ unit.toNat ≤ 0x46) ∨
    (0x61 ≤ unit.toNat ∧ unit.toNat ≤ 0x66)

instance (unit : UInt16) : Decidable (IsDigit unit) :=
  inferInstanceAs (Decidable (_ ∨ _))

/-- The unit that a digit is written as. -/
def digitUnit (n : Nat) : UInt16 :=
  UInt16.ofNat (digit n).toNat

theorem unitValue?_eq_some_iff {n : Nat} :
    unitValue? unit = some n ↔
      (0x30 ≤ unit.toNat ∧ unit.toNat ≤ 0x39 ∧ n = unit.toNat - 0x30) ∨
      (0x41 ≤ unit.toNat ∧ unit.toNat ≤ 0x46 ∧ n = unit.toNat - 0x37) ∨
      (0x61 ≤ unit.toNat ∧ unit.toNat ≤ 0x66 ∧ n = unit.toNat - 0x57) := by
  unfold unitValue?
  simp only
  split
  next => rw [Option.some.injEq]; omega
  next =>
    split
    next => rw [Option.some.injEq]; omega
    next =>
      split
      next => rw [Option.some.injEq]; omega
      next => exact iff_of_false nofun (by omega)

/-- Digits are the units that have a value. -/
theorem isDigit_iff : IsDigit unit ↔ ∃ n, unitValue? unit = some n := by
  simp only [unitValue?_eq_some_iff, IsDigit]
  constructor
  · rintro (h | h | h)
    · exact ⟨_, .inl ⟨h.1, h.2, rfl⟩⟩
    · exact ⟨_, .inr (.inl ⟨h.1, h.2, rfl⟩)⟩
    · exact ⟨_, .inr (.inr ⟨h.1, h.2, rfl⟩)⟩
  · rintro ⟨n, h⟩
    omega

theorem unitValue?_eq_none_iff : unitValue? unit = none ↔ ¬ IsDigit unit := by
  rw [isDigit_iff, Option.eq_none_iff_forall_ne_some, not_exists]

theorem lt_of_unitValue? {n : Nat} (h : unitValue? unit = some n) : n < 16 := by
  rw [unitValue?_eq_some_iff] at h
  omega

/-- Neither a blank nor a sign is a digit. -/
theorem unitValue?_of_blank (h : isBlankUnit unit = true) : unitValue? unit = none := by
  rw [unitValue?_eq_none_iff]
  simp only [isBlankUnit, Text.isBlankCode, Bool.or_eq_true, Bool.and_eq_true, decide_eq_true_eq,
    beq_iff_eq] at h
  unfold IsDigit
  omega

theorem toNat_digitUnit :
    ∀ n < 16, (digitUnit n).toNat = if n < 10 then 0x30 + n else 0x57 + n := by
  decide

/-- A unit has a value exactly if it is the digit that is written for it, in small letters. -/
theorem smallUnit_eq_digitUnit_iff {n : Nat} (h : n < 16) :
    smallUnit unit = digitUnit n ↔ unitValue? unit = some n := by
  rw [← UInt16.toNat_inj, toNat_smallUnit, toNat_digitUnit n h, unitValue?_eq_some_iff]
  split <;> split <;> omega

/-! ## Pairs -/

/-- The two units are `0x` or `0X`, which is taken for what stands in front of a number. -/
def IsBaseMark (high low : UInt16) : Prop :=
  high = 0x30 ∧ (low = 0x78 ∨ low = 0x58)

instance (high low : UInt16) : Decidable (IsBaseMark high low) :=
  inferInstanceAs (Decidable (_ ∧ _))

/-- The number that two units are read as. -/
inductive ReadsAs (high low : UInt16) : Int → Prop where
  /-- Both are digits. -/
  | digits {h l : Nat} (hhigh : unitValue? high = some h) (hlow : unitValue? low = some l) :
    ReadsAs high low ((16 * h + l : Nat) : Int)
  /-- What is behind a digit is passed over. -/
  | front {h : Nat} (hhigh : unitValue? high = some h) (hlow : ¬ IsDigit low)
    (hmark : ¬ IsBaseMark high low) : ReadsAs high low h
  /-- A blank or a plus in front of a digit is passed over. -/
  | back {l : Nat} (hhigh : isBlankUnit high = true ∨ high = 0x2B)
      (hlow : unitValue? low = some l) :
    ReadsAs high low l
  /-- A minus in front of a digit counts. -/
  | negative {l : Nat} (hhigh : high = 0x2D) (hlow : unitValue? low = some l) :
      ReadsAs high low (-l)

theorem leadingDigits?_one (unit : UInt16) : leadingDigits? [unit] = unitValue? unit := by
  rw [leadingDigits?, List.map_cons, List.map_nil]
  cases unitValue? unit with
  | none => rfl
  | some n =>
    show some (0 * 16 + n) = some n
    rw [Nat.zero_mul, Nat.zero_add]

theorem leadingDigits?_two (high low : UInt16) :
    leadingDigits? [high, low] =
      (unitValue? high).map fun h => ((unitValue? low).map fun l => 16 * h + l).getD h := by
  rw [leadingDigits?, List.map_cons, List.map_cons, List.map_nil]
  cases unitValue? high with
  | none => rfl
  | some h =>
    cases unitValue? low with
    | none =>
      show some (0 * 16 + h) = some h
      rw [Nat.zero_mul, Nat.zero_add]
    | some l =>
      show some ((0 * 16 + h) * 16 + l) = some (16 * h + l)
      rw [Nat.zero_mul, Nat.zero_add, Nat.mul_comm]

theorem dropBaseMark_one (unit : UInt16) : dropBaseMark [unit] = [unit] := by
  unfold dropBaseMark
  split <;> simp_all

theorem leadingInt?_of_blank (h : isBlankUnit high = true) (low : UInt16) :
    leadingInt? [high, low] = (unitValue? low).map fun n : Nat => (n : Int) := by
  unfold leadingInt?
  rw [List.dropWhile_cons_of_pos h]
  cases hlow : isBlankUnit low with
  | true =>
    rw [List.dropWhile_cons_of_pos hlow, unitValue?_of_blank hlow]
    rfl
  | false =>
    rw [List.dropWhile_cons_of_neg (by simp [hlow])]
    -- a sign with nothing behind it is no number
    split
    next rest hrest =>
      cases hrest
      rfl
    next rest hrest =>
      cases hrest
      rfl
    next => rw [dropBaseMark_one, leadingDigits?_one]

theorem leadingInt?_plus (low : UInt16) :
    leadingInt? [0x2B, low] = (unitValue? low).map fun n : Nat => (n : Int) := by
  show (leadingDigits? (dropBaseMark [low])).map _ = _
  rw [dropBaseMark_one, leadingDigits?_one]

theorem leadingInt?_minus (low : UInt16) :
    leadingInt? [0x2D, low] = (unitValue? low).map fun n : Nat => -(n : Int) := by
  show (leadingDigits? (dropBaseMark [low])).map _ = _
  rw [dropBaseMark_one, leadingDigits?_one]

theorem dropBaseMark_of_mark (h : IsBaseMark high low) : dropBaseMark [high, low] = [] := by
  obtain ⟨rfl, rfl | rfl⟩ := h <;> rfl

theorem dropBaseMark_of_not_mark (h : ¬ IsBaseMark high low) :
    dropBaseMark [high, low] = [high, low] := by
  unfold dropBaseMark
  split
  next heq =>
    cases heq
    exact absurd ⟨rfl, .inl rfl⟩ h
  next heq =>
    cases heq
    exact absurd ⟨rfl, .inr rfl⟩ h
  next => rfl

/-- Without a blank or a sign in front, the digits are the first ones of the pair. -/
theorem leadingInt?_of_plain (hblank : ¬ isBlankUnit high = true) (hplus : high ≠ 0x2B)
    (hminus : high ≠ 0x2D) (low : UInt16) :
    leadingInt? [high, low] =
      (leadingDigits? (dropBaseMark [high, low])).map fun n : Nat => (n : Int) := by
  unfold leadingInt?
  rw [List.dropWhile_cons_of_neg hblank]
  split
  next heq =>
    cases heq
    exact absurd rfl hminus
  next heq =>
    cases heq
    exact absurd rfl hplus
  next => rfl

/-- So it is if the first unit is a digit. -/
theorem leadingInt?_of_digit {h : Nat} (hhigh : unitValue? high = some h) (low : UInt16) :
    leadingInt? [high, low] =
      (leadingDigits? (dropBaseMark [high, low])).map fun n : Nat => (n : Int) := by
  refine leadingInt?_of_plain (fun hblank => ?_) ?_ ?_ low
  · rw [unitValue?_of_blank hblank] at hhigh
    cases hhigh
  · rintro rfl
    cases hhigh
  · rintro rfl
    cases hhigh

/-- **What two units are read as**, whatever they are. -/
theorem leadingInt?_pair_eq_some_iff {value : Int} :
    leadingInt? [high, low] = some value ↔ ReadsAs high low value := by
  constructor
  · intro h
    -- a blank or a sign in front is skipped, and the second unit alone is read
    by_cases hblank : isBlankUnit high = true
    · rw [leadingInt?_of_blank hblank, Option.map_eq_some_iff] at h
      obtain ⟨l, hlow, rfl⟩ := h
      exact .back (.inl hblank) hlow
    by_cases hplus : high = 0x2B
    · rw [hplus, leadingInt?_plus, Option.map_eq_some_iff] at h
      obtain ⟨l, hlow, rfl⟩ := h
      exact .back (.inr hplus) hlow
    by_cases hminus : high = 0x2D
    · rw [hminus, leadingInt?_minus, Option.map_eq_some_iff] at h
      obtain ⟨l, hlow, rfl⟩ := h
      exact .negative hminus hlow
    rw [leadingInt?_of_plain hblank hplus hminus] at h
    -- otherwise both units are read, unless they are a base mark
    by_cases hmark : IsBaseMark high low
    · rw [dropBaseMark_of_mark hmark] at h
      cases h
    · rw [dropBaseMark_of_not_mark hmark, leadingDigits?_two, Option.map_map,
        Option.map_eq_some_iff] at h
      obtain ⟨first, hhigh, rfl⟩ := h
      cases hlow : unitValue? low with
      | none => exact .front hhigh (unitValue?_eq_none_iff.mp hlow) hmark
      | some second => exact .digits hhigh hlow
  · intro h
    cases h with
    | digits hhigh hlow =>
      -- no digit is the letter of a base mark
      have hmark : ¬ IsBaseMark high low := by
        rintro ⟨-, rfl | rfl⟩ <;> cases hlow
      rw [leadingInt?_of_digit hhigh, dropBaseMark_of_not_mark hmark, leadingDigits?_two,
        hhigh, hlow]
      rfl
    | front hhigh hlow hmark =>
      rw [leadingInt?_of_digit hhigh, dropBaseMark_of_not_mark hmark, leadingDigits?_two, hhigh,
        unitValue?_eq_none_iff.mpr hlow]
      rfl
    | back hhigh hlow =>
      rcases hhigh with hblank | rfl
      · rw [leadingInt?_of_blank hblank, hlow]
        rfl
      · rw [leadingInt?_plus, hlow]
        rfl
    | negative hhigh hlow =>
      rw [hhigh, leadingInt?_minus, hlow]
      rfl

end SignedHandshake.Hex
