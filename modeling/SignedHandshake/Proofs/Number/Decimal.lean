import Mathlib.Data.List.TakeWhile
import SignedHandshake.Number.Numerals
import SignedHandshake.Proofs.Number.Exactness

/-!
# Natural numbers in decimal

A natural number below 2^53 is written with its decimal digits (`text_ofNat`), and digits are read
as the number that they make up (`ofChars_toDigits`). All other numbers that are not below 2^53 are
told from these by their texts: there are sixteen characters at least, or one that is neither a
digit nor a point (`text_of_not_lt`).
-/

namespace SignedHandshake.Number

/-! ## Writing -/

/-- A natural number below 2^53 is written out. -/
theorem text_ofNat {n : Nat} (h : n < 2 ^ 53) : (ofNat n).text = toString n := by
  have hnum : (n : Rat).num = n := Rat.num_natCast n
  have hden : (n : Rat).den = 1 := Rat.den_natCast n
  show (if (n : Rat).num = 0 then "0" else _) = _
  by_cases hzero : n = 0
  · subst hzero
    rfl
  · have hnonzero : ¬ (n : Rat).num = 0 := by
      rw [hnum]
      exact_mod_cast hzero
    -- such a number is written without a power of ten
    have hsmall : (n : Rat).den = 1 ∧ (n : Rat).num.natAbs < 1 <<< 53 := by
      rw [hnum, hden]
      exact ⟨rfl, h⟩
    rw [if_neg hnonzero, if_pos hsmall, hnum]
    rfl

/-! ## Reading -/

/-- A digit is no blank. -/
theorem isBlank_of_isDigit {c : Char} (h : c.isDigit = true) : Text.isBlank c = false := by
  have hrange : 48 ≤ c.toNat ∧ c.toNat ≤ 57 := by
    simpa [Char.isDigit, UInt32.le_iff_toNat_le] using h
  rw [Bool.eq_false_iff]
  intro hblank
  simp only [Text.isBlank, Text.isBlankCode, Bool.or_eq_true, Bool.and_eq_true, decide_eq_true_eq,
    beq_iff_eq] at hblank
  omega

theorem digitValue?_of_isDigit {c : Char} (h : c.isDigit = true) :
    digitValue? 10 c = some (c.toNat - '0'.toNat) := by
  have hrange : 48 ≤ c.toNat ∧ c.toNat ≤ 57 := by
    simpa [Char.isDigit, UInt32.le_iff_toNat_le] using h
  have hvalue : c.toNat - 48 < 10 := by omega
  simp [digitValue?, hrange, hvalue]

section

variable {cs : List Char}

theorem trimList_of_digits (h : ∀ c ∈ cs, c.isDigit = true) : Text.trimList cs = cs := by
  have hkeep (items : List Char) (hitems : ∀ c ∈ items, c.isDigit = true) :
      items.dropWhile Text.isBlank = items := by
    cases items with
    | nil => rfl
    | cons c rest =>
      rw [List.dropWhile_cons_of_neg (by simp [isBlank_of_isDigit (hitems c List.mem_cons_self)])]
  rw [Text.trimList, Text.trimEnds, hkeep cs h, hkeep cs.reverse (by simpa using h),
    List.reverse_reverse]

/-- Digits are a whole number in base ten. -/
theorem wholeNumeral?_of_digits (hne : cs ≠ []) (h : ∀ c ∈ cs, c.isDigit = true) :
    wholeNumeral? 10 cs = some (Nat.ofDigitChars 10 cs 0) := by
  have hfold (items : List Char) (start : Nat) (hitems : ∀ c ∈ items, c.isDigit = true) :
      items.foldlM (fun n c => (digitValue? 10 c).map (n * 10 + ·)) start =
        some (Nat.ofDigitChars 10 items start) := by
    induction items generalizing start with
    | nil => rfl
    | cons c rest ih =>
      rw [List.foldlM_cons, digitValue?_of_isDigit (hitems c List.mem_cons_self),
        Nat.ofDigitChars_cons, Nat.mul_comm 10]
      exact ih _ fun d hd => hitems d (List.mem_cons_of_mem c hd)
  rw [wholeNumeral?, if_neg (by simpa using hne), hfold cs 0 h]

/-- Digits are read as a decimal without point and power. -/
theorem unsignedDecimal_of_digits (hne : cs ≠ []) (h : ∀ c ∈ cs, c.isDigit = true) :
    unsignedDecimal cs = ofDecimal (Nat.ofDigitChars 10 cs 0) 0 := by
  have hword : cs ≠ "Infinity".toList := by
    rintro rfl
    exact absurd (h 'I' (by decide)) (by decide)
  have hwhole : cs.takeWhile Char.isDigit = cs := List.takeWhile_eq_self_iff.mpr h
  have hrest : cs.dropWhile Char.isDigit = [] := List.dropWhile_eq_nil_iff.mpr h
  have hmantissa : wholeNumeral? 10 (cs ++ []) = some (Nat.ofDigitChars 10 cs 0) := by
    rw [List.append_nil, wholeNumeral?_of_digits hne h]
  unfold unsignedDecimal
  rw [if_neg hword, hwhole, hrest]
  simp only [hmantissa, exponentPart?]
  rfl

/-- Digits have no sign and no mark of another base. -/
theorem ofChars_of_digits (hne : cs ≠ []) (h : ∀ c ∈ cs, c.isDigit = true) :
    ofChars cs = unsignedDecimal cs := by
  unfold ofChars
  rw [trimList_of_digits h]
  split
  next => exact absurd rfl hne
  next mark rest =>
    -- no digit is the letter of a base mark
    have hmark := h mark (by simp)
    have hbase : ∀ c ∈ ['x', 'X', 'o', 'O', 'b', 'B'], mark ≠ c := by
      rintro c hc rfl
      simp only [List.mem_cons, List.not_mem_nil, or_false] at hc
      rcases hc with rfl | rfl | rfl | rfl | rfl | rfl <;> exact absurd hmark (by decide)
    simp [hbase]
  next rest => exact absurd (h '-' (by simp)) (by decide)
  next rest => exact absurd (h '+' (by simp)) (by decide)
  next => rfl

end

/-- A natural number below 2^53 is not rounded when it is read. -/
theorem ofDecimal_ofNat {n : Nat} (h : n < 2 ^ 53) : ofDecimal n 0 = ofNat n := by
  have hlength : (Nat.toDigits 10 n).length ≤ 16 :=
    (Nat.length_toDigits_le_iff (by decide) (by decide)).mpr (h.trans (by decide))
  unfold ofDecimal
  by_cases hzero : n = 0
  · subst hzero
    rfl
  · have hlarge : ¬ ((0 : Int) + (Nat.toDigits 10 n).length > 400) := by omega
    have hsmall : ¬ ((0 : Int) + (Nat.toDigits 10 n).length < -400) := by omega
    have hpower : powerOfTen 0 = 1 := by simp [powerOfTen]
    simp only [if_neg hzero, if_neg hlarge, if_neg hsmall, hpower, mul_one]
    exact nearest_natCast (isBinary64_of_lt h)

/-- The digits of a natural number below 2^53 are read as that number. -/
theorem ofChars_toDigits {n : Nat} (h : n < 2 ^ 53) : ofChars (Nat.toDigits 10 n) = ofNat n := by
  have hdigits : ∀ c ∈ Nat.toDigits 10 n, c.isDigit = true := fun c hc =>
    Nat.isDigit_of_mem_toDigits (by decide) (by decide) hc
  rw [ofChars_of_digits Nat.toDigits_ne_nil hdigits,
    unsignedDecimal_of_digits Nat.toDigits_ne_nil hdigits, Nat.ofDigitChars_ten_toDigits,
    ofDecimal_ofNat h]

/-! ## Numbers that are not below 2^53 -/

/-- The shortest digits do not move the point to the left. -/
theorem le_point_shortestDigits (value : Rat) :
    places value 400 ≤ (shortestDigits value).point := by
  -- whatever is chosen from a grid, its point is where the grid has it, or behind
  have hgrid (n count : Nat) (k : Int) : k ≤ (Digits.onGrid n count k).point := by
    unfold Digits.onGrid
    split
    · exact Int.le_add_one (Int.le_refl k)
    · exact Int.le_refl k
  have hcount {interval : RoundingInterval} {k : Int} {count : Nat} {d : Digits}
      (h : digitsOfCount? value interval k count = some d) : k ≤ d.point := by
    simp only [digitsOfCount?] at h
    split at h
    · split at h <;> cases h <;> exact hgrid _ _ _
    · split at h
      · cases h
        exact hgrid _ _ _
      · split at h
        · cases h
          exact hgrid _ _ _
        · cases h
  unfold shortestDigits
  cases hfound : (List.range 17).findSome? fun i =>
      digitsOfCount? value (.around value) (places value 400) (i + 1) with
  | none =>
    simp only [hfound]
    exact hgrid _ _ _
  | some d =>
    obtain ⟨i, -, hd⟩ := List.exists_of_findSome?_eq_some hfound
    simp only [hfound]
    exact hcount hd

/-- Digits with many places in front of the point have a long text, or one with a power of ten. -/
theorem Digits.text_of_le_point {d : Digits} (h : 16 ≤ d.point) :
    'e' ∈ d.text ∨ 16 ≤ d.text.length := by
  unfold Digits.text
  simp only
  split
  next hbounds =>
    right
    rw [List.length_append, List.length_replicate]
    omega
  next hlong =>
    split
    next hbounds =>
      right
      rw [List.length_append, List.length_take, List.length_cons, List.length_drop]
      omega
    -- beyond 21 places, a power of ten is written
    next hbounds =>
      left
      have hpositive : ¬ (-6 < d.point ∧ d.point ≤ 0) := by omega
      have hpower : 0 ≤ d.point - 1 := by omega
      rw [if_neg hpositive, if_pos hpower]
      split <;> simp

/-- A number that is not below 2^53 has sixteen characters at least, or one that
no natural number has. -/
theorem text_of_not_lt {x : Number} (h : ¬ x < .ofNat (2 ^ 53)) :
    (∃ c ∈ x.text.toList, c.isDigit = false ∧ c ≠ '.') ∨ 16 ≤ x.text.toList.length := by
  match x with
  | .nan => exact .inl ⟨'N', by decide, by decide, by decide⟩
  | .infinity false => exact .inl ⟨'I', by decide, by decide, by decide⟩
  | .infinity true => exact absurd rfl h
  | .finite value =>
    have hvalue : ((2 ^ 53 : Nat) : Rat) ≤ value := not_lt.mp fun hlt => h (decide_eq_true hlt)
    have hpositive : 0 < value := lt_of_lt_of_le (by norm_num) hvalue
    have hnum : ¬ value.num = 0 := (Rat.num_pos.mpr hpositive).ne'
    have hsmall : ¬ (value.den = 1 ∧ value.num.natAbs < 1 <<< 53) := by
      rintro ⟨hden, hlt⟩
      have hwhole : ((value.num.natAbs : Nat) : Rat) = value := by
        rw [Nat.cast_natAbs, abs_of_pos (Rat.num_pos.mpr hpositive)]
        exact (Rat.den_eq_one_iff value).mp hden
      rw [← hwhole, Nat.cast_le] at hvalue
      exact absurd hlt (not_lt.mpr hvalue)
    have htext : (Number.finite value).text = String.ofList (shortestDigits value).text := by
      simp only [text, if_neg hnum, if_neg hsmall, if_neg hpositive.le.not_gt]
    -- the digits of the whole part are the places in front of the point
    have hplaces : 16 ≤ places value 400 := by
      have hone : (1 : Rat) ≤ value := le_trans (by norm_num) hvalue
      have hfloor : (2 ^ 53 : Int) ≤ value.floor := Rat.le_floor_iff.mpr (by exact_mod_cast hvalue)
      have hdigits : ¬ (Nat.toDigits 10 value.floor.toNat).length ≤ 15 := by
        rw [Nat.length_toDigits_le_iff (by decide) (by decide)]
        omega
      unfold places
      rw [if_pos hone]
      omega
    rw [htext, String.toList_ofList]
    rcases Digits.text_of_le_point
        (hplaces.trans (le_point_shortestDigits value)) with hmark | hlong
    · exact .inl ⟨'e', hmark, by decide, by decide⟩
    · exact .inr hlong

end SignedHandshake.Number
