import SignedHandshake.Text.Basic
import SignedHandshake.Text.Case

/-!
# Names up to letter case

The names of algorithms are ASCII, but the names that are compared with them may be anything, and
changing the case of a text follows the tables of all scripts. What is compared is a text in small
letters with a name in small letters, and this comes to comparing letter by letter
(`Text.lower_eq_lower_iff`): a character outside ASCII never has a small form made of ASCII
characters alone, with one exception. The Kelvin sign has the small form `k`, so a name with a `k`
in it is matched by more texts than it looks. No name of an algorithm has one.

Proof structure: the table of small forms is looked through once (`shift_of_mem_smallRanges`). From
this, every code point outside ASCII leaves a unit behind that is no ASCII character, or a `k`
(`exists_not_plain_of_lowerCode`), whatever its neighbours are.
-/

namespace SignedHandshake.Text

/-! ## Small letters of ASCII -/

/-- The small form of a unit, if it is a capital letter of ASCII. -/
def smallUnit (unit : UInt16) : UInt16 :=
  if 0x41 ≤ unit.toNat ∧ unit.toNat ≤ 0x5A then UInt16.ofNat (unit.toNat + 0x20) else unit

/-- Two texts are the same but for the case of ASCII letters. -/
def SameLetters (left right : Text) : Prop :=
  left.units.map smallUnit = right.units.map smallUnit

instance (left right : Text) : Decidable (left.SameLetters right) :=
  inferInstanceAs (Decidable (left.units.map smallUnit = right.units.map smallUnit))

/-- A unit that no character outside ASCII has for a small form. -/
def IsPlain (unit : UInt16) : Prop :=
  unit.toNat < 0x80 ∧ unit.toNat ≠ 0x6B

instance (unit : UInt16) : Decidable (IsPlain unit) :=
  inferInstanceAs (Decidable (unit.toNat < 0x80 ∧ unit.toNat ≠ 0x6B))

/-- Every letter of one of them is one of the other, in one case or the other. -/
theorem SameLetters.exists_letter {text name : Text} (h : text.SameLetters name) {unit : UInt16}
    (hunit : unit ∈ text.units) : ∃ letter ∈ name.units, smallUnit letter = smallUnit unit := by
  have hmem : smallUnit unit ∈ name.units.map smallUnit := h ▸ List.mem_map_of_mem hunit
  exact List.mem_map.mp hmem

theorem toNat_smallUnit (unit : UInt16) :
    (smallUnit unit).toNat =
      if 0x41 ≤ unit.toNat ∧ unit.toNat ≤ 0x5A then unit.toNat + 0x20 else unit.toNat := by
  unfold smallUnit
  split
  next h => exact UInt16.toNat_ofNat_of_lt (show _ < 0x10000 by omega)
  next => rfl

/-- Only ASCII characters become ASCII characters. -/
theorem toNat_smallUnit_lt_iff {unit : UInt16} :
    (smallUnit unit).toNat < 0x80 ↔ unit.toNat < 0x80 := by
  rw [toNat_smallUnit]
  split <;> omega

/-- A text with the letters of an ASCII name is ASCII. -/
theorem SameLetters.ascii {text name : Text} (h : text.SameLetters name)
    (hname : ∀ unit ∈ name.units, unit.toNat < 0x80) : ∀ unit ∈ text.units, unit.toNat < 0x80 := by
  intro unit hunit
  obtain ⟨letter, hletter, hsame⟩ := h.exists_letter hunit
  rw [← toNat_smallUnit_lt_iff, ← hsame, toNat_smallUnit_lt_iff]
  exact hname letter hletter

/-! ## Code points -/

/-- Every code point of a text is one of those that two units can stand for. -/
theorem lt_of_mem_codesOfUnits {units : List UInt16} {n : Nat} (h : n ∈ codesOfUnits units) :
    n < 0x110000 := by
  fun_induction codesOfUnits units with
  | case1 => cases h
  | case2 unit =>
    rw [List.mem_singleton] at h
    have := unit.toNat_lt
    omega
  | case3 first second rest hpair ih =>
    -- two units of a pair stand for one point beyond 0xFFFF
    simp only [isPair, Bool.and_eq_true, decide_eq_true_eq] at hpair
    rcases List.mem_cons.mp h with hpoint | h
    · omega
    · exact ih h
  | case4 first second rest _ ih =>
    rcases List.mem_cons.mp h with hpoint | h
    · have := first.toNat_lt
      omega
    · exact ih h

/-- Outside ASCII there is always a unit that is none of ASCII. -/
theorem exists_mem_unitsOfCode {n : Nat} (hlow : 0x80 ≤ n) (hhigh : n < 0x110000) :
    ∃ unit ∈ unitsOfCode n, 0x80 ≤ unit.toNat := by
  unfold unitsOfCode
  split
  next hsmall =>
    have hunit : (UInt16.ofNat n).toNat = n := UInt16.toNat_ofNat_of_lt hsmall
    refine ⟨_, List.mem_singleton_self _, ?_⟩
    rw [hunit]
    exact hlow
  next hlarge =>
    -- the first unit of a pair is a surrogate
    have hunit : (UInt16.ofNat (0xD800 + (n - 0x10000) / 0x400)).toNat =
        0xD800 + (n - 0x10000) / 0x400 :=
      UInt16.toNat_ofNat_of_lt (show _ < 0x10000 by omega)
    refine ⟨_, List.mem_cons_self, ?_⟩
    omega

/-- The code points of ASCII units are those units. -/
theorem codesOfUnits_of_ascii {units : List UInt16} (h : ∀ unit ∈ units, unit.toNat < 0x80) :
    codesOfUnits units = units.map UInt16.toNat := by
  fun_induction codesOfUnits units with
  | case1 => rfl
  | case2 unit => rfl
  | case3 first second rest hpair ih =>
    have hfirst := h first List.mem_cons_self
    simp only [isPair, Bool.and_eq_true, decide_eq_true_eq] at hpair
    omega
  | case4 first second rest _ ih =>
    rw [List.map_cons, ih fun unit hunit => h unit (List.mem_cons_of_mem _ hunit)]

/-! ## The table of small forms -/

/-- In the table of small forms, only the Kelvin sign is mapped into ASCII, and nothing is mapped
beyond the last code point. -/
theorem shift_of_mem_smallRanges :
    ∀ r ∈ smallRanges, (r.first = r.last ∧ (r.first : Int) + r.shift = 0x6B) ∨
      (0x80 ≤ (r.first : Int) + r.shift ∧ (r.last : Int) + r.shift < 0x110000) := by
  decide +kernel

/-- The small form of a code point outside ASCII has a code point outside ASCII, or is a `k`. -/
theorem exists_mem_lowerCode {n : Nat} (hlow : 0x80 ≤ n) (hhigh : n < 0x110000) :
    ∃ m ∈ lowerCode n, m = 0x6B ∨ 0x80 ≤ m ∧ m < 0x110000 := by
  unfold lowerCode
  rw [if_neg (by omega)]
  split
  · exact ⟨0x307, by decide, by decide⟩
  · refine ⟨_, List.mem_singleton_self _, ?_⟩
    -- a point in no range is its own small form, and the shifts of the ranges are listed
    unfold shifted?
    cases hfind : smallRanges.find? (·.contains n) with
    | none => exact .inr ⟨hlow, hhigh⟩
    | some r =>
      have hcontains := List.find?_some hfind
      simp only [CaseRange.contains, Bool.and_eq_true, decide_eq_true_eq] at hcontains
      show ((n : Int) + r.shift).toNat = 0x6B ∨
        0x80 ≤ ((n : Int) + r.shift).toNat ∧ ((n : Int) + r.shift).toNat < 0x110000
      have hshift := shift_of_mem_smallRanges r (List.mem_of_find?_eq_some hfind)
      omega

/-- So in the units of the small form there is one that is not plain. -/
theorem exists_not_plain_of_lowerCode {n : Nat} (hlow : 0x80 ≤ n) (hhigh : n < 0x110000) :
    ∃ unit ∈ (lowerCode n).flatMap unitsOfCode, ¬ IsPlain unit := by
  obtain ⟨m, hmem, hm⟩ := exists_mem_lowerCode hlow hhigh
  rcases hm with rfl | ⟨hmlow, hmhigh⟩
  · exact ⟨0x6B, List.mem_flatMap.mpr ⟨0x6B, hmem, by decide⟩, by decide⟩
  · obtain ⟨unit, hunit, hlarge⟩ := exists_mem_unitsOfCode hmlow hmhigh
    refine ⟨unit, List.mem_flatMap.mpr ⟨m, hmem, hunit⟩, fun hplain => ?_⟩
    exact absurd hplain.1 (Nat.not_lt.mpr hlarge)

/-! ## Whole texts -/

/-- If all that comes out is plain, then all that went in was ASCII. -/
theorem lt_of_lowerList {codes before : List Nat} (hcodes : ∀ n ∈ codes, n < 0x110000)
    (hplain : ∀ unit ∈ (lowerList before codes).flatMap unitsOfCode, IsPlain unit) :
    ∀ n ∈ codes, n < 0x80 := by
  induction codes generalizing before with
  | nil => nofun
  | cons n rest ih =>
    rw [lowerList, List.flatMap_append] at hplain
    have hfirst : n < 0x80 := by
      refine Nat.lt_of_not_le fun hlow => ?_
      split at hplain
      · -- a final sigma is not ASCII either
        have hsigma : IsPlain 0x3C2 := hplain _ (List.mem_append_left _ (by decide))
        exact absurd hsigma (by decide)
      · obtain ⟨unit, hunit, hnot⟩ :=
          exists_not_plain_of_lowerCode hlow (hcodes n List.mem_cons_self)
        exact hnot (hplain unit (List.mem_append_left _ hunit))
    intro m hm
    rcases List.mem_cons.mp hm with rfl | hm
    · exact hfirst
    · exact ih (fun k hk => hcodes k (List.mem_cons_of_mem _ hk))
        (fun unit hunit => hplain unit (List.mem_append_right _ hunit)) m hm

/-- A text whose code points are ASCII has only ASCII units. -/
theorem ascii_of_codes {text : Text} (h : ∀ n ∈ text.codes, n < 0x80) :
    ∀ unit ∈ text.units, unit.toNat < 0x80 := by
  intro unit hunit
  rw [← flatMap_codesOfUnits text.units] at hunit
  obtain ⟨n, hn, hunit⟩ := List.mem_flatMap.mp hunit
  have hlt := h n hn
  have hsmall : n < 0x10000 := by omega
  rw [unitsOfCode, if_pos hsmall, List.mem_singleton] at hunit
  have hnat : (UInt16.ofNat n).toNat = n := UInt16.toNat_ofNat_of_lt hsmall
  rw [hunit, hnat]
  exact hlt

/-- A text whose small letters are plain is ASCII. -/
theorem ascii_of_lower {text : Text} (h : ∀ unit ∈ text.lower.units, IsPlain unit) :
    ∀ unit ∈ text.units, unit.toNat < 0x80 :=
  ascii_of_codes (lt_of_lowerList (fun _ hn => lt_of_mem_codesOfUnits hn) h)

/-- Single units of ASCII have single units for small forms, whatever is before them. -/
theorem lowerList_of_ascii {units : List UInt16} (before : List Nat)
    (h : ∀ unit ∈ units, unit.toNat < 0x80) :
    (lowerList before (units.map UInt16.toNat)).flatMap unitsOfCode = units.map smallUnit := by
  induction units generalizing before with
  | nil => rfl
  | cons unit rest ih =>
    have hunit := h unit List.mem_cons_self
    have hcode : lowerCode unit.toNat = [(smallUnit unit).toNat] := by
      rw [lowerCode, if_pos hunit, toNat_smallUnit]
    rw [List.map_cons, lowerList, if_neg (by omega), hcode, List.flatMap_append, List.map_cons,
      ih _ fun other hother => h other (List.mem_cons_of_mem _ hother), List.flatMap_singleton,
      unitsOfCode_toNat, List.singleton_append]

/-- The small letters of an ASCII text, one by one. -/
theorem units_lower_of_ascii {text : Text} (h : ∀ unit ∈ text.units, unit.toNat < 0x80) :
    text.lower.units = text.units.map smallUnit := by
  show (lowerList [] (codesOfUnits text.units)).flatMap unitsOfCode = _
  rw [codesOfUnits_of_ascii h, lowerList_of_ascii [] h]

/-- A plain name is the small form of those texts that have it letter by letter. -/
theorem lower_eq_iff {text name : Text} (hname : ∀ unit ∈ name.units, IsPlain unit) :
    text.lower = name ↔ text.units.map smallUnit = name.units := by
  constructor
  · rintro rfl
    rw [units_lower_of_ascii (ascii_of_lower hname)]
  · intro h
    have hascii : ∀ unit ∈ text.units, unit.toNat < 0x80 := by
      intro unit hunit
      have hmem : smallUnit unit ∈ name.units := h ▸ List.mem_map_of_mem hunit
      exact toNat_smallUnit_lt_iff.mp (hname _ hmem).1
    have hunits : text.lower.units = name.units := (units_lower_of_ascii hascii).trans h
    cases name
    exact congrArg Text.mk hunits

/-- A name in which neither a character outside ASCII nor a `k` stands, in either case. -/
def IsPlainName (name : Text) : Prop :=
  ∀ unit ∈ name.units, IsPlain (smallUnit unit)

instance (name : Text) : Decidable name.IsPlainName :=
  List.decidableBAll (fun unit => IsPlain (smallUnit unit)) name.units

theorem IsPlainName.ascii {name : Text} (h : name.IsPlainName) :
    ∀ unit ∈ name.units, unit.toNat < 0x80 :=
  fun unit hunit => toNat_smallUnit_lt_iff.mp (h unit hunit).1

/-- **Comparing in small letters is comparing letter by letter.** For all texts there are, and a
name of ASCII characters without a `k`. -/
theorem lower_eq_lower_iff {text name : Text} (hname : name.IsPlainName) :
    text.lower = name.lower ↔ text.SameLetters name := by
  have hlower := units_lower_of_ascii hname.ascii
  have hplain : ∀ unit ∈ name.lower.units, IsPlain unit := by
    rw [hlower]
    intro unit hunit
    obtain ⟨letter, hletter, rfl⟩ := List.mem_map.mp hunit
    exact hname letter hletter
  rw [lower_eq_iff hplain, hlower, SameLetters]

/-- A unit below the letters is the small form of itself only. -/
theorem smallUnit_eq_iff {unit small : UInt16} (h : small.toNat < 0x41) :
    smallUnit unit = small ↔ unit = small := by
  rw [← UInt16.toNat_inj, ← UInt16.toNat_inj, toNat_smallUnit]
  split <;> omega

theorem map_smallUnit_eq_iff {units small : List UInt16} (h : ∀ unit ∈ small, unit.toNat < 0x41) :
    units.map smallUnit = small ↔ units = small := by
  induction small generalizing units with
  | nil => exact List.map_eq_nil_iff
  | cons first rest ih =>
    cases units with
    | nil => exact ⟨nofun, nofun⟩
    | cons unit more =>
      rw [List.map_cons, List.cons.injEq, List.cons.injEq,
        smallUnit_eq_iff (h first List.mem_cons_self),
        ih fun other hother => h other (List.mem_cons_of_mem _ hother)]

/-- A name of digits and points is the small form of itself only. -/
theorem lower_eq_iff_eq {text name : Text} (hname : ∀ unit ∈ name.units, unit.toNat < 0x41) :
    text.lower = name ↔ text = name := by
  have hplain : ∀ unit ∈ name.units, IsPlain unit := fun unit hunit => by
    have := hname unit hunit
    exact ⟨by omega, by omega⟩
  rw [lower_eq_iff hplain, map_smallUnit_eq_iff hname]
  cases text
  cases name
  exact (Text.mk.injEq ..).symm.to_iff

/-! ## Blanks -/

/-- From the first capital letter of ASCII to the last small one there is no blank. -/
theorem isBlankCode_of_letter {n : Nat} (hlow : 0x41 ≤ n) (hhigh : n ≤ 0x7A) :
    isBlankCode n = false := by
  rw [Bool.eq_false_iff]
  intro hblank
  simp only [isBlankCode, Bool.or_eq_true, Bool.and_eq_true, decide_eq_true_eq,
    beq_iff_eq] at hblank
  omega

/-- So changing the case of letters neither makes a blank nor removes one. -/
theorem isBlankUnit_smallUnit (unit : UInt16) :
    isBlankUnit (smallUnit unit) = isBlankUnit unit := by
  unfold isBlankUnit
  rw [toNat_smallUnit]
  split
  next hcapital =>
    rw [isBlankCode_of_letter (by omega) (by omega), isBlankCode_of_letter hcapital.1 (by omega)]
  next => rfl

/-- Where there are no blanks, none are dropped. -/
theorem dropWhile_isBlankUnit {units : List UInt16} (h : ∀ unit ∈ units, isBlankUnit unit = false) :
    units.dropWhile isBlankUnit = units := by
  cases units with
  | nil => rfl
  | cons unit rest => rw [List.dropWhile_cons_of_neg (by simp [h unit List.mem_cons_self])]

/-- Blanks around a text without blanks are trimmed. -/
theorem trim_eq_of_units_eq {text inner : Text} {before after : List UInt16}
    (hunits : text.units = before ++ inner.units ++ after)
    (hblank : ∀ unit ∈ before ++ after, isBlankUnit unit = true)
    (hinner : ∀ unit ∈ inner.units, isBlankUnit unit = false) : text.trim = inner := by
  have hbefore : ∀ unit ∈ before, isBlankUnit unit = true := fun unit hunit =>
    hblank unit (List.mem_append_left _ hunit)
  have hafter : ∀ unit ∈ after, isBlankUnit unit = true := fun unit hunit =>
    hblank unit (List.mem_append_right _ hunit)
  obtain ⟨units⟩ := inner
  rw [trim, trimEnds, hunits, List.append_assoc, List.dropWhile_append_of_pos hbefore]
  congr 1
  cases units with
  | nil =>
    rw [List.nil_append, ← List.append_nil after, List.dropWhile_append_of_pos hafter]
    rfl
  | cons unit rest =>
    -- the blanks in front are dropped, and from the other end those behind
    have hfirst : ¬ isBlankUnit unit = true := by simp [hinner unit List.mem_cons_self]
    have hreverse : ∀ other ∈ after.reverse, isBlankUnit other = true := fun other hother =>
      hafter other (List.mem_reverse.mp hother)
    have hrest : ∀ other ∈ (unit :: rest).reverse, isBlankUnit other = false := fun other hother =>
      hinner other (List.mem_reverse.mp hother)
    rw [List.cons_append, List.dropWhile_cons_of_neg hfirst, ← List.cons_append,
      List.reverse_append, List.dropWhile_append_of_pos hreverse, dropWhile_isBlankUnit hrest,
      List.reverse_reverse]

/-- What trimming takes off are blanks. -/
theorem exists_trim (text : Text) :
    ∃ before after, text.units = before ++ text.trim.units ++ after ∧
      ∀ unit ∈ before ++ after, isBlankUnit unit = true := by
  -- the blanks at the end are those that are dropped from the reversed rest
  let rest := (text.units.dropWhile isBlankUnit).reverse
  have hrest : text.units.dropWhile isBlankUnit =
      (rest.dropWhile isBlankUnit).reverse ++ (rest.takeWhile isBlankUnit).reverse := by
    rw [← List.reverse_append, List.takeWhile_append_dropWhile, List.reverse_reverse]
  refine ⟨text.units.takeWhile isBlankUnit, (rest.takeWhile isBlankUnit).reverse, ?_, ?_⟩
  · show text.units = _ ++ (rest.dropWhile isBlankUnit).reverse ++ _
    rw [List.append_assoc, ← hrest, List.takeWhile_append_dropWhile]
  · intro unit hunit
    rw [List.mem_append, List.mem_reverse] at hunit
    rcases hunit with hunit | hunit <;> exact List.all_eq_true.mp List.all_takeWhile unit hunit

/-- A text with the letters of a name without blanks has no blanks either. -/
theorem SameLetters.not_blank {text name : Text} (h : text.SameLetters name)
    (hname : ∀ unit ∈ name.units, isBlankUnit unit = false) :
    ∀ unit ∈ text.units, isBlankUnit unit = false := by
  intro unit hunit
  obtain ⟨letter, hletter, hsame⟩ := h.exists_letter hunit
  rw [← isBlankUnit_smallUnit, ← hsame, isBlankUnit_smallUnit]
  exact hname letter hletter

/-- So there is nothing to trim. -/
theorem SameLetters.trim_eq {text name : Text} (h : text.SameLetters name)
    (hname : ∀ unit ∈ name.units, isBlankUnit unit = false) : text.trim = text := by
  have hunits : text.units = [] ++ text.units ++ [] := (List.append_nil _).symm
  exact trim_eq_of_units_eq hunits nofun (h.not_blank hname)

/-- The text is the name with its letters in any case, and with any blanks around it. -/
def Spells (text name : Text) : Prop :=
  ∃ (inner : Text) (before after : List UInt16), text.units = before ++ inner.units ++ after ∧
    (∀ unit ∈ before ++ after, isBlankUnit unit = true) ∧ inner.SameLetters name

/-- A text spells a name without blanks if it has its letters once it is trimmed. -/
theorem spells_iff {text name : Text} (hname : ∀ unit ∈ name.units, isBlankUnit unit = false) :
    text.Spells name ↔ text.trim.SameLetters name := by
  constructor
  · rintro ⟨inner, before, after, hunits, hblank, hletters⟩
    rw [trim_eq_of_units_eq hunits hblank (hletters.not_blank hname)]
    exact hletters
  · intro hletters
    obtain ⟨before, after, hunits, hblank⟩ := text.exists_trim
    exact ⟨text.trim, before, after, hunits, hblank, hletters⟩

end SignedHandshake.Text
