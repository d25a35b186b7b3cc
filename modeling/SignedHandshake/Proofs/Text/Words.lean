import SignedHandshake.Proofs.Text.Case

/-!
# Words and characters

Names and settings are compared in more than one way: trimmed and in small letters, unit by unit
with the case of ASCII letters forgiven, or character by character. For words of ASCII characters
all of these come to the same, whatever text is compared with them (`Text.lower_trim_eq_iff`,
`Text.sameLetters_iff_chars`).
-/

namespace SignedHandshake.Text

/-!
## Words among blanks

A setting is a word with blanks around it, or nothing but blanks. A text is blank exactly if
trimming leaves nothing of it (`Text.trim_eq_empty_iff`), and what trimming leaves, in small
letters, is a word exactly if the text spells this word (**`Text.lower_trim_eq_iff`**). So a text
that spells a word has no characters outside ASCII but blanks (`Text.Spells.ascii_or_blank`).
-/

/-- There is nothing but blanks in a text, if there is anything. -/
def IsBlank (text : Text) : Prop :=
  ∀ unit ∈ text.units, isBlankUnit unit = true

/-- A text is blank if trimming leaves nothing of it. -/
theorem trim_eq_empty_iff {text : Text} : text.trim = "" ↔ text.IsBlank := by
  have hnothing : (Text.ofString "").units = [] := rfl
  constructor
  · intro h
    obtain ⟨before, after, hunits, hblank⟩ := text.exists_trim
    rw [h, hnothing, List.append_nil] at hunits
    intro unit hunit
    rw [hunits] at hunit
    exact hblank unit hunit
  · intro h
    -- all of it stands in front of a word without units
    have hunits : text.units = text.units ++ (Text.ofString "").units ++ [] := by
      rw [hnothing, List.append_nil, List.append_nil]
    refine trim_eq_of_units_eq hunits (by rwa [List.append_nil]) fun unit hunit => ?_
    rw [hnothing] at hunit
    exact absurd hunit List.not_mem_nil

/-- A word in small letters: its letters and digits are plain, and no blank is among them. -/
structure IsWord (word : Text) : Prop where
  plain : ∀ unit ∈ word.units, IsPlain unit
  small : word.units.map smallUnit = word.units
  unbroken : ∀ unit ∈ word.units, isBlankUnit unit = false

instance (word : Text) : Decidable word.IsWord :=
  decidable_of_iff
    (word.units.all (fun unit => IsPlain unit ∧ isBlankUnit unit = false) = true ∧
      word.units.map smallUnit = word.units) <| by
    simp only [List.all_eq_true, decide_eq_true_eq]
    exact ⟨fun ⟨hunits, hsmall⟩ =>
        ⟨fun unit hunit => (hunits unit hunit).1, hsmall, fun unit hunit => (hunits unit hunit).2⟩,
      fun h => ⟨fun unit hunit => ⟨h.plain unit hunit, h.unbroken unit hunit⟩, h.small⟩⟩

section

variable {text word : Text}

/-- Where a text is trimmed and put in small letters, it is the word that it spells. -/
theorem lower_trim_eq_iff (hword : word.IsWord) : text.trim.lower = word ↔ text.Spells word := by
  rw [spells_iff hword.unbroken, SameLetters, hword.small, lower_eq_iff hword.plain]

/-- Whatever a text has outside ASCII is blank, if it spells a word. -/
theorem Spells.ascii_or_blank (h : text.Spells word) (hword : word.IsWord) :
    ∀ unit ∈ text.units, unit.toNat < 0x80 ∨ isBlankUnit unit = true := by
  obtain ⟨inner, before, after, hunits, hblank, hletters⟩ := h
  have hascii := hletters.ascii fun unit hunit => (hword.plain unit hunit).1
  intro unit hunit
  rw [hunits, List.append_assoc, List.mem_append, List.mem_append] at hunit
  rcases hunit with hbefore | hinner | hafter
  · exact .inr (hblank unit (List.mem_append_left _ hbefore))
  · exact .inl (hascii unit hinner)
  · exact .inr (hblank unit (List.mem_append_right _ hafter))

end

/-!
## Characters of ASCII texts

A name may be compared unit by unit, forgiving the case of ASCII letters (`Text.SameLetters`), or
taken apart into characters first. For a name of ASCII characters alone both come to the same,
whatever the text is that is compared with it (**`Text.sameLetters_iff_chars`**): a text whose
characters are ASCII has only ASCII units, since no surrogate and no other code point is taken for
one of them (`Text.ascii_of_chars`).
-/

/-- The characters of a text made from characters. -/
theorem chars_ofChars (cs : List Char) : (ofChars cs).chars = cs := by
  simp [chars, codes_ofChars, Function.comp_def, charOfCode_toNat]

/-- The characters of an ASCII text are its units one by one. -/
theorem chars_of_ascii {text : Text} (h : ∀ unit ∈ text.units, unit.toNat < 0x80) :
    text.chars = text.units.map fun unit => charOfCode unit.toNat := by
  rw [chars, codes, codesOfUnits_of_ascii h, List.map_map]
  rfl

/-- So the characters of its parts are its characters. -/
theorem chars_append {first second : Text}
    (h : ∀ unit ∈ (first ++ second).units, unit.toNat < 0x80) :
    (first ++ second).chars = first.chars ++ second.chars := by
  have hfirst : ∀ unit ∈ first.units, unit.toNat < 0x80 := fun unit hunit =>
    h unit (List.mem_append_left _ hunit)
  have hsecond : ∀ unit ∈ second.units, unit.toNat < 0x80 := fun unit hunit =>
    h unit (List.mem_append_right _ hunit)
  rw [chars_of_ascii h, chars_of_ascii hfirst, chars_of_ascii hsecond, units_append,
    List.map_append]

/-- The small form of a character, if it is a capital letter of ASCII. -/
theorem toNat_toLower (c : Char) :
    c.toLower.toNat = if 0x41 ≤ c.toNat ∧ c.toNat ≤ 0x5A then c.toNat + 0x20 else c.toNat := by
  have hcapital : (c.val ≥ 'A'.val ∧ c.val ≤ 'Z'.val) ↔ 0x41 ≤ c.toNat ∧ c.toNat ≤ 0x5A := by
    rw [ge_iff_le, UInt32.le_iff_toNat_le, UInt32.le_iff_toNat_le]
    rfl
  unfold Char.toLower
  by_cases h : 0x41 ≤ c.toNat ∧ c.toNat ≤ 0x5A
  · rw [dif_pos (hcapital.mpr h), if_pos h]
    show (c.val.toNat + 0x20) % 2 ^ 32 = c.val.toNat + 0x20
    have hlast : c.val.toNat ≤ 0x5A := h.2
    omega
  · rw [dif_neg (mt hcapital.mp h), if_neg h]

/-- A character stands for its code point, and what is no character for none of ASCII. -/
theorem toNat_charOfCode (n : Nat) :
    (charOfCode n).toNat = if n.isValidChar then n else 0xFFFD := by
  unfold charOfCode
  by_cases h : n.isValidChar
  · rw [dif_pos h, if_pos h]
    rfl
  · rw [dif_neg h, if_neg h]
    rfl

/-- A text whose characters are ASCII has only ASCII units. -/
theorem ascii_of_chars {text : Text} (h : ∀ c ∈ text.chars, c.toNat < 0x80) :
    ∀ unit ∈ text.units, unit.toNat < 0x80 := by
  refine ascii_of_codes fun n hn => ?_
  have hlt := h (charOfCode n) (List.mem_map_of_mem hn)
  rw [toNat_charOfCode] at hlt
  split at hlt <;> omega

/-- The characters of an ASCII text in small letters are its units in small letters. -/
theorem map_toNat_chars {text : Text} (h : ∀ unit ∈ text.units, unit.toNat < 0x80) :
    (text.chars.map Char.toLower).map Char.toNat = (text.units.map smallUnit).map UInt16.toNat := by
  rw [chars_of_ascii h, List.map_map, List.map_map, List.map_map]
  refine List.map_congr_left fun unit hunit => ?_
  have hvalid : unit.toNat.isValidChar := .inl (by have := h unit hunit; omega)
  show (charOfCode unit.toNat).toLower.toNat = (smallUnit unit).toNat
  rw [toNat_toLower, toNat_charOfCode, if_pos hvalid, toNat_smallUnit]

/-- A text whose characters are those of an ASCII name in small letters is ASCII. -/
theorem ascii_of_map_toLower_eq {text name : Text} (hname : ∀ unit ∈ name.units, unit.toNat < 0x80)
    (h : text.chars.map Char.toLower = name.chars.map Char.toLower) :
    ∀ unit ∈ text.units, unit.toNat < 0x80 := by
  refine ascii_of_chars fun c hc => ?_
  have hmem : c.toLower.toNat ∈ (name.chars.map Char.toLower).map Char.toNat := by
    rw [← h]
    exact List.mem_map_of_mem (List.mem_map_of_mem hc)
  rw [map_toNat_chars hname, List.map_map] at hmem
  obtain ⟨unit, hunit, hsame⟩ := List.mem_map.mp hmem
  have hlt : (smallUnit unit).toNat < 0x80 := toNat_smallUnit_lt_iff.mpr (hname unit hunit)
  have hsmall : (smallUnit unit).toNat = c.toLower.toNat := hsame
  rw [hsmall, toNat_toLower] at hlt
  split at hlt <;> omega

/-- **A text has the letters of an ASCII name if its characters are those of the
name in small letters.** -/
theorem sameLetters_iff_chars {text name : Text} (hname : ∀ unit ∈ name.units, unit.toNat < 0x80) :
    text.SameLetters name ↔ text.chars.map Char.toLower = name.chars.map Char.toLower := by
  have hiff (htext : ∀ unit ∈ text.units, unit.toNat < 0x80) :
      text.SameLetters name ↔ text.chars.map Char.toLower = name.chars.map Char.toLower := by
    rw [← List.map_inj_right fun _ _ h => Char.toNat_inj.mp h, map_toNat_chars htext,
      map_toNat_chars hname, List.map_inj_right fun _ _ h => UInt16.toNat_inj.mp h]
    exact Iff.rfl
  -- either of the two makes the text ASCII
  constructor
  · intro h
    exact (hiff (h.ascii hname)).mp h
  · intro h
    exact (hiff (ascii_of_map_toLower_eq hname h)).mpr h

end SignedHandshake.Text
