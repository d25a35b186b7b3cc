
/-!
# Texts

Names, addresses and messages are texts, and a text is a sequence of 16-bit units. A character above
U+FFFF takes two of them, a high and a low surrogate. Callers may also hand over a surrogate that
has no partner. It is no character, so a `String` cannot hold it, but a text keeps it: it differs
from every other unit, and once its partner is put next to it the two are a character.

A rule that looks at more than single units looks at code points. A pair of surrogates is one code
point, and a surrogate without partner stands for itself.

- `ofCodes_codes`: the code points of a text make up that text again.
- `chars_ofString`: a text made from a string has the characters of the string.
- `trim`: a text without the blanks around it.
-/

namespace SignedHandshake

/-! ## Units -/

/-- A text, as its 16-bit units. -/
structure Text where
  units : List UInt16
  deriving DecidableEq, Repr

namespace Text

instance : Inhabited Text := ⟨⟨[]⟩⟩

instance : Append Text := ⟨fun first second => ⟨first.units ++ second.units⟩⟩

@[simp] theorem units_append (first second : Text) :
    (first ++ second).units = first.units ++ second.units := rfl

/-! ### Code points -/

/-- The units of a code point: itself, or a high and a low surrogate. -/
def unitsOfCode (n : Nat) : List UInt16 :=
  if n < 0x10000 then [UInt16.ofNat n]
  else [UInt16.ofNat (0xD800 + (n - 0x10000) / 0x400),
    UInt16.ofNat (0xDC00 + (n - 0x10000) % 0x400)]

/-- The text with these code points. -/
def ofCodes (codes : List Nat) : Text :=
  ⟨codes.flatMap unitsOfCode⟩

/-- Whether two units, one behind the other, are a single character. -/
def isPair (high low : UInt16) : Bool :=
  0xD800 ≤ high.toNat && high.toNat < 0xDC00 && 0xDC00 ≤ low.toNat && low.toNat < 0xE000

/-- The code points of units. -/
def codesOfUnits : List UInt16 → List Nat
  | [] => []
  | [unit] => [unit.toNat]
  | first :: second :: rest =>
    if isPair first second then
      (0x10000 + (first.toNat - 0xD800) * 0x400 + (second.toNat - 0xDC00)) :: codesOfUnits rest
    else first.toNat :: codesOfUnits (second :: rest)

/-- The code points of a text. -/
def codes (text : Text) : List Nat :=
  codesOfUnits text.units

/-- A number below U+10000 is a single unit. -/
theorem unitsOfCode_toNat (unit : UInt16) : unitsOfCode unit.toNat = [unit] := by
  rw [unitsOfCode, if_pos unit.toNat_lt, UInt16.ofNat_toNat]

/-- The units of the code point that a pair of surrogates stands for are that pair. -/
theorem unitsOfCode_pair {high low : UInt16} (h : isPair high low) :
    unitsOfCode (0x10000 + (high.toNat - 0xD800) * 0x400 + (low.toNat - 0xDC00)) = [high, low] := by
  simp only [isPair, Bool.and_eq_true, decide_eq_true_eq] at h
  have hhigh : 0xD800 + (0x10000 + (high.toNat - 0xD800) * 0x400 + (low.toNat - 0xDC00) - 0x10000) /
      0x400 = high.toNat := by omega
  have hlow : 0xDC00 + (0x10000 + (high.toNat - 0xD800) * 0x400 + (low.toNat - 0xDC00) - 0x10000) %
      0x400 = low.toNat := by omega
  rw [unitsOfCode, if_neg (by omega), hhigh, hlow, UInt16.ofNat_toNat, UInt16.ofNat_toNat]

/-- Nothing is lost when units are gathered into code points. -/
theorem flatMap_codesOfUnits (units : List UInt16) :
    (codesOfUnits units).flatMap unitsOfCode = units := by
  fun_induction codesOfUnits units with
  | case1 => rfl
  | case2 unit => simp [unitsOfCode_toNat]
  | case3 first second rest h ih => simp [unitsOfCode_pair h, ih]
  | case4 first second rest _ ih => simp [unitsOfCode_toNat, ih]

/-- The code points of a text make up the text. -/
@[simp] theorem ofCodes_codes (text : Text) : ofCodes text.codes = text := by
  simp [ofCodes, codes, flatMap_codesOfUnits]

/-! ### Characters -/

/-- The text with these characters. -/
def ofChars (cs : List Char) : Text :=
  ofCodes (cs.map Char.toNat)

/-- The text with the characters of a string. -/
def ofString (string : String) : Text :=
  ofChars string.toList

instance : Coe String Text := ⟨ofString⟩

/-- The character with a code point. No character is a surrogate; U+FFFD takes its place. -/
def charOfCode (n : Nat) : Char :=
  if h : n.isValidChar then Char.ofNatAux n h else '\uFFFD'

/-- The characters of a text, for rules that give a meaning to characters only. -/
def chars (text : Text) : List Char :=
  text.codes.map charOfCode

theorem charOfCode_toNat (c : Char) : charOfCode c.toNat = c := by
  have h : c.toNat.isValidChar := c.valid
  have hc := Char.ofNat_toNat c
  rw [Char.ofNat, dif_pos h] at hc
  rw [charOfCode, dif_pos h, hc]

/-- What follows a character does not change it: none of its units can pair up with it. -/
theorem codesOfUnits_unitsOfCode_append (c : Char) (units : List UInt16) :
    codesOfUnits (unitsOfCode c.toNat ++ units) = c.toNat :: codesOfUnits units := by
  have h : c.toNat < 0xD800 ∨ 0xDFFF < c.toNat ∧ c.toNat < 0x110000 := c.valid
  by_cases hsmall : c.toNat < 0x10000
  · have hunit : (UInt16.ofNat c.toNat).toNat = c.toNat := UInt16.toNat_ofNat_of_lt hsmall
    rw [unitsOfCode, if_pos hsmall]
    cases units with
    | nil => simp [codesOfUnits, hunit]
    | cons next rest =>
      -- no character is half of a pair
      have hpair : isPair (UInt16.ofNat c.toNat) next = false := by
        simp only [isPair, hunit, Bool.and_eq_false_iff, decide_eq_false_iff_not]
        omega
      simp [codesOfUnits, hpair, hunit]
  · -- a pair of surrogates, whose code point is that of the character
    have hhigh : (UInt16.ofNat (0xD800 + (c.toNat - 0x10000) / 0x400)).toNat =
        0xD800 + (c.toNat - 0x10000) / 0x400 :=
      UInt16.toNat_ofNat_of_lt (show _ < 0x10000 by omega)
    have hlow : (UInt16.ofNat (0xDC00 + (c.toNat - 0x10000) % 0x400)).toNat =
        0xDC00 + (c.toNat - 0x10000) % 0x400 :=
      UInt16.toNat_ofNat_of_lt (show _ < 0x10000 by omega)
    have hpair : isPair (UInt16.ofNat (0xD800 + (c.toNat - 0x10000) / 0x400))
        (UInt16.ofNat (0xDC00 + (c.toNat - 0x10000) % 0x400)) := by
      simp only [isPair, hhigh, hlow, Bool.and_eq_true, decide_eq_true_eq]
      omega
    rw [unitsOfCode, if_neg hsmall]
    simp only [List.cons_append, List.nil_append, codesOfUnits, hpair, if_true, hhigh, hlow,
      List.cons.injEq, and_true]
    omega

/-- The code points of a text made from characters are those of the characters. -/
theorem codes_ofChars (cs : List Char) : (ofChars cs).codes = cs.map Char.toNat := by
  simp only [codes, ofChars, ofCodes]
  induction cs with
  | nil => rfl
  | cons c rest ih => simp [codesOfUnits_unitsOfCode_append, ih]

/-- A text made from a string has the characters of the string. -/
@[simp] theorem chars_ofString (string : String) : (ofString string).chars = string.toList := by
  simp [chars, ofString, codes_ofChars, Function.comp_def, charOfCode_toNat]

end Text

end SignedHandshake

/-!
## Blank characters

A blank is a character that is stripped from the ends of a name or a number: the ASCII controls
from tab to carriage return, every space separator, the line and paragraph separators, and the
byte order mark.
-/

namespace SignedHandshake.Text

/-- The code points of blanks. -/
def isBlankCode (n : Nat) : Bool :=
  (9 ≤ n && n ≤ 13) || n == 0x20 || n == 0xA0 || n == 0x1680 || (0x2000 ≤ n && n ≤ 0x200A) ||
    n == 0x2028 || n == 0x2029 || n == 0x202F || n == 0x205F || n == 0x3000 || n == 0xFEFF

/-- Whether a character is blank. -/
def isBlank (c : Char) : Bool :=
  isBlankCode c.toNat

/-- Whether a 16-bit unit is a blank. All blanks are single units. -/
def isBlankUnit (unit : UInt16) : Bool :=
  isBlankCode unit.toNat

/-- What is left of a list when blanks are taken off both ends. -/
def trimEnds {α : Type} (blank : α → Bool) (items : List α) : List α :=
  ((items.dropWhile blank).reverse.dropWhile blank).reverse

/-- The characters between the blanks at the two ends. -/
def trimList (cs : List Char) : List Char :=
  trimEnds isBlank cs

/-- The text between the blanks at its two ends. -/
def trim (text : Text) : Text :=
  ⟨trimEnds isBlankUnit text.units⟩

end SignedHandshake.Text
