import Mathlib
import SignedHandshake.Proofs.CertificateVerify.Families
import SignedHandshake.Proofs.Key.Names
import SignedHandshake.Proofs.Text.Words

/-!
# Reading the names of algorithm pairs (specification §10.5)

A pair that has an engine has its name, and from this name it is read again. Two readers take part
in this. One knows the variants of Edwards curve signatures by several names; the other takes a name
apart at the word `with` and looks both parts up. Nothing is read but the names that there are, in
any case of ASCII letters and with blanks around them, and the object identifiers of the variants
(**`AlgorithmPair.ofName?_exact`**).

Proof structure: taking a name apart does not depend on the case of its letters
(`ofDigestName?_map_toLower`), so every spelling of a name is read as its small letters are, and
these can be computed. In the other direction, the two parts and the word between them make up the
name (`exists_word_of_splitAtWith?`), and each part is found in capital letters.
-/

namespace SignedHandshake.AlgorithmPair

/-! ## The names that there are -/

/-- The name of the pair of a hash function and a signature algorithm. -/
def digestName (hash : HashName) (signature : DigestSignature) : Text :=
  hash.name ++ "with" ++ signature.name

/-- All names that are read, each in one spelling. -/
def names : List Text :=
  EdVariant.all.flatMap EdVariant.names ++
    HashName.all.flatMap fun hash => DigestSignature.all.map (digestName hash)

theorem mem_names_of_variant {variant : EdVariant} {name : Text}
    (h : name ∈ variant.names) : name ∈ names := by
  have hvariant : variant ∈ EdVariant.all := by cases variant <;> decide
  exact List.mem_append_left _ (List.mem_flatMap.mpr ⟨variant, hvariant, h⟩)

theorem digestName_mem_names (hash : HashName) (signature : DigestSignature) :
    digestName hash signature ∈ names := by
  have hhash : hash ∈ HashName.all := by cases hash <;> decide
  have hsignature : signature ∈ DigestSignature.all := by cases signature <;> decide
  exact List.mem_append_right _
    (List.mem_flatMap.mpr ⟨hash, hhash, List.mem_map.mpr ⟨signature, hsignature, rfl⟩⟩)

/-- They are ASCII without a `k`, so it makes no difference how their letters are compared. There
are no blanks in them, and the letter `w` once at most. -/
theorem isPlainName_of_mem_names : ∀ name ∈ names,
    name.IsPlainName ∧ name.units.any Text.isBlankUnit = false ∧
      (name.units.map Text.smallUnit).count 0x77 ≤ 1 := by
  decide

theorem not_blank_of_mem_names {name : Text} (h : name ∈ names) :
    ∀ unit ∈ name.units, Text.isBlankUnit unit = false := by
  obtain ⟨-, hblank, -⟩ := isPlainName_of_mem_names name h
  exact fun unit hunit => Bool.eq_false_iff.mpr (List.any_eq_false.mp hblank unit hunit)

theorem isPlainName_digestName (hash : HashName) (signature : DigestSignature) :
    (digestName hash signature).IsPlainName :=
  (isPlainName_of_mem_names _ (digestName_mem_names hash signature)).1

/-! ## Characters of names -/

/-- The characters of names are the letters and digits of ASCII, and the low line. -/
theorem isNameChar_iff {c : Char} :
    isNameChar c = true ↔ (0x30 ≤ c.toNat ∧ c.toNat ≤ 0x39) ∨ (0x41 ≤ c.toNat ∧ c.toNat ≤ 0x5A) ∨
      c.toNat = 0x5F ∨ (0x61 ≤ c.toNat ∧ c.toNat ≤ 0x7A) := by
  have hline : c = '_' ↔ c.toNat = 0x5F := Char.toNat_inj.symm
  simp only [isNameChar, Char.isAlphanum, Char.isAlpha, Char.isUpper, Char.isLower, Char.isDigit,
    Bool.or_eq_true, Bool.and_eq_true, decide_eq_true_eq, beq_iff_eq, ge_iff_le,
    UInt32.le_iff_toNat_le, hline]
  show ((0x41 ≤ c.toNat ∧ c.toNat ≤ 0x5A ∨ 0x61 ≤ c.toNat ∧ c.toNat ≤ 0x7A) ∨
    0x30 ≤ c.toNat ∧ c.toNat ≤ 0x39) ∨ c.toNat = 0x5F ↔ _
  omega

theorem isNameChar_toLower (c : Char) : isNameChar c.toLower = isNameChar c := by
  rw [Bool.eq_iff_iff, isNameChar_iff, isNameChar_iff, Text.toNat_toLower]
  split <;> omega

theorem capitals_map_toLower (cs : List Char) : capitals (cs.map Char.toLower) = capitals cs := by
  simp [capitals, Function.comp_def]

/-- The characters of a part in capital letters, in small letters. -/
theorem map_toLower_of_capitals {cs : List Char} {name : Text} (h : name = capitals cs) :
    cs.map Char.toLower = name.chars.map Char.toLower := by
  rw [h, capitals, Text.chars_ofChars]
  simp [Function.comp_def]

/-! ## Taking names apart -/

/-- The word in front is `with`, in any case of letters. -/
theorem afterWith?_eq_some_iff {cs rest : List Char} :
    afterWith? cs = some rest ↔
      ∃ word, cs = word ++ rest ∧ word.map Char.toLower = "with".toList := by
  constructor
  · intro h
    unfold afterWith? at h
    split at h
    next a b c d more =>
      split at h
      next hword =>
        cases h
        exact ⟨[a, b, c, d], rfl, hword⟩
      next => cases h
    next => cases h
  · rintro ⟨word, rfl, hword⟩
    -- a word of four letters, whatever their case
    have hlength : word.length = 4 := by
      rw [← List.length_map Char.toLower, hword]
      rfl
    match word, hlength, hword with
    | [a, b, c, d], _, hword => exact if_pos hword

theorem afterWith?_map_toLower (cs : List Char) :
    afterWith? (cs.map Char.toLower) = (afterWith? cs).map (List.map Char.toLower) := by
  refine Option.ext fun small => ?_
  rw [afterWith?_eq_some_iff, Option.map_eq_some_iff]
  constructor
  · rintro ⟨word, hparts, hword⟩
    -- the word and the rest of the small letters come from parts of the text
    obtain ⟨front, rest, rfl, rfl, rfl⟩ := List.map_eq_append_iff.mp hparts
    have hfront : front.map Char.toLower = "with".toList := by
      rw [← hword]
      simp
    exact ⟨rest, afterWith?_eq_some_iff.mpr ⟨front, rfl, hfront⟩, rfl⟩
  · rintro ⟨rest, hrest, rfl⟩
    obtain ⟨word, rfl, hword⟩ := afterWith?_eq_some_iff.mp hrest
    refine ⟨word.map Char.toLower, List.map_append, ?_⟩
    rw [hword]
    rfl

/-- The parts and the word between them make up the name. -/
theorem exists_word_of_splitAtWith? {before rest first second : List Char}
    (h : splitAtWith? before rest = some (first, second)) :
    ∃ word, before.reverse ++ rest = first ++ word ++ second ∧
      word.map Char.toLower = "with".toList := by
  induction rest generalizing before with
  | nil => cases h
  | cons c rest ih =>
    rw [splitAtWith?] at h
    -- the last `with` counts, so a later cut is kept if there is one
    cases hlater : splitAtWith? (c :: before) rest with
    | some parts =>
      rw [hlater] at h
      cases h
      obtain ⟨word, hparts, hword⟩ := ih hlater
      rw [List.reverse_cons, List.append_assoc] at hparts
      exact ⟨word, hparts, hword⟩
    | none =>
      simp only [hlater] at h
      split at h
      next next more hafter =>
        split at h
        · cases h
        · cases h
          obtain ⟨word, hrest, hword⟩ := afterWith?_eq_some_iff.mp hafter
          exact ⟨word, by rw [hrest, List.append_assoc], hword⟩
      next => cases h

/-- Where a name is taken apart does not depend on the case of its letters. -/
theorem splitAtWith?_map_toLower (before rest : List Char) :
    splitAtWith? (before.map Char.toLower) (rest.map Char.toLower) =
      (splitAtWith? before rest).map fun (first, second) =>
        (first.map Char.toLower, second.map Char.toLower) := by
  induction rest generalizing before with
  | nil => rfl
  | cons c rest ih =>
    have hlater := ih (c :: before)
    rw [List.map_cons] at hlater
    rw [List.map_cons, splitAtWith?, splitAtWith?, hlater, ← List.map_cons, afterWith?_map_toLower]
    -- a later cut comes first; otherwise the name is cut here, if `with` follows
    cases splitAtWith? (c :: before) rest with
    | some parts => rfl
    | none =>
      cases afterWith? (c :: rest) with
      | none => rfl
      | some behind =>
        cases behind with
        | nil => rfl
        | cons next more =>
          simp only [Option.map_some, Option.map_none, List.map_cons, List.isEmpty_map]
          split
          · rfl
          · simp only [Option.map_some, List.map_reverse, List.map_cons]

/-- So what a name is read as does not depend on it either. -/
theorem ofDigestName?_map_toLower (cs : List Char) :
    ofDigestName? (cs.map Char.toLower) = ofDigestName? cs := by
  have hall : (cs.map Char.toLower).all isNameChar = cs.all isNameChar := by
    rw [List.all_map]
    exact congrArg cs.all (funext isNameChar_toLower)
  have hsplit := splitAtWith?_map_toLower [] cs
  rw [List.map_nil] at hsplit
  unfold ofDigestName?
  rw [hall, hsplit]
  cases splitAtWith? [] cs with
  | none => rfl
  | some parts =>
    simp only [Option.map_some, Option.bind_eq_bind, Option.bind_some, capitals_map_toLower]

/-! ## Names of a hash function and a signature algorithm -/

variable {hash : HashName} {signature : DigestSignature}

/-- The characters of the name are those of its parts. -/
theorem chars_digestName (hash : HashName) (signature : DigestSignature) :
    (digestName hash signature).chars =
      hash.name.chars ++ "with".toList ++ signature.name.chars := by
  have hascii := (isPlainName_digestName hash signature).ascii
  have hfront : ∀ unit ∈ (hash.name ++ "with").units, unit.toNat < 0x80 := fun unit hunit =>
    hascii unit (List.mem_append_left _ hunit)
  rw [digestName, Text.chars_append hascii, Text.chars_append hfront, Text.chars_ofString]

/-- The name is read as the pair. -/
theorem ofDigestName?_digestName (hash : HashName) (signature : DigestSignature) :
    ofDigestName? (digestName hash signature).chars = some (ofDigest hash signature) := by
  cases hash <;> cases signature <;> decide

/-- The names of such pairs are read, in any case of letters, and no others. -/
theorem ofDigestName?_eq_some_iff {cs : List Char} {pair : AlgorithmPair} :
    ofDigestName? cs = some pair ↔ ∃ hash signature, pair = ofDigest hash signature ∧
      cs.map Char.toLower = (digestName hash signature).chars.map Char.toLower := by
  constructor
  · intro h
    unfold ofDigestName? at h
    split at h
    · cases h
    · obtain ⟨⟨first, second⟩, hsplit, h⟩ := Option.bind_eq_some_iff.mp h
      obtain ⟨hash, hhash, h⟩ := Option.bind_eq_some_iff.mp h
      obtain ⟨signature, hsignature, h⟩ := Option.bind_eq_some_iff.mp h
      cases h
      -- the parts are the capitals of the two names, around the word
      obtain ⟨word, hparts, hword⟩ := exists_word_of_splitAtWith? hsplit
      have hhash := List.find?_some hhash
      have hsignature := List.find?_some hsignature
      have hfirst := map_toLower_of_capitals (eq_of_beq hhash)
      have hsecond := map_toLower_of_capitals (eq_of_beq hsignature)
      refine ⟨hash, signature, rfl, ?_⟩
      rw [List.reverse_nil, List.nil_append] at hparts
      rw [hparts, chars_digestName, List.map_append, List.map_append, List.map_append,
        List.map_append, hword, hfirst, hsecond]
      rfl
  · rintro ⟨hash, signature, rfl, hletters⟩
    rw [← ofDigestName?_map_toLower, hletters, ofDigestName?_map_toLower, ofDigestName?_digestName]

theorem ofDigestName?_chars_eq_some_iff {text : Text} {pair : AlgorithmPair} :
    ofDigestName? text.chars = some pair ↔ ∃ hash signature, pair = ofDigest hash signature ∧
      text.SameLetters (digestName hash signature) := by
  simp only [ofDigestName?_eq_some_iff,
    Text.sameLetters_iff_chars (isPlainName_digestName _ _).ascii]

/-- Such a name says nothing to the reader that knows the variants: no name of a
variant has a `w`. -/
theorem ofAlgorithm?_of_digestName {text : Text}
    (h : text.trim.SameLetters (digestName hash signature)) :
    EdDsaName.ofAlgorithm? text = none := by
  -- there is no `w` in a known name, but one in `with`
  have hnone :
      ∀ known ∈ ReencoderRegistry.knownNames, (known.units.map Text.smallUnit).count 0x77 = 0 := by
    decide
  have hone : 1 ≤ ((digestName hash signature).units.map Text.smallUnit).count 0x77 := by
    have hword : (("with" : Text).units.map Text.smallUnit).count 0x77 = 1 := by decide
    simp only [digestName, Text.units_append, List.map_append, List.count_append, hword]
    omega
  refine Option.eq_none_iff_forall_ne_some.mpr fun found hfound => ?_
  obtain ⟨known, hknown, hspells, -⟩ := EdDsaName.ofAlgorithm?_eq_some_iff.mp hfound
  have hletters := (ReencoderRegistry.spells_iff_of_mem_knownNames hknown).mp hspells
  have hcount := hnone known hknown
  rw [← hletters, h] at hcount
  omega

/-! ## All names -/

/-- The two readers together. -/
theorem ofName?_eq_some_iff {text : Text} {pair : AlgorithmPair} :
    ofName? text = some pair ↔
      (∃ variant, pair = ofVariant variant ∧ EdDsaName.ofAlgorithm? text = some (.only variant)) ∨
        ∃ hash signature, pair = ofDigest hash signature ∧
          text.trim.SameLetters (digestName hash signature) := by
  -- the reader of variants comes first, and it knows no name with a digest
  by_cases hvariant : ∃ variant, EdDsaName.ofAlgorithm? text = some (.only variant)
  · obtain ⟨variant, hvariant⟩ := hvariant
    rw [ofName?, hvariant]
    constructor
    · intro h
      cases h
      exact .inl ⟨variant, rfl, rfl⟩
    · rintro (⟨other, rfl, hother⟩ | ⟨hash, signature, -, hletters⟩)
      · cases hother
        rfl
      · rw [ofAlgorithm?_of_digestName hletters] at hvariant
        cases hvariant
  · have hread : ofName? text = ofDigestName? text.trim.chars := by
      unfold ofName?
      split
      next variant hfound => exact absurd ⟨variant, hfound⟩ hvariant
      next => rfl
    rw [hread, ofDigestName?_chars_eq_some_iff]
    constructor
    · exact .inr
    · rintro (⟨variant, -, hfound⟩ | hnames)
      · exact absurd ⟨variant, hfound⟩ hvariant
      · exact hnames

/-- Whatever is read spells one of these names. -/
theorem exists_name_of_ofName? {text : Text} {pair : AlgorithmPair} (h : ofName? text = some pair) :
    ∃ name ∈ names, text.trim.SameLetters name := by
  rcases ofName?_eq_some_iff.mp h with ⟨variant, -, hfound⟩ | ⟨hash, signature, -, hletters⟩
  · obtain ⟨name, hname, hletters⟩ := EdDsaName.ofAlgorithm?_eq_only_iff.mp hfound
    exact ⟨name, mem_names_of_variant hname, hletters⟩
  · exact ⟨_, digestName_mem_names hash signature, hletters⟩

/-- The name of an engine is one of them. -/
theorem mem_names_of_engineName? {pair : AlgorithmPair} {name : Text}
    (h : pair.engineName? = some name) :
    name ∈ names := by
  rcases engineName?_eq_some_iff.mp h with ⟨variant, -, rfl⟩ | ⟨hash, signature, -, rfl⟩
  · exact mem_names_of_variant List.mem_cons_self
  · exact digestName_mem_names hash signature

/-- The word `with` stands in a text twice, in any case of its letters. -/
def TwiceWith (text : Text) : Prop :=
  ∃ before between after : List UInt16, text.units.map Text.smallUnit =
    before ++ ("with" : Text).units ++ between ++ ("with" : Text).units ++ after

theorem two_le_count_of_twiceWith {text : Text} (h : TwiceWith text) :
    2 ≤ (text.units.map Text.smallUnit).count 0x77 := by
  obtain ⟨before, between, after, hunits⟩ := h
  have honce : ("with" : Text).units.count 0x77 = 1 := by decide
  rw [hunits]
  simp only [List.count_append, honce]
  omega

/-- **Reading names and naming pairs undo each other.** A text is read as a pair exactly if, without
the blanks around it, it is the name of the engine for the pair in any case of ASCII letters, or the
pair is that of a variant and the text is the object identifier of the variant, bare or behind
`OID.`. Nothing is read in which a character outside ASCII, a blank or a second `with` is left. And
every pair that has a name is read from it. -/
theorem ofName?_exact :
    (∀ (text : Text) (pair : AlgorithmPair), ofName? text = some pair ↔
      (∃ name, pair.engineName? = some name ∧ text.trim.SameLetters name) ∨
        ∃ variant, pair = ofVariant variant ∧ (text.trim = variant.identifier ∨
          text.trim.SameLetters ("OID." ++ variant.identifier))) ∧
    (∀ text : Text, (∃ unit ∈ text.trim.units, 0x80 ≤ unit.toNat ∨ Text.isBlankUnit unit = true) ∨
      TwiceWith text.trim → ofName? text = none) ∧
    ∀ (pair : AlgorithmPair) (name : Text), pair.engineName? = some name →
      ofName? name = some pair := by
  have hexact (text : Text) (pair : AlgorithmPair) : ofName? text = some pair ↔
      (∃ name, pair.engineName? = some name ∧ text.trim.SameLetters name) ∨
        ∃ variant, pair = ofVariant variant ∧ (text.trim = variant.identifier ∨
          text.trim.SameLetters ("OID." ++ variant.identifier)) := by
    -- what the two readers know, sorted by names and identifiers
    rw [ofName?_eq_some_iff]
    simp only [engineName?_eq_some_iff, EdDsaName.ofAlgorithm?_eq_only_iff,
      EdVariant.exists_mem_names_iff]
    constructor
    · rintro (⟨variant, hpair, hname | hidentifier⟩ | ⟨hash, signature, hpair, hletters⟩)
      · exact .inl ⟨variant.name, .inl ⟨variant, hpair, rfl⟩, hname⟩
      · exact .inr ⟨variant, hpair, hidentifier⟩
      · exact .inl ⟨_, .inr ⟨hash, signature, hpair, rfl⟩, hletters⟩
    · rintro (⟨_, ⟨variant, hpair, rfl⟩ | ⟨hash, signature, hpair, rfl⟩, hletters⟩ |
        ⟨variant, hpair, hidentifier⟩)
      · exact .inl ⟨variant, hpair, .inl hletters⟩
      · exact .inr ⟨hash, signature, hpair, hletters⟩
      · exact .inl ⟨variant, hpair, .inr hidentifier⟩
  refine ⟨hexact, fun text hodd => ?_, fun pair name hname => ?_⟩
  · refine Option.eq_none_iff_forall_ne_some.mpr fun pair hread => ?_
    obtain ⟨name, hlisted, hletters⟩ := exists_name_of_ofName? hread
    obtain ⟨hplain, -, honce⟩ := isPlainName_of_mem_names name hlisted
    -- spelled like a listed name, the text is ASCII without blanks and has one `w`
    rcases hodd with ⟨unit, hunit, hlarge | hblank⟩ | htwice
    · have hascii := hletters.ascii hplain.ascii unit hunit
      omega
    · rw [hletters.not_blank (not_blank_of_mem_names hlisted) unit hunit] at hblank
      cases hblank
    · have htwo := two_le_count_of_twiceWith htwice
      rw [hletters] at htwo
      omega
  · -- a listed name has no blanks around it
    have hblank := not_blank_of_mem_names (mem_names_of_engineName? hname)
    have htrim : name.trim = name := Text.SameLetters.trim_eq rfl hblank
    refine (hexact name pair).mpr (.inl ⟨name, hname, ?_⟩)
    rw [htrim]
    rfl

end SignedHandshake.AlgorithmPair
