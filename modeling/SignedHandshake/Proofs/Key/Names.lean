import SignedHandshake.Proofs.Key.Secret
import SignedHandshake.Proofs.Text.Case

/-!
# The names that keys travel under (specification §10.6)

Names are read in several places, and not by the same rule. Here these rules are brought together,
up to the agreement of the two paths from the name of a key's algorithm to a key factory
(**`ReencoderRegistry.find?_standard_agrees`**).
-/

namespace SignedHandshake

/-!
## Normal forms

What a name says about the variant is found by comparing it, trimmed, with the names there are, in
small letters except for a bare object identifier. Re-encoders are looked up under the trimmed name
in small letters. Engines compare in small letters and do not trim. What a name says depends on its
normal form alone (`EdDsaName.ofAlgorithm?_eq`), a re-encoder is there exactly for the names that
say something, and it rebuilds keys for what the name says (`ReencoderRegistry.find?_standard`), and
a name that an engine takes says the variant of the engine (`EdDsaName.ofAlgorithm?_of_lower`). So
what is rebuilt of a key depends on the key alone (`Key.rebuilt`).
-/

variable {ω : Type}

/-! ### What a name says -/

/-- The names of the variants are plain. -/
theorem EdVariant.isPlainName_name (variant : EdVariant) : variant.name.IsPlainName := by
  cases variant <;> decide

/-- A name that is a variant's in small letters is the variant's letter by letter. -/
theorem EdVariant.lower_eq_lower_name_iff {text : Text} {variant : EdVariant} :
    text.lower = variant.name.lower ↔ text.SameLetters variant.name :=
  Text.lower_eq_lower_iff variant.isPlainName_name

/-- An object identifier has no letters, so it makes no difference in which case it is compared. -/
theorem EdVariant.lower_eq_identifier_iff {text : Text} {variant : EdVariant} :
    text.lower = variant.identifier ↔ text = variant.identifier := by
  have hbelow : variant.identifier.units.all (fun unit => decide (unit.toNat < 0x41)) = true := by
    cases variant <;> decide
  exact Text.lower_eq_iff_eq fun unit hunit =>
    of_decide_eq_true (List.all_eq_true.mp hbelow unit hunit)

namespace EdDsaName

/-- The factory of the family builds keys of both variants, the others build those of their own. -/
theorem covers_iff {name : EdDsaName} {variant : EdVariant} :
    name.covers variant = true ↔ name = .only variant ∨ name = .family := by
  rw [covers, Bool.or_eq_true, beq_iff_eq, beq_iff_eq, or_comm]

/-- What a normal form says about the variant. -/
def ofNormalForm? (small : Text) : Option EdDsaName :=
  if small == family.name.lower then some .family
  else (EdVariant.all.find? fun variant => small == variant.name.lower ||
    small == variant.identifier || small == "oid." ++ variant.identifier).map .only

/-- What a name says depends on its normal form alone. -/
theorem ofAlgorithm?_eq (algorithm : Text) :
    ofAlgorithm? algorithm = ofNormalForm? (ReencoderRegistry.normalForm algorithm) := by
  have hnames : namesVariant algorithm.trim = fun variant =>
      algorithm.trim.lower == variant.name.lower || algorithm.trim.lower == variant.identifier ||
        algorithm.trim.lower == "oid." ++ variant.identifier := by
    funext variant
    have hidentifier : (algorithm.trim == variant.identifier) =
        (algorithm.trim.lower == variant.identifier) := by
      rw [Bool.eq_iff_iff, beq_iff_eq, beq_iff_eq, EdVariant.lower_eq_identifier_iff]
    rw [namesVariant, hidentifier]
  rw [ofAlgorithm?, hnames]
  rfl

/-- A name that an engine for a variant takes says that variant, and nothing else. -/
theorem ofAlgorithm?_of_lower {algorithm : Text} {variant : EdVariant}
    (h : algorithm.lower = variant.name.lower) : ofAlgorithm? algorithm = some (.only variant) := by
  have hletters := EdVariant.lower_eq_lower_name_iff.mp h
  have hblank : variant.name.units.any Text.isBlankUnit = false := by
    cases variant <;> decide
  have htrim : algorithm.trim = algorithm := hletters.trim_eq fun unit hunit =>
    Bool.eq_false_iff.mpr (List.any_eq_false.mp hblank unit hunit)
  rw [ofAlgorithm?_eq, ReencoderRegistry.normalForm, htrim, h]
  cases variant <;> decide

end EdDsaName

/-! ### Which re-encoder is registered -/

namespace ReencoderRegistry

/-- All normal forms, with what they say. -/
def spellings : List (Text × EdDsaName) :=
  [("eddsa", .family), ("ed25519", .only .ed25519), ("ed448", .only .ed448),
    ("1.3.101.112", .only .ed25519), ("1.3.101.113", .only .ed448),
    ("oid.1.3.101.112", .only .ed25519), ("oid.1.3.101.113", .only .ed448)]

/-- The list is right, and it is complete. -/
theorem lookup_spellings (small : Text) :
    spellings.lookup small = EdDsaName.ofNormalForm? small := by
  cases hlookup : spellings.lookup small with
  | some found =>
    -- whatever is listed is also read
    have hlisted : ∀ entry ∈ spellings, EdDsaName.ofNormalForm? entry.1 = some entry.2 := by
      decide
    obtain ⟨before, after, hsplit, -⟩ := List.lookup_eq_some_iff.mp hlookup
    have hmem : (small, found) ∈ spellings := by
      rw [hsplit]
      exact List.mem_append_right _ List.mem_cons_self
    exact (hlisted _ hmem).symm
  | none =>
    -- what is not listed differs from the small letters of every name
    have hother {text : Text} (h : text ∈ spellings.map Prod.fst) : (small == text) = false := by
      obtain ⟨entry, hentry, rfl⟩ := List.mem_map.mp h
      exact beq_false_of_ne (bne_iff_ne.mp (List.lookup_eq_none_iff.mp hlookup entry hentry))
    have hfamily : (small == EdDsaName.family.name.lower) = false := hother (by decide)
    have hvariant (variant : EdVariant) :
        (small == variant.name.lower || small == variant.identifier ||
          small == "oid." ++ variant.identifier) = false := by
      rw [hother, hother, hother] <;> cases variant <;> decide
    simp only [EdDsaName.ofNormalForm?, hfamily, hvariant]
    rfl

/-- **A re-encoder is registered for exactly those names that say something about the variant**, and
it goes through the factory of what the name says. -/
theorem find?_standard (name : Text) :
    (standard : ReencoderRegistry ω).find? name =
      (EdDsaName.ofAlgorithm? name).map fun found => .viaPkcs8 found.name := by
  have hentries : (standard : ReencoderRegistry ω).entries.entries =
      spellings.map fun (small, found) => (small, .viaPkcs8 found.name) := rfl
  have hlookup (entries : List (Text × EdDsaName)) (small : Text) :
      (entries.map fun (small, found) =>
        (small, (Reencoder.viaPkcs8 found.name : Reencoder ω))).lookup
        small = (entries.lookup small).map fun found => .viaPkcs8 found.name := by
    induction entries with
    | nil => rfl
    | cons entry rest ih =>
      rw [List.map_cons, List.lookup_cons, List.lookup_cons, ih]
      cases small == entry.1 <;> rfl
  rw [find?, NameMap.find?, hentries, hlookup, lookup_spellings, EdDsaName.ofAlgorithm?_eq]

end ReencoderRegistry

/-! ### What is rebuilt -/

/-- What the re-encoders of this library make of a key. A key stays what it is if its name says
nothing. -/
def Key.rebuilt (key : Key) : Except Failure (Option Key) :=
  match EdDsaName.ofAlgorithm? key.algorithm with
  | none => .ok none
  | some name => (name.rebuild key).map some

theorem ReencoderRegistry.rebuilds_rebuilt (suite : Suite) (key : Key) :
    (standard : ReencoderRegistry ω).Rebuilds suite key key.rebuilt := by
  have hfound := find?_standard (ω := ω) key.algorithm
  unfold Key.rebuilt
  cases hname : EdDsaName.ofAlgorithm? key.algorithm with
  | none =>
    rw [hname] at hfound
    exact rebuilds_of_none hfound
  | some name =>
    rw [hname] at hfound
    exact rebuilds_standard suite hfound

/-- A key is rebuilt for what its name says. -/
theorem Key.rebuilt_eq_ok_iff {key replaced : Key} :
    key.rebuilt = .ok (some replaced) ↔
      ∃ name, EdDsaName.ofAlgorithm? key.algorithm = some name ∧
        name.rebuild key = .ok replaced := by
  unfold rebuilt
  cases hname : EdDsaName.ofAlgorithm? key.algorithm <;> simp

end SignedHandshake

/-!
## Which names are known

Two paths lead from the name of a key's algorithm to a key factory. One compares the name with the
names there are, the other looks it up among the re-encoders that are registered, and they bring it
into a normal form in different ways. They agree on every text there is
(**`find?_standard_agrees`**): on texts with blanks around them, in any case of letters, and with
any characters outside ASCII. What both of them know are the known names, written in any case of
ASCII letters and with any blanks around them, and nothing else: no other character has one of their
letters for its small form.
-/

namespace SignedHandshake

variable {ω : Type}

namespace ReencoderRegistry

/-- No blank stands in a known name, and each can be compared letter by letter. -/
theorem isPlainName_of_mem_knownNames :
    ∀ known ∈ knownNames, known.IsPlainName ∧ known.units.any Text.isBlankUnit = false := by
  decide

/-- A text spells a known name if it has its letters once it is trimmed. -/
theorem spells_iff_of_mem_knownNames {name known : Text} (hknown : known ∈ knownNames) :
    name.Spells known ↔ name.trim.SameLetters known := by
  obtain ⟨-, hblank⟩ := isPlainName_of_mem_knownNames known hknown
  exact Text.spells_iff fun unit hunit =>
    Bool.eq_false_iff.mpr (List.any_eq_false.mp hblank unit hunit)

/-- A name has the normal form of a known name exactly if it spells it. -/
theorem normalForm_eq_lower_iff {name known : Text} (hknown : known ∈ knownNames) :
    normalForm name = known.lower ↔ name.Spells known := by
  obtain ⟨hplain, -⟩ := isPlainName_of_mem_knownNames known hknown
  rw [normalForm, Text.lower_eq_lower_iff hplain, spells_iff_of_mem_knownNames hknown]

/-- A known name is in its normal form up to the case of its letters. -/
theorem normalForm_of_mem_knownNames {known : Text} (hknown : known ∈ knownNames) :
    normalForm known = known.lower :=
  (normalForm_eq_lower_iff hknown).mpr
    ⟨known, [], [], (List.append_nil _).symm, nofun, rfl⟩

/-- Every normal form that says something is that of a known name, which says the same. -/
theorem exists_known_of_mem_spellings :
    ∀ entry ∈ spellings, ∃ known ∈ knownNames,
      known.lower = entry.1 ∧ EdDsaName.ofAlgorithm? known = some entry.2 := by
  decide

end ReencoderRegistry

open ReencoderRegistry

/-- A name says what the known name says that it spells, and otherwise it says nothing. -/
theorem EdDsaName.ofAlgorithm?_eq_some_iff {name : Text} {found : EdDsaName} :
    ofAlgorithm? name = some found ↔
      ∃ known ∈ knownNames, name.Spells known ∧ ofAlgorithm? known = some found := by
  constructor
  · intro h
    rw [ofAlgorithm?_eq, ← lookup_spellings, List.lookup_eq_some_iff] at h
    obtain ⟨before, after, hsplit, -⟩ := h
    -- the normal form is listed, as the small letters of a known name
    have hmem : (normalForm name, found) ∈ spellings := by
      rw [hsplit]
      exact List.mem_append_right _ List.mem_cons_self
    obtain ⟨known, hknown, hlower, hfound⟩ := exists_known_of_mem_spellings _ hmem
    exact ⟨known, hknown, (normalForm_eq_lower_iff hknown).mp hlower.symm, hfound⟩
  · rintro ⟨known, hknown, hspells, hfound⟩
    rw [ofAlgorithm?_eq, (normalForm_eq_lower_iff hknown).mpr hspells,
      ← normalForm_of_mem_knownNames hknown, ← ofAlgorithm?_eq]
    exact hfound

/-- What each known name stands for. -/
def EdDsaName.meanings : List (Text × EdDsaName) :=
  [("EdDSA", .family), ("Ed25519", .only .ed25519), ("Ed448", .only .ed448),
    ("1.3.101.112", .only .ed25519), ("1.3.101.113", .only .ed448),
    ("OID.1.3.101.112", .only .ed25519), ("OID.1.3.101.113", .only .ed448)]

/-- The known names are those that stand for something. -/
theorem EdDsaName.mem_meanings_iff {known : Text} {found : EdDsaName} :
    (known, found) ∈ meanings ↔ known ∈ knownNames ∧ ofAlgorithm? known = some found := by
  have hmeanings : meanings = knownNames.flatMap fun known =>
      (ofAlgorithm? known).toList.map (known, ·) := by
    decide
  simp [hmeanings]

/-- A name says what it spells. -/
theorem EdDsaName.ofAlgorithm?_eq_some_iff_meanings {name : Text} {found : EdDsaName} :
    ofAlgorithm? name = some found ↔ ∃ known, (known, found) ∈ meanings ∧ name.Spells known := by
  rw [ofAlgorithm?_eq_some_iff]
  constructor
  · rintro ⟨known, hknown, hspells, hfound⟩
    exact ⟨known, mem_meanings_iff.mpr ⟨hknown, hfound⟩, hspells⟩
  · rintro ⟨known, hmem, hspells⟩
    obtain ⟨hknown, hfound⟩ := mem_meanings_iff.mp hmem
    exact ⟨known, hknown, hspells, hfound⟩

/-! ### The names of a variant -/

/-- The names of a variant: its own, and its object identifier, bare or behind `OID.`. -/
def EdVariant.names (variant : EdVariant) : List Text :=
  [variant.name, variant.identifier, "OID." ++ variant.identifier]

/-- An object identifier has no letters that could be written in another case. -/
theorem EdVariant.sameLetters_identifier_iff {text : Text} {variant : EdVariant} :
    text.SameLetters variant.identifier ↔ text = variant.identifier := by
  have hplain : variant.identifier.IsPlainName := by
    cases variant <;> decide
  have hlower : variant.identifier.lower = variant.identifier :=
    EdVariant.lower_eq_identifier_iff.mpr rfl
  rw [← Text.lower_eq_lower_iff hplain, hlower, EdVariant.lower_eq_identifier_iff]

theorem EdVariant.exists_mem_names_iff {text : Text} {variant : EdVariant} :
    (∃ name ∈ variant.names, text.SameLetters name) ↔
      text.SameLetters variant.name ∨ text = variant.identifier ∨
        text.SameLetters ("OID." ++ variant.identifier) := by
  simp [names, sameLetters_identifier_iff]

/-- A text says a variant by one of its names, without the blanks around it. -/
theorem EdDsaName.ofAlgorithm?_eq_only_iff {text : Text} {variant : EdVariant} :
    ofAlgorithm? text = some (.only variant) ↔
      ∃ name ∈ variant.names, text.trim.SameLetters name := by
  -- the names of a variant are among the known ones, and say just the variant
  have hread : ∀ known ∈ knownNames, ofAlgorithm? known = some (.only variant) ↔
      known ∈ variant.names := by
    cases variant <;> decide
  have hknown : ∀ name ∈ variant.names, name ∈ knownNames := by
    cases variant <;> decide
  rw [ofAlgorithm?_eq_some_iff]
  constructor
  · rintro ⟨known, hmem, hspells, hfound⟩
    exact ⟨known, (hread known hmem).mp hfound, (spells_iff_of_mem_knownNames hmem).mp hspells⟩
  · rintro ⟨name, hname, hletters⟩
    have hmem := hknown name hname
    exact ⟨name, hmem, (spells_iff_of_mem_knownNames hmem).mpr hletters,
      (hread name hmem).mpr hname⟩

/-! ### The registry -/

/-- **The registry and the names agree.** For every text, a re-encoder is registered if and
only if the text says something about the variant. Its standard name is then the one that the
text stands for, and there is a key factory of this name. And a text says what a known name
stands for exactly if it spells this name: letter by letter up to the case of ASCII letters,
and with any blanks around it. -/
theorem ReencoderRegistry.find?_standard_agrees (suite : Suite) (name : Text) :
    (((standard : ReencoderRegistry ω).find? name).isSome ↔ (EdDsaName.ofAlgorithm? name).isSome) ∧
    (∀ reencoder, (standard : ReencoderRegistry ω).find? name = some reencoder →
      (EdDsaName.ofAlgorithm? name).map EdDsaName.name = some reencoder.standardName ∧
        ∃ factory : KeyFactory ω, KeyFactory.create suite reencoder.standardName = .ok factory ∧
          factory.algorithm = reencoder.standardName) ∧
    ∀ found, EdDsaName.ofAlgorithm? name = some found ↔
      ∃ known, (known, found) ∈ EdDsaName.meanings ∧ name.Spells known := by
  refine ⟨?_, fun reencoder hfound => ?_, fun found => EdDsaName.ofAlgorithm?_eq_some_iff_meanings⟩
  · rw [find?_standard, Option.isSome_map]
  · rw [find?_standard] at hfound
    obtain ⟨found, hname, rfl⟩ := Option.map_eq_some_iff.mp hfound
    exact ⟨by rw [hname]; rfl, _, KeyFactory.create_name suite found, rfl⟩

end SignedHandshake
