import SignedHandshake.Proofs.Der.Arcs
import SignedHandshake.Proofs.Number.Decimal

/-!
# Dotted identifiers and their bytes

An identifier of natural numbers below 2^53 is written as one byte for its first two arcs and the
digits of all others (`encode_dotted`), and such bytes are read as an identifier again
(`decode_cons`). The two are inverse to each other as long as the first two arcs share a byte the
way DER lets them (`decode_encode_dotted`).

Writing does not ask for that. It keeps the low eight bits of what the first two arcs give together,
so the bytes of other identifiers are either refused by the reader or read as an identifier that was
not written, and identifiers that differ in their first two arcs can have the same bytes
(`encode_dotted_collisions`).
-/

namespace SignedHandshake.Der.ObjectIdentifier

/-! ## Dotted texts -/

/-- The identifier with these arcs: their decimal digits with points between them. -/
def dotted (arcs : List Nat) : Text :=
  String.intercalate "." (arcs.map toString)

theorem chars_intercalate (parts : List String) :
    (Text.ofString (String.intercalate "." parts)).chars =
      ['.'].intercalate (parts.map String.toList) := by
  rw [Text.chars_ofString, String.toList_intercalate]
  rfl

/-- Each part stands in the joined text. -/
theorem infix_intercalate {separator part : List Char} {parts : List (List Char)}
    (h : part ∈ parts) : part <:+: separator.intercalate parts := by
  induction parts with
  | nil => cases h
  | cons first others ih =>
    by_cases hothers : others = []
    · subst hothers
      have hjoined : separator.intercalate [first] = part := by
        rw [List.intercalate_singleton, List.mem_singleton.mp h]
      exact hjoined.symm ▸ List.infix_rfl
    · rw [List.intercalate_cons_of_ne_nil hothers]
      rcases List.mem_cons.mp h with rfl | hrest
      · exact ⟨[], separator ++ separator.intercalate others, by simp⟩
      · exact (ih hrest).trans ⟨first ++ separator, [], by simp⟩

theorem chars_dotted (arcs : List Nat) :
    (dotted arcs).chars = ['.'].intercalate (arcs.map (Nat.toDigits 10)) := by
  have hdigits : (arcs.map toString).map String.toList = arcs.map (Nat.toDigits 10) := by
    rw [List.map_map]
    refine List.map_congr_left fun n _ => ?_
    show (toString n).toList = Nat.toDigits 10 n
    rw [Nat.toString_eq_ofList_toDigits, String.toList_ofList]
  rw [dotted, chars_intercalate, hdigits]

/-- Between the points of a dotted identifier stand the digits of its arcs. -/
theorem splitOn_dotted {arcs : List Nat} (hne : arcs ≠ []) :
    (dotted arcs).chars.splitOn '.' = arcs.map (Nat.toDigits 10) := by
  rw [chars_dotted]
  refine List.splitOn_intercalate '.' ?_ (by simpa using hne)
  intro part hpart hpoint
  obtain ⟨n, -, rfl⟩ := List.mem_map.mp hpart
  exact absurd (Nat.isDigit_of_mem_toDigits (by decide) (by decide) hpoint) (by decide)

/-- Dotted identifiers differ as soon as their arcs do. -/
theorem dotted_inj {arcs others : List Nat} (hne : arcs ≠ []) (hothers : others ≠ []) :
    dotted arcs = dotted others ↔ arcs = others := by
  constructor
  · intro hsame
    have hparts := splitOn_dotted hne
    rw [hsame, splitOn_dotted hothers] at hparts
    refine (List.map_injective_iff.mpr (fun m n hdigits => ?_) hparts).symm
    rw [← Nat.ofDigitChars_ten_toDigits (n := m), hdigits, Nat.ofDigitChars_ten_toDigits]
  · rintro rfl
    rfl

/-- The arcs are read off a dotted identifier without rounding. -/
theorem map_ofChars_splitOn {arcs : List Nat} (hne : arcs ≠ []) (h : ∀ n ∈ arcs, n < 2 ^ 53) :
    ((dotted arcs).chars.splitOn '.').map Number.ofChars = arcs.map .ofNat := by
  rw [splitOn_dotted hne, List.map_map]
  exact List.map_congr_left fun n hn => Number.ofChars_toDigits (h n hn)

/-! ## The first byte -/

/-- What is stored for the first two arcs: the low eight bits of 40 times the first
and the second. -/
def leadingOctet (first second : Nat) : UInt8 :=
  (Number.ofNat first * .ofNat 40 + .ofNat second).octet

/-- The first two arcs, as a byte is read. -/
def leadingArcs (octet : UInt8) : Nat × Nat :=
  let top := min (octet.toNat / 40) 2
  (top, octet.toNat - top * 40)

/-- The pairs of first arcs that DER puts into one byte: below 0 and 1 there are 40 arcs, and below
2 those that a byte without the top bit has room for. -/
def ShareOctet (first second : Nat) : Prop :=
  first ≤ 1 ∧ second < 40 ∨ first = 2 ∧ second < 48

instance (first second : Nat) : Decidable (ShareOctet first second) :=
  inferInstanceAs (Decidable (_ ∨ _))

section

variable {first second : Nat}

theorem leadingOctet_eq (h : first * 40 + second < 2 ^ 53) :
    leadingOctet first second = UInt8.ofNat (first * 40 + second) := by
  have hproduct : first * 40 < 2 ^ 53 := by omega
  rw [leadingOctet, Number.mul_ofNat (Number.isBinary64_of_lt hproduct),
    Number.add_ofNat (Number.isBinary64_of_lt h), Number.octet_ofNat]

theorem ShareOctet.toNat_leadingOctet (h : ShareOctet first second) :
    (leadingOctet first second).toNat = first * 40 + second := by
  have hsum : first * 40 + second < 128 := by
    rcases h with ⟨_, _⟩ | ⟨_, _⟩ <;> omega
  rw [leadingOctet_eq (by omega), UInt8.toNat_ofNat']
  omega

/-- Pairs that share a byte are read as they were written. -/
theorem ShareOctet.leadingArcs_leadingOctet (h : ShareOctet first second) :
    leadingArcs (leadingOctet first second) = (first, second) := by
  have htop : min ((first * 40 + second) / 40) 2 = first := by
    rcases h with ⟨_, _⟩ | ⟨_, _⟩ <;> omega
  rw [leadingArcs, h.toNat_leadingOctet, htop, Nat.add_sub_cancel_left]

/-- The arcs that are read from a byte fit it. -/
theorem leadingArcs_lt (octet : UInt8) :
    (leadingArcs octet).1 < 2 ^ 53 ∧ (leadingArcs octet).2 < 2 ^ 53 := by
  have hoctet := octet.toNat_lt
  show min (octet.toNat / 40) 2 < 2 ^ 53 ∧ octet.toNat - min (octet.toNat / 40) 2 * 40 < 2 ^ 53
  omega

/-- They are stored as the byte that they were read from. -/
theorem leadingOctet_leadingArcs (octet : UInt8) :
    leadingOctet (leadingArcs octet).1 (leadingArcs octet).2 = octet := by
  have hoctet := octet.toNat_lt
  have hsum : (leadingArcs octet).1 * 40 + (leadingArcs octet).2 = octet.toNat := by
    show min (octet.toNat / 40) 2 * 40 + (octet.toNat - min (octet.toNat / 40) 2 * 40) = octet.toNat
    omega
  rw [leadingOctet_eq (by omega), hsum, UInt8.ofNat_toNat]

/-- Only pairs that share a byte are read. -/
theorem shareOctet_leadingArcs {octet : UInt8} (h : octet < 0x80) :
    ShareOctet (leadingArcs octet).1 (leadingArcs octet).2 := by
  have hlt : octet.toNat < 128 := UInt8.lt_iff_toNat_lt.mp h
  show min (octet.toNat / 40) 2 ≤ 1 ∧ octet.toNat - min (octet.toNat / 40) 2 * 40 < 40 ∨
    min (octet.toNat / 40) 2 = 2 ∧ octet.toNat - min (octet.toNat / 40) 2 * 40 < 48
  omega

end

/-! ## Writing and reading -/

/-- An identifier is written as the byte of its first two arcs and the digits of the others. -/
theorem encode_dotted {first second : Nat} {rest : List Nat} (hfirst : first < 2 ^ 53)
    (hsecond : second < 2 ^ 53) (hrest : ∀ n ∈ rest, n < 2 ^ 53) :
    encode (dotted (first :: second :: rest)) =
      .ok (leadingOctet first second :: rest.flatMap arcCode) := by
  have harcs : ∀ n ∈ first :: second :: rest, n < 2 ^ 53 :=
    List.forall_mem_cons.mpr ⟨hfirst, List.forall_mem_cons.mpr ⟨hsecond, hrest⟩⟩
  have hwhole :
      ((first :: second :: rest).map Number.ofNat).all (fun arc => arc.nat?.isSome) = true := by
    simp
  have hdigits : (rest.map Number.ofNat).flatMap arcBytes = rest.flatMap arcCode := by
    rw [List.flatMap_map]
    exact List.flatMap_congr fun n hn => arcBytes_ofNat (Number.isBinary64_of_lt (hrest n hn))
  unfold encode
  simp only [map_ofChars_splitOn (List.cons_ne_nil _ _) harcs, hwhole, if_true]
  rw [← hdigits]
  rfl

/-- The arcs of the identifier in the content of an element, as they are read. -/
def readNumbers : Bytes → Except Error (List Number)
  | [] => .error .emptyIdentifier
  | octet :: rest =>
    if octet < 0x80 then
      (readArcs (.ofNat 0) rest).map fun arcs =>
        .ofNat (leadingArcs octet).1 :: .ofNat (leadingArcs octet).2 :: arcs
    else .error .multiByteLeadingArcs

/-- The identifier with arcs of any kind. -/
def written (arcs : List Number) : Text :=
  String.intercalate "." (arcs.map Number.text)

/-- Reading an identifier is reading its arcs. -/
theorem decode_eq (content : Bytes) : decode content = (readNumbers content).map written := by
  cases content with
  | nil => rfl
  | cons octet rest =>
    unfold decode readNumbers
    by_cases hoctet : octet < 0x80
    · simp only [if_pos hoctet]
      cases readArcs (.ofNat 0) rest <;> rfl
    · simp only [if_neg hoctet]
      rfl

theorem written_ofNat {arcs : List Nat} (h : ∀ n ∈ arcs, n < 2 ^ 53) :
    written (arcs.map .ofNat) = dotted arcs := by
  rw [written, dotted, List.map_map]
  exact congrArg (fun parts => Text.ofString (String.intercalate "." parts))
    (List.map_congr_left fun n hn => Number.text_ofNat (h n hn))

/-- The digits of arcs behind a first byte are read as these arcs. -/
theorem decode_cons {octet : UInt8} (hoctet : octet < 0x80) {rest : List Nat}
    (hrest : ∀ n ∈ rest, n < 2 ^ 53) :
    decode (octet :: rest.flatMap arcCode) =
      .ok (dotted ((leadingArcs octet).1 :: (leadingArcs octet).2 :: rest)) := by
  obtain ⟨htop, hsub⟩ := leadingArcs_lt octet
  have harcs : ∀ n ∈ (leadingArcs octet).1 :: (leadingArcs octet).2 :: rest, n < 2 ^ 53 :=
    List.forall_mem_cons.mpr ⟨htop, List.forall_mem_cons.mpr ⟨hsub, hrest⟩⟩
  rw [decode_eq, readNumbers, if_pos hoctet,
    readArcs_flatMap fun n hn => Number.isBinary64_of_lt (hrest n hn), ← written_ofNat harcs]
  rfl

/-- A first byte with the top bit is refused. -/
theorem decode_of_not_lt {octet : UInt8} (hoctet : ¬ octet < 0x80) (rest : Bytes) :
    decode (octet :: rest) = .error .multiByteLeadingArcs := by
  rw [decode, if_neg hoctet]

section

variable {first second : Nat} {rest : List Nat}

/-- **Identifiers are read back from their bytes.** The first byte is 40 times the first arc and the
second, and behind it are the digits of all further arcs. -/
theorem decode_encode_dotted (hleading : ShareOctet first second) (hrest : ∀ n ∈ rest, n < 2 ^ 53) :
    ∃ octet : UInt8, octet.toNat = first * 40 + second ∧
      encode (dotted (first :: second :: rest)) = .ok (octet :: rest.flatMap arcCode) ∧
      decode (octet :: rest.flatMap arcCode) = .ok (dotted (first :: second :: rest)) := by
  have hsmall : first < 2 ^ 53 ∧ second < 2 ^ 53 := by
    rcases hleading with ⟨_, _⟩ | ⟨_, _⟩ <;> omega
  have hoctet : leadingOctet first second < 0x80 := by
    rw [UInt8.lt_iff_toNat_lt, hleading.toNat_leadingOctet]
    show first * 40 + second < 128
    rcases hleading with ⟨_, _⟩ | ⟨_, _⟩ <;> omega
  refine ⟨leadingOctet first second, hleading.toNat_leadingOctet,
    encode_dotted hsmall.1 hsmall.2 hrest, ?_⟩
  rw [decode_cons hoctet hrest, hleading.leadingArcs_leadingOctet]

/-- The last pair of first arcs that shares a byte, an arc of eight digits, and arcs
of one and two. -/
theorem decode_encode_dotted_last :
    ShareOctet 2 47 ∧ (∀ n ∈ [2 ^ 53 - 1, 0, 128], n < 2 ^ 53) ∧
      encode (dotted [2, 47, 2 ^ 53 - 1, 0, 128]) =
        .ok [0x7F, 0x8F, 0xFF, 0xFF, 0xFF, 0xFF, 0xFF, 0xFF, 0x7F, 0x00, 0x81, 0x00] ∧
      decode [0x7F, 0x8F, 0xFF, 0xFF, 0xFF, 0xFF, 0xFF, 0xFF, 0x7F, 0x00, 0x81, 0x00] =
        .ok "2.47.9007199254740991.0.128" := by
  have hleading : ShareOctet 2 47 := by decide
  have hrest : ∀ n ∈ [2 ^ 53 - 1, 0, 128], n < 2 ^ 53 := by decide
  obtain ⟨octet, hoctet, hencode, hdecode⟩ := decode_encode_dotted hleading hrest
  obtain rfl : octet = 0x7F := UInt8.toNat_inj.mp hoctet
  have hcode : [2 ^ 53 - 1, 0, 128].flatMap arcCode =
      [0x8F, 0xFF, 0xFF, 0xFF, 0xFF, 0xFF, 0xFF, 0x7F, 0x00, 0x81, 0x00] := by
    simp [arcCode, continued]
  have hdotted : dotted [2, 47, 2 ^ 53 - 1, 0, 128] = "2.47.9007199254740991.0.128" := by
    decide
  rw [hcode] at hencode hdecode
  rw [hdotted] at hdecode
  exact ⟨hleading, hrest, hencode, hdecode⟩

/-- **Which identifiers have each other's bytes.** Every identifier of two arcs or more is written,
whatever its first two arcs are, with the low eight bits of what they give together. The bytes are
read as another identifier exactly if these bits look like a first byte although the two arcs
cannot share one, and two identifiers have the same bytes exactly if they have the same first byte
and the same further arcs. -/
theorem encode_dotted_collisions (hfirst : first < 2 ^ 53) (hsecond : second < 2 ^ 53)
    (hrest : ∀ n ∈ rest, n < 2 ^ 53) :
    encode (dotted (first :: second :: rest)) =
        .ok (leadingOctet first second :: rest.flatMap arcCode) ∧
      (first * 40 + second < 2 ^ 53 →
        leadingOctet first second = UInt8.ofNat (first * 40 + second)) ∧
      ((∃ other, decode (leadingOctet first second :: rest.flatMap arcCode) = .ok other ∧
          other ≠ dotted (first :: second :: rest)) ↔
        leadingOctet first second < 0x80 ∧ ¬ ShareOctet first second) ∧
      (∀ first' second' : Nat, ∀ rest' : List Nat, first' < 2 ^ 53 → second' < 2 ^ 53 →
        (∀ n ∈ rest', n < 2 ^ 53) →
        (encode (dotted (first' :: second' :: rest')) = encode (dotted (first :: second :: rest)) ↔
          leadingOctet first' second' = leadingOctet first second ∧ rest' = rest)) := by
  refine ⟨encode_dotted hfirst hsecond hrest, leadingOctet_eq, ?_, ?_⟩
  · constructor
    · rintro ⟨other, hdecode, hother⟩
      by_cases hoctet : leadingOctet first second < 0x80
      · refine ⟨hoctet, fun hshare => ?_⟩
        rw [decode_cons hoctet hrest, hshare.leadingArcs_leadingOctet] at hdecode
        cases hdecode
        exact hother rfl
      · rw [decode_of_not_lt hoctet] at hdecode
        cases hdecode
    · rintro ⟨hoctet, hshare⟩
      refine ⟨_, decode_cons hoctet hrest, fun hsame => hshare ?_⟩
      -- what is read shares a byte, so it is not what was written
      have harcs := (dotted_inj (List.cons_ne_nil _ _) (List.cons_ne_nil _ _)).mp hsame
      obtain ⟨htop, htail⟩ := List.cons.inj harcs
      obtain ⟨hsub, -⟩ := List.cons.inj htail
      have hread := shareOctet_leadingArcs hoctet
      rwa [htop, hsub] at hread
  · intro first' second' rest' hfirst' hsecond' hrest'
    rw [encode_dotted hfirst hsecond hrest, encode_dotted hfirst' hsecond' hrest', Except.ok.injEq,
      List.cons.injEq, flatMap_arcCode_inj fun n hn => Number.isBinary64_of_lt (hrest' n hn)]
    exact fun n hn => Number.isBinary64_of_lt (hrest n hn)

end

/-- Below 1 there is no arc 40. What is written for it is the first byte of arc 0 below 2. -/
theorem encode_dotted_collisions_share :
    (1 < 2 ^ 53 ∧ 40 < 2 ^ 53 ∧ ∀ n ∈ [2 ^ 53 - 1], n < 2 ^ 53) ∧
      encode (dotted [1, 40, 2 ^ 53 - 1]) = .ok (0x50 :: arcCode (2 ^ 53 - 1)) ∧
      encode (dotted [2, 0, 2 ^ 53 - 1]) = encode (dotted [1, 40, 2 ^ 53 - 1]) ∧
      ∃ other, decode (0x50 :: arcCode (2 ^ 53 - 1)) = .ok other ∧
        other ≠ dotted [1, 40, 2 ^ 53 - 1] := by
  have hrest : ∀ n ∈ [2 ^ 53 - 1], n < 2 ^ 53 := by decide
  obtain ⟨hencode, hoctet, hother, hsame⟩ := encode_dotted_collisions (show 1 < 2 ^ 53 by decide)
    (show 40 < 2 ^ 53 by decide) hrest
  have hleading : leadingOctet 1 40 = 0x50 := hoctet (by decide)
  have hshared : leadingOctet 2 0 = leadingOctet 1 40 := by
    rw [hleading, leadingOctet_eq (by decide)]
    rfl
  have hread := hother.mpr ⟨by rw [hleading]; decide, by decide⟩
  rw [hleading] at hencode hread
  exact ⟨⟨by decide, by decide, hrest⟩, hencode,
    (hsame 2 0 [2 ^ 53 - 1] (by decide) (by decide) hrest).mpr ⟨hshared, rfl⟩, hread⟩

/-- So two identifiers have the same bytes, and one of them is not read back. -/
theorem decode_encode_shared :
    encode "1.40" = .ok [0x50] ∧ encode "2.0" = .ok [0x50] ∧ decode [0x50] = .ok "2.0" ∧
      ("2.0" : Text) ≠ "1.40" := by
  have hencode : (encode "1.40").toOption = some [0x50] := by decide +kernel
  have hother : (encode "2.0").toOption = some [0x50] := by decide +kernel
  have hdecode : (decode [0x50]).toOption = some "2.0" := by decide
  exact ⟨except_toOption_eq_some_iff.mp hencode, except_toOption_eq_some_iff.mp hother,
    except_toOption_eq_some_iff.mp hdecode, by decide⟩

end SignedHandshake.Der.ObjectIdentifier
