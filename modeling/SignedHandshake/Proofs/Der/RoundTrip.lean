import SignedHandshake.Der.Basic
import SignedHandshake.Proofs.Attempt.Rules

/-!
# Reading what was written

A length field has 24 bits at most, so what is read back of an element is its content as far as the
low 24 bits of its length reach (`read_of_drop`). Content that fits is read back whole
(`expect_of_drop`). Of private key information only the outermost element has to be looked at: if
that one fits, then all that is inside fits (`decode_encode_of_lt`), and if it does not, bytes are
left over behind it and the information is refused (`decode_encode_of_le`). Either way no wrong key
comes out (`privateKey_of_decode_encode`).
-/

namespace SignedHandshake.Der

/-- The greatest length that a length field can hold, and one more. -/
def lengthLimit : Nat := Bytes.limit 3

/-! ## Lengths -/

/-- A length of `count` bytes, behind the byte that says so. -/
theorem readLength_long {count : Nat} {field : Bytes} (hlow : 1 ≤ count) (hhigh : count ≤ 3)
    (hfield : field.length = count) (rest : Bytes) :
    readLength (UInt8.ofNat (0x80 + count) :: (field ++ rest)) =
      .ok (Bytes.toNat field, 1 + count) := by
  -- the first byte is above 0x80 and says how many bytes follow
  have hnat : (UInt8.ofNat (0x80 + count)).toNat = 0x80 + count := by
    rw [UInt8.toNat_ofNat']
    omega
  have hfirst : ¬ UInt8.ofNat (0x80 + count) < 0x80 := by
    rw [UInt8.lt_iff_toNat_lt, hnat]
    simp
  have hcount : (UInt8.ofNat (0x80 + count)).toNat - 0x80 = count := by omega
  have hform : ¬ (count = 0 ∨ count > 3) := by omega
  have hthere : ¬ (field ++ rest).length < count := by
    rw [List.length_append]
    omega
  have htake : (field ++ rest).take count = field := by
    rw [← hfield, List.take_left]
  simp only [readLength, if_neg hfirst, hcount, if_neg hform, if_neg hthere, htake]

/-- Of a length that was written, the low 24 bits are read back. -/
theorem readLength_lengthField (n : Nat) (rest : Bytes) :
    readLength (lengthField (.ofNat n) ++ rest) =
      .ok (n % lengthLimit, (lengthField (.ofNat n)).length) := by
  rw [lengthField_ofNat]
  by_cases hshort : n < 0x80
  · have hnat : (UInt8.ofNat n).toNat = n := by
      rw [UInt8.toNat_ofNat']
      omega
    have hfirst : UInt8.ofNat n < 0x80 := by
      rw [UInt8.lt_iff_toNat_lt, hnat]
      exact hshort
    have hmod : n % lengthLimit = n := Nat.mod_eq_of_lt (Nat.lt_trans hshort (by decide))
    rw [if_pos hshort, hmod]
    show readLength (UInt8.ofNat n :: rest) = _
    simp only [readLength, if_pos hfirst, hnat]
    rfl
  · rw [if_neg hshort]
    -- each of the three forms reads back what its count of bytes can hold
    have hread (count : Nat) (hlow : 1 ≤ count) (hhigh : count ≤ 3) (hfits : n % Bytes.limit count =
        n % lengthLimit) :
        readLength (UInt8.ofNat (0x80 + count) :: (Bytes.bigEndian count n ++ rest)) =
          .ok (n % lengthLimit,
              (UInt8.ofNat (0x80 + count) :: Bytes.bigEndian count n).length) := by
      rw [readLength_long hlow hhigh (Bytes.length_bigEndian count n), Bytes.toNat_bigEndian, hfits,
        List.length_cons, Bytes.length_bigEndian, Nat.add_comm 1]
    by_cases hone : n ≤ 0xFF
    · rw [if_pos hone]
      have hone : n % 0x100 = n % 0x1000000 := by omega
      exact hread 1 (by decide) (by decide) hone
    · rw [if_neg hone]
      by_cases htwo : n ≤ 0xFFFF
      · rw [if_pos htwo]
        have htwo : n % 0x10000 = n % 0x1000000 := by omega
        exact hread 2 (by decide) (by decide) htwo
      · rw [if_neg htwo]
        exact hread 3 (by decide) (by decide) rfl

/-- A length field is never empty. -/
theorem lengthField_ne_nil (n : Nat) : lengthField (.ofNat n) ≠ [] := by
  rw [lengthField_ofNat]
  split
  · exact List.cons_ne_nil _ _
  · split
    · exact List.cons_ne_nil _ _
    · split <;> exact List.cons_ne_nil _ _

/-- A length field has four bytes at most. -/
theorem length_lengthField_le (n : Nat) : (lengthField (.ofNat n)).length ≤ 4 := by
  rw [lengthField_ofNat]
  split
  · simp
  · split
    · simp
    · split <;> simp

/-! ## Elements -/

/-- An element is a tag, a length field and the content. -/
theorem length_encode (tag : UInt8) (content : Bytes) :
    (encode tag content).length =
      1 + (lengthField (.ofNat content.length)).length + content.length := by
  simp only [encode, List.cons_append, List.length_cons, List.length_append]
  omega

/-- An element is longer than its content by five bytes at most. -/
theorem length_encode_le (tag : UInt8) (content : Bytes) :
    (encode tag content).length ≤ content.length + 5 := by
  have hfield := length_lengthField_le content.length
  rw [length_encode]
  omega

section

variable {der content rest : Bytes} {offset : Nat} {tag : UInt8}

/-- The content behind a length field is read as far as the low 24 bits of its length reach. -/
theorem readContent_of_drop
    (h : der.drop offset = lengthField (.ofNat content.length) ++ (content ++ rest)) :
    readContent der offset =
      .ok ((content ++ rest).take (content.length % lengthLimit),
        offset + (lengthField (.ofNat content.length)).length + content.length % lengthLimit) := by
  have hmod := Nat.mod_le content.length lengthLimit
  have hlength := congrArg List.length h
  rw [List.length_drop, List.length_append, List.length_append] at hlength
  have hdrop :
      der.drop (offset + (lengthField (.ofNat content.length)).length) = content ++ rest := by
    rw [← List.drop_drop, h, List.drop_left]
  have hpositive : 0 < (lengthField (.ofNat content.length)).length :=
    List.length_pos_iff.mpr (lengthField_ne_nil content.length)
  have hinside : ¬ offset + (lengthField (.ofNat content.length)).length +
      content.length % lengthLimit > der.length := by omega
  simp only [readContent, h, readLength_lengthField, bind, Except.bind, if_neg hinside, hdrop]

/-- An element that was written is read with its content as far as the low 24 bits of its length
reach. -/
theorem read_of_drop (h : der.drop offset = encode tag content ++ rest) :
    read der offset =
      .ok { tag, content := (content ++ rest).take (content.length % lengthLimit),
            stop := offset + 1 + (lengthField (.ofNat content.length)).length +
              content.length % lengthLimit } := by
  have hcontent :
      der.drop (offset + 1) = lengthField (.ofNat content.length) ++ (content ++ rest) := by
    rw [← List.drop_drop, h]
    simp only [encode, List.cons_append, List.drop_succ_cons, List.drop_zero, List.append_assoc]
  obtain ⟨first, more, hfield⟩ := List.exists_cons_of_ne_nil (lengthField_ne_nil content.length)
  have hfront : der.drop offset = tag :: first :: (more ++ (content ++ rest)) := by
    rw [h, encode, hfield]
    simp only [List.cons_append, List.append_assoc]
  simp only [read, hfront, readContent_of_drop hcontent, bind, Except.bind]
  rfl

/-- An element whose content fits is read back whole. -/
theorem expect_of_drop (h : der.drop offset = encode tag content ++ rest)
    (hfits : content.length < lengthLimit) :
    expect der offset tag =
      .ok { tag, content, stop := offset + (encode tag content).length } := by
  have hread := read_of_drop h
  rw [Nat.mod_eq_of_lt hfits, List.take_left] at hread
  have hstop : offset + 1 + (lengthField (.ofNat content.length)).length + content.length =
      offset + (encode tag content).length := by
    rw [length_encode]
    omega
  rw [hstop] at hread
  simp only [expect, hread, bind, Except.bind, if_true]

end

/-- Nothing stands behind an element that stands alone. -/
theorem drop_zero_eq (der : Bytes) : der.drop 0 = der ++ [] := by
  rw [List.drop_zero, List.append_nil]

/-- An element that stands alone is read back whole, if its content fits. -/
theorem expect_encode {tag : UInt8} {content : Bytes} (hfits : content.length < lengthLimit) :
    expect (encode tag content) 0 tag =
      .ok { tag, content, stop := (encode tag content).length } := by
  have hread := expect_of_drop (drop_zero_eq (encode tag content)) hfits
  rw [Nat.zero_add] at hread
  exact hread

/-! ## Private key information -/

namespace PrivateKeyInfo

/-- What is inside the outermost element, with the identifier in its encoded form. -/
def body (identifier privateKey : Bytes) : Bytes :=
  Der.encode integerTag [0] ++
    Der.encode sequenceTag (Der.encode identifierTag identifier) ++
    Der.encode octetStringTag (Der.encode octetStringTag privateKey)

/-- What is inside is longer than the identifier and the key by a few bytes only. -/
theorem length_body_le (identifier privateKey : Bytes) :
    (body identifier privateKey).length ≤ identifier.length + privateKey.length + 26 := by
  have hversion := length_encode_le integerTag [0]
  have hidentifier := length_encode_le identifierTag identifier
  have halgorithm := length_encode_le sequenceTag (Der.encode identifierTag identifier)
  have hkey := length_encode_le octetStringTag privateKey
  have hwrapped := length_encode_le octetStringTag (Der.encode octetStringTag privateKey)
  rw [List.length_singleton] at hversion
  rw [body, List.length_append, List.length_append]
  omega

theorem encode_eq_ok_iff {info : PrivateKeyInfo} {der : Bytes} :
    info.encode = .ok der ↔ ∃ identifier, ObjectIdentifier.encode info.algorithm = .ok identifier ∧
      der = Der.encode sequenceTag (body identifier info.privateKey) := by
  unfold encode
  constructor
  · intro h
    obtain ⟨identifier, hidentifier, h⟩ := except_bind_eq_ok_iff.mp h
    cases h
    exact ⟨identifier, hidentifier, rfl⟩
  · rintro ⟨identifier, hidentifier, rfl⟩
    exact except_bind_eq_ok_iff.mpr ⟨identifier, hidentifier, rfl⟩

/-- What was written is read back, if its length can be written. -/
theorem decode_encode_of_lt {identifier privateKey : Bytes}
    (hfits : (body identifier privateKey).length < lengthLimit) :
    decode (Der.encode sequenceTag (body identifier privateKey)) =
      (ObjectIdentifier.decode identifier).map fun name => { algorithm := name, privateKey } := by
  have hbody : body identifier privateKey = Der.encode integerTag [0] ++
      (Der.encode sequenceTag (Der.encode identifierTag identifier) ++
        Der.encode octetStringTag (Der.encode octetStringTag privateKey)) := by
    rw [body, List.append_assoc]
  -- all elements inside are shorter than the body
  have hlengths := congrArg List.length hbody
  rw [List.length_append, List.length_append, length_encode sequenceTag,
    length_encode octetStringTag]
    at hlengths
  have hidentifier := length_encode identifierTag identifier
  have hprivateKey := length_encode octetStringTag privateKey
  -- where the second and the third of them stand
  have hversionAt : (body identifier privateKey).drop 0 = _ := hbody
  have halgorithmAt : (body identifier privateKey).drop (0 + (Der.encode integerTag [0]).length) =
      Der.encode sequenceTag (Der.encode identifierTag identifier) ++
        Der.encode octetStringTag (Der.encode octetStringTag privateKey) := by
    rw [hbody, Nat.zero_add, List.drop_left]
  have hwrappedAt : (body identifier privateKey).drop (0 + (Der.encode integerTag [0]).length +
      (Der.encode sequenceTag (Der.encode identifierTag identifier)).length) =
      Der.encode octetStringTag (Der.encode octetStringTag privateKey) ++ [] := by
    rw [← List.drop_drop, halgorithmAt, List.drop_left, List.append_nil]
  have houter : expect (Der.encode sequenceTag (body identifier privateKey)) 0 sequenceTag = _ :=
    expect_encode hfits
  have hversion := expect_of_drop hversionAt (by decide)
  have halgorithm := expect_of_drop halgorithmAt (by omega)
  have hwrapped := expect_of_drop hwrappedAt (by omega)
  have hid : expect (Der.encode identifierTag identifier) 0 identifierTag = _ :=
    expect_encode (by omega)
  have hinner : expect (Der.encode octetStringTag privateKey) 0 octetStringTag = _ :=
    expect_encode (by omega)
  simp only [decode, houter, hversion, halgorithm, hwrapped, hid, hinner, bind, Except.bind]
  simp only [ne_eq, not_true_eq_false, if_false]
  rw [if_neg (by decide)]
  cases ObjectIdentifier.decode identifier <;> rfl

/-- Information that is too long to be written is refused. -/
theorem decode_encode_of_le {identifier privateKey : Bytes}
    (hlong : lengthLimit ≤ (body identifier privateKey).length) :
    decode (Der.encode sequenceTag (body identifier privateKey)) = .error .trailingAfterInfo := by
  have hread := read_of_drop (drop_zero_eq (Der.encode sequenceTag (body identifier privateKey)))
  have hlength := length_encode sequenceTag (body identifier privateKey)
  have hmod := Nat.mod_lt (body identifier privateKey).length (by decide : 0 < lengthLimit)
  have hleft : 0 + 1 + (lengthField (.ofNat (body identifier privateKey).length)).length +
      (body identifier privateKey).length % lengthLimit ≠
        (Der.encode sequenceTag (body identifier privateKey)).length := by omega
  simp only [decode, expect, hread, bind, Except.bind, if_true, if_pos hleft]
  rfl

/-- If written information is read back at all, the key in it is the one that was written. -/
theorem privateKey_of_decode_encode {info found : PrivateKeyInfo} {der : Bytes}
    (hencode : info.encode = .ok der) (hdecode : decode der = .ok found) :
    found.privateKey = info.privateKey := by
  obtain ⟨identifier, -, rfl⟩ := encode_eq_ok_iff.mp hencode
  by_cases hfits : (body identifier info.privateKey).length < lengthLimit
  · rw [decode_encode_of_lt hfits] at hdecode
    obtain ⟨name, -, rfl⟩ := except_map_eq_ok_iff.mp hdecode
    rfl
  · rw [decode_encode_of_le (Nat.le_of_not_lt hfits)] at hdecode
    cases hdecode

end PrivateKeyInfo

end SignedHandshake.Der
