import SignedHandshake.Proofs.Der.RoundTrip

/-!
# The grammar of private key information (specification §10.6)

The reader of private key information walks over six elements, most of them inside another one, with
offsets that it carries from one to the next. Here the bytes that it takes are described without
offsets: `IsLength` is a length field, `IsElement` a tag, a length field and as many bytes as that
says, and `PrivateKeyInfo.IsEncoding` nests them. Each level of the reader takes exactly what the
grammar has there (`readLength_eq_ok_iff`, `read_eq_ok_iff`), and what is read at an offset does not
depend on what lies behind (`read_append`). Hence the reader accepts the encodings and nothing else,
and of two encodings neither is the beginning of the other (`PrivateKeyInfo.decode_iff_isEncoding`).

A length may be longer than it need be, so a key has many encodings; only one of
them is ever written.
-/

namespace SignedHandshake.Der

/-! ## Lengths -/

/-- The bytes are a length field for `length` content bytes: the length itself if it is below 128,
or one to three digits behind a byte that counts them. Leading digits may be zero. -/
inductive IsLength (length : Nat) : Bytes → Prop where
  | short (hlength : length < 0x80) : IsLength length [UInt8.ofNat length]
  | long (digits : Bytes) (hlow : 1 ≤ digits.length) (hhigh : digits.length ≤ 3)
      (hvalue : Bytes.toNat digits = length) :
      IsLength length (UInt8.ofNat (0x80 + digits.length) :: digits)

/-- A length field is read, whatever is behind it. -/
theorem IsLength.readLength_append {length : Nat} {field : Bytes} (h : IsLength length field)
    (rest : Bytes) : readLength (field ++ rest) = .ok (length, field.length) := by
  cases h with
  | short hlength =>
    have hnat : (UInt8.ofNat length).toNat = length := by
      rw [UInt8.toNat_ofNat']
      omega
    have hfirst : UInt8.ofNat length < 0x80 := by
      rw [UInt8.lt_iff_toNat_lt, hnat]
      exact hlength
    show readLength (UInt8.ofNat length :: rest) = _
    simp only [readLength, if_pos hfirst, hnat, List.length_cons, List.length_nil]
  | long digits hlow hhigh hvalue =>
    rw [List.cons_append, readLength_long hlow hhigh rfl rest, hvalue, List.length_cons,
      Nat.add_comm]

/-- What is read as a length is a length field and what is behind it. -/
theorem exists_isLength {bytes : Bytes} {length width : Nat}
    (h : readLength bytes = .ok (length, width)) :
    ∃ field rest, IsLength length field ∧ bytes = field ++ rest ∧ width = field.length := by
  cases bytes with
  | nil => cases h
  | cons first rest =>
    simp only [readLength] at h
    -- one byte that is the length itself, or a count and as many bytes
    by_cases hshort : first < 0x80
    · rw [if_pos hshort] at h
      cases h
      have hlength : first.toNat < 0x80 := UInt8.lt_iff_toNat_lt.mp hshort
      have hfield : IsLength first.toNat [UInt8.ofNat first.toNat] := .short hlength
      rw [UInt8.ofNat_toNat] at hfield
      exact ⟨[first], rest, hfield, rfl, rfl⟩
    · rw [if_neg hshort, except_error_ite_eq_ok_iff, except_error_ite_eq_ok_iff] at h
      obtain ⟨hform, hthere, h⟩ := h
      rw [Except.ok.injEq, Prod.mk.injEq] at h
      obtain ⟨rfl, rfl⟩ := h
      have hlong : 0x80 ≤ first.toNat := by
        rw [UInt8.lt_iff_toNat_lt] at hshort
        exact Nat.le_of_not_lt hshort
      -- there are as many bytes as the first one says
      have hcount : (rest.take (first.toNat - 0x80)).length = first.toNat - 0x80 := by
        rw [List.length_take]
        omega
      have hfirst : UInt8.ofNat (0x80 + (rest.take (first.toNat - 0x80)).length) = first := by
        rw [hcount, Nat.add_sub_cancel' hlong, UInt8.ofNat_toNat]
      have hfield : IsLength _ _ := .long (rest.take (first.toNat - 0x80)) (by omega) (by omega) rfl
      rw [hfirst] at hfield
      refine ⟨_, rest.drop (first.toNat - 0x80), hfield, ?_, ?_⟩
      · rw [List.cons_append, List.take_append_drop]
      · rw [List.length_cons, hcount, Nat.add_comm]

theorem readLength_eq_ok_iff {bytes : Bytes} {length width : Nat} :
    readLength bytes = .ok (length, width) ↔
      ∃ field rest, IsLength length field ∧ bytes = field ++ rest ∧ width = field.length := by
  constructor
  · exact exists_isLength
  · rintro ⟨field, rest, hfield, rfl, rfl⟩
    exact hfield.readLength_append rest

/-- A length field is never empty. -/
theorem IsLength.ne_nil {length : Nat} {field : Bytes} (h : IsLength length field) :
    field ≠ [] := by
  cases h <;> exact List.cons_ne_nil _ _

/-! ## Elements -/

/-- The bytes are an element: a tag, a length field, and the content. -/
def IsElement (tag : UInt8) (content bytes : Bytes) : Prop :=
  ∃ field, IsLength content.length field ∧ bytes = tag :: (field ++ content)

section

variable {der content bytes rest : Bytes} {offset : Nat} {tag : UInt8} {element : Element}

/-- The content behind a length field is read, whatever is behind it. -/
theorem IsLength.readContent_of_drop {field : Bytes} (h : IsLength content.length field)
    (hdrop : der.drop offset = field ++ (content ++ rest)) :
    readContent der offset = .ok (content, offset + field.length + content.length) := by
  have hlength := congrArg List.length hdrop
  rw [List.length_drop, List.length_append, List.length_append] at hlength
  have hpositive : 0 < field.length := List.length_pos_iff.mpr h.ne_nil
  have hinside : ¬ offset + field.length + content.length > der.length := by omega
  have hcontent : der.drop (offset + field.length) = content ++ rest := by
    rw [← List.drop_drop, hdrop, List.drop_left]
  simp only [readContent, hdrop, h.readLength_append, bind, Except.bind, if_neg hinside, hcontent,
    List.take_left]

/-- An element is read, whatever is behind it. -/
theorem IsElement.read_of_drop (h : IsElement tag content bytes)
    (hdrop : der.drop offset = bytes ++ rest) :
    read der offset = .ok { tag, content, stop := offset + bytes.length } := by
  obtain ⟨field, hfield, rfl⟩ := h
  -- behind the tag stands the length field, and then the content
  have hbehind : der.drop (offset + 1) = field ++ (content ++ rest) := by
    rw [← List.drop_drop, hdrop]
    simp only [List.cons_append, List.drop_succ_cons, List.drop_zero, List.append_assoc]
  have hcontent := hfield.readContent_of_drop hbehind
  obtain ⟨first, more, rfl⟩ := List.exists_cons_of_ne_nil hfield.ne_nil
  have hstop : offset + 1 + (first :: more).length + content.length =
      offset + (tag :: (first :: more ++ content)).length := by
    simp only [List.length_cons, List.length_append]
    omega
  rw [hstop] at hcontent
  simp only [read, hdrop, List.cons_append, hcontent, bind, Except.bind]
  rfl

/-- What is read as an element is an element and what is behind it. -/
theorem exists_isElement (h : read der offset = .ok element) :
    ∃ bytes rest, IsElement element.tag element.content bytes ∧ der.drop offset = bytes ++ rest ∧
      element.stop = offset + bytes.length := by
  unfold read at h
  split at h
  next tag first rest hdrop =>
    obtain ⟨⟨content, stop⟩, hcontent, h⟩ := except_bind_eq_ok_iff.mp h
    cases h
    -- a length field was read, and the content behind it lies inside the bytes
    obtain ⟨⟨length, width⟩, hlength, hcontent⟩ := except_bind_eq_ok_iff.mp hcontent
    obtain ⟨field, behind, hfield, hbehind, hwidth⟩ := readLength_eq_ok_iff.mp hlength
    obtain ⟨hinside, hcontent⟩ := except_error_ite_eq_ok_iff.mp hcontent
    cases hcontent
    have hrest : der.drop (offset + 1 + width) = behind := by
      rw [← List.drop_drop, hbehind, hwidth, List.drop_left]
    have hthere : (behind.take length).length = length := by
      have hleft := congrArg List.length hrest
      rw [List.length_drop] at hleft
      rw [List.length_take]
      omega
    have htail : der.drop (offset + 1) = first :: rest := by
      rw [← List.drop_drop, hdrop]
      rfl
    -- so the element is the tag, the field, and as much content as it says
    refine ⟨tag :: (field ++ behind.take length), behind.drop length, ⟨field, ?_, ?_⟩, ?_, ?_⟩
    · show IsLength (List.take length _).length field
      rw [hrest, hthere]
      exact hfield
    · show _ = tag :: (field ++ List.take length _)
      rw [hrest]
    · rw [hdrop, List.cons_append, List.append_assoc, List.take_append_drop, ← hbehind, htail]
    · show offset + 1 + width + length = _
      rw [List.length_cons, List.length_append, hthere, hwidth]
      omega
  next => cases h

theorem read_eq_ok_iff :
    read der offset = .ok element ↔
      ∃ bytes rest, IsElement element.tag element.content bytes ∧ der.drop offset = bytes ++ rest ∧
        element.stop = offset + bytes.length := by
  constructor
  · exact exists_isElement
  · rintro ⟨bytes, rest, helement, hdrop, hstop⟩
    rw [helement.read_of_drop hdrop, ← hstop]

/-- An element of the expected kind is read, whatever is behind it. -/
theorem IsElement.expect_of_drop (h : IsElement tag content bytes)
    (hdrop : der.drop offset = bytes ++ rest) :
    expect der offset tag = .ok { tag, content, stop := offset + bytes.length } := by
  simp only [expect, h.read_of_drop hdrop, bind, Except.bind, if_true]

/-- An element that stands alone is read whole. -/
theorem IsElement.expect (h : IsElement tag content bytes) :
    expect bytes 0 tag = .ok { tag, content, stop := bytes.length } := by
  rw [h.expect_of_drop (drop_zero_eq bytes), Nat.zero_add]

/-- An expected element that is read comes off the front of what lies ahead. -/
theorem exists_isElement_of_expect {ahead : Bytes} (h : expect der offset tag = .ok element)
    (hahead : der.drop offset = ahead) :
    ∃ bytes rest, IsElement tag element.content bytes ∧ ahead = bytes ++ rest ∧
      element.stop = offset + bytes.length ∧ der.drop element.stop = rest := by
  obtain ⟨found, hread, h⟩ := except_bind_eq_ok_iff.mp h
  obtain ⟨htag, h⟩ := except_ite_error_eq_ok_iff.mp h
  cases h
  obtain ⟨bytes, rest, helement, hdrop, hstop⟩ := exists_isElement hread
  rw [htag] at helement
  refine ⟨bytes, rest, helement, hahead ▸ hdrop, hstop, ?_⟩
  rw [hstop, ← List.drop_drop, hdrop, List.drop_left]

/-- An expected element that ends where the bytes end is all there is. -/
theorem isElement_of_expect (h : expect der 0 tag = .ok element)
    (hstop : element.stop = der.length) :
    IsElement tag element.content der := by
  obtain ⟨bytes, rest, helement, rfl, hbytes, -⟩ := exists_isElement_of_expect h List.drop_zero
  have hnone : rest.length = 0 := by
    rw [hbytes, List.length_append] at hstop
    omega
  rw [List.eq_nil_of_length_eq_zero hnone, List.append_nil]
  exact helement

/-- What is read at an offset does not depend on what lies behind it. -/
theorem read_append (h : read der offset = .ok element) (rest : Bytes) :
    read (der ++ rest) offset = .ok element := by
  obtain ⟨bytes, behind, helement, hdrop, hstop⟩ := read_eq_ok_iff.mp h
  have hinside : offset ≤ der.length := by
    obtain ⟨field, -, rfl⟩ := helement
    have hlength := congrArg List.length hdrop
    simp only [List.length_drop, List.length_append, List.length_cons] at hlength
    omega
  refine read_eq_ok_iff.mpr ⟨bytes, behind ++ rest, helement, ?_, hstop⟩
  rw [List.drop_append_of_le_length hinside, hdrop, List.append_assoc]

theorem expect_append (h : expect der offset tag = .ok element) (rest : Bytes) :
    expect (der ++ rest) offset tag = .ok element := by
  obtain ⟨found, hread, hcheck⟩ := except_bind_eq_ok_iff.mp h
  exact except_bind_eq_ok_iff.mpr ⟨found, read_append hread rest, hcheck⟩

end

/-! ## Private key information -/

namespace PrivateKeyInfo

/-- The bytes encode the information: a sequence of a version 0 or 1, a sequence that starts with
the identifier of the algorithm, and the key in two octet strings, one inside the other. What stands
behind the identifier and behind the key is arbitrary. -/
inductive IsEncoding (info : PrivateKeyInfo) (der : Bytes) : Prop where
  | intro (number : UInt8)
      (identifier parameters attributes version name algorithm key wrapped : Bytes)
      (hnumber : number = 0 ∨ number = 1)
      (hversion : IsElement integerTag [number] version)
      (hidentifier : ObjectIdentifier.decode identifier = .ok info.algorithm)
      (hname : IsElement identifierTag identifier name)
      (halgorithm : IsElement sequenceTag (name ++ parameters) algorithm)
      (hkey : IsElement octetStringTag info.privateKey key)
      (hwrapped : IsElement octetStringTag key wrapped)
      (hder : IsElement sequenceTag (version ++ algorithm ++ wrapped ++ attributes) der)

variable {der : Bytes} {info : PrivateKeyInfo}

/-- A version that the reader takes is one byte, 0 or 1. -/
theorem number_eq {number : UInt8} (h : ¬ number > 1) : number = 0 ∨ number = 1 := by
  have hle : number.toNat ≤ 1 := UInt8.le_iff_toNat_le.mp (UInt8.not_lt.mp h)
  rw [← UInt8.toNat_inj, ← UInt8.toNat_inj]
  show number.toNat = 0 ∨ number.toNat = 1
  omega

/-- What the reader takes is an encoding of what it gives. -/
theorem isEncoding_of_decode (h : decode der = .ok info) : info.IsEncoding der := by
  unfold decode at h
  obtain ⟨outer, houter, h⟩ := except_bind_eq_ok_iff.mp h
  obtain ⟨hwhole, h⟩ := except_throw_ite_eq_ok_iff.mp h
  obtain ⟨version, hversion, h⟩ := except_bind_eq_ok_iff.mp h
  split at h
  next number hcontent =>
    obtain ⟨hnumber, h⟩ := except_throw_ite_eq_ok_iff.mp h
    obtain ⟨algorithm, halgorithm, h⟩ := except_bind_eq_ok_iff.mp h
    obtain ⟨identifier, hidentifier, h⟩ := except_bind_eq_ok_iff.mp h
    obtain ⟨wrapped, hwrapped, h⟩ := except_bind_eq_ok_iff.mp h
    obtain ⟨inner, hinner, h⟩ := except_bind_eq_ok_iff.mp h
    obtain ⟨hkey, h⟩ := except_throw_ite_eq_ok_iff.mp h
    obtain ⟨name, hname, h⟩ := except_bind_eq_ok_iff.mp h
    cases h
    -- the three elements of the body stand one behind the other
    obtain ⟨first, behind, hfirst, hbody, -, hbehind⟩ :=
      exists_isElement_of_expect hversion List.drop_zero
    obtain ⟨second, rest, hsecond, rfl, -, hrest⟩ := exists_isElement_of_expect halgorithm hbehind
    obtain ⟨third, attributes, hthird, rfl, -, -⟩ := exists_isElement_of_expect hwrapped hrest
    obtain ⟨own, parameters, hown, halgorithmContent, -, -⟩ :=
      exists_isElement_of_expect hidentifier List.drop_zero
    have hder := isElement_of_expect houter (Decidable.not_not.mp hwhole)
    rw [hcontent] at hfirst
    rw [halgorithmContent] at hsecond
    rw [hbody, ← List.append_assoc, ← List.append_assoc] at hder
    exact .intro number identifier.content parameters attributes first own second
      wrapped.content third (number_eq hnumber) hfirst hname hown hsecond
      (isElement_of_expect hinner (Decidable.not_not.mp hkey)) hthird hder
  next => cases h

/-- The reader takes every encoding, and gives what it encodes. -/
theorem decode_of_isEncoding (h : info.IsEncoding der) : decode der = .ok info := by
  obtain ⟨number, identifier, parameters, attributes, version, name, algorithm, key, wrapped,
      hnumber, hversion, hidentifier, hname, halgorithm, hkey, hwrapped, hder⟩ := h
  -- where each of the three inner elements stands
  have hversionAt : (version ++ algorithm ++ wrapped ++ attributes).drop 0 =
      version ++ (algorithm ++ (wrapped ++ attributes)) := by
    simp only [List.drop_zero, List.append_assoc]
  have halgorithmAt : (version ++ algorithm ++ wrapped ++ attributes).drop (0 + version.length) =
      algorithm ++ (wrapped ++ attributes) := by
    rw [← List.drop_drop, hversionAt, List.drop_left]
  have hwrappedAt : (version ++ algorithm ++ wrapped ++ attributes).drop
      (0 + version.length + algorithm.length) = wrapped ++ attributes := by
    rw [← List.drop_drop, halgorithmAt, List.drop_left]
  have hsupported : ¬ number > 1 := by
    rcases hnumber with rfl | rfl <;> decide
  simp only [decode, hder.expect, hversion.expect_of_drop hversionAt,
    halgorithm.expect_of_drop halgorithmAt, hwrapped.expect_of_drop hwrappedAt,
    hname.expect_of_drop List.drop_zero, hkey.expect, hidentifier, bind, Except.bind]
  simp only [ne_eq, not_true_eq_false, if_false, if_neg hsupported]
  rfl

/-- What is taken is one element from its first byte to its last. -/
theorem exists_outer_of_decode (h : decode der = .ok info) :
    ∃ outer, expect der 0 sequenceTag = .ok outer ∧ outer.stop = der.length := by
  unfold decode at h
  obtain ⟨outer, houter, h⟩ := except_bind_eq_ok_iff.mp h
  obtain ⟨hwhole, -⟩ := except_throw_ite_eq_ok_iff.mp h
  exact ⟨outer, houter, Decidable.not_not.mp hwhole⟩

/-- Of what is taken, nothing longer is taken: the outermost element says where it ends. -/
theorem eq_nil_of_decode_append {rest : Bytes} {other : PrivateKeyInfo} (h : decode der = .ok info)
    (hlonger : decode (der ++ rest) = .ok other) : rest = [] := by
  obtain ⟨outer, houter, hstop⟩ := exists_outer_of_decode h
  obtain ⟨again, hagain, hstopAgain⟩ := exists_outer_of_decode hlonger
  rw [expect_append houter rest] at hagain
  cases hagain
  rw [hstop, List.length_append] at hstopAgain
  exact List.eq_nil_of_length_eq_zero (by omega)

/-- **The reader of private key information accepts exactly its grammar.** It gives `info`
for the encodings of `info` and for no other bytes, whatever form their lengths have.
Everything else it refuses as malformed DER. Of two byte strings that it accepts, neither is
a proper beginning of the other. -/
theorem decode_iff_isEncoding (der : Bytes) :
    (∀ info, decode der = .ok info ↔ info.IsEncoding der) ∧
    ((∀ info : PrivateKeyInfo, ¬ info.IsEncoding der) →
      ∃ e, decode der = .error e ∧ e.toFailure.kind = .der) ∧
    (∀ longer, der <+: longer → (∃ info, decode der = .ok info) →
      (∃ info, decode longer = .ok info) → longer = der) := by
  refine ⟨fun info => ⟨isEncoding_of_decode, decode_of_isEncoding⟩, ?_, ?_⟩
  · intro hnone
    cases hdecode : decode der with
    | ok info => exact absurd (isEncoding_of_decode hdecode) (hnone info)
    | error e => exact ⟨e, rfl, rfl⟩
  · rintro longer ⟨rest, rfl⟩ ⟨info, hinfo⟩ ⟨other, hother⟩
    rw [eq_nil_of_decode_append hinfo hother, List.append_nil]

/-- A key in its longest spelling: every length has three digits, the version is 1, and there are
parameters and attributes. -/
example :
    (decode [0x30, 0x83, 0, 0, 33, 0x02, 0x83, 0, 0, 1, 1, 0x30, 0x83, 0, 0, 10, 0x06, 0x83, 0, 0,
      3, 0x2B, 0x65, 0x70, 0x05, 0, 0x04, 0x83, 0, 0, 6, 0x04, 0x83, 0, 0, 1, 7, 0xA0]).toOption =
      some { algorithm := "1.3.101.112", privateKey := [7] } := by
  decide +kernel

end PrivateKeyInfo

end SignedHandshake.Der
