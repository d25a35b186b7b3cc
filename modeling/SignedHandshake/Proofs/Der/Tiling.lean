import Mathlib.Data.List.Forall2
import SignedHandshake.Proofs.Der.Grammar

/-!
# Elements in a byte string

What the reader of single elements gives, and what it takes for it. Content of up to 24 bits of
length is read back wherever its element stands in a byte string, and longer content never is
(**`read_encode_iff`**). Whatever is read lies inside the byte string, from the offset that was
asked for to the offset that is given back, and the written form of it is no longer than the bytes
it was read from (**`read_sound`**).

The offset that is given back lies at least two bytes further on. So elements that are read one
behind the other (`Tiles`) come to an end, and by induction on the walk their bytes make up a prefix
of the byte string (`Tiles.flatten_eq`).

The written form is compared with the bytes that were read by way of the grammar: both have the
same tag and the same content, and of all length fields for one length the written one is the
shortest (`IsLength.shortest`).
-/

namespace SignedHandshake.Der

/-! ## The shortest length field -/

/-- A length that needs more than one byte is written with as few digits as it fits into. -/
theorem lengthField_of_le {length : Nat} (hlong : 0x80 ≤ length) :
    ∃ width, 1 ≤ width ∧ (∀ count, count ≤ 3 → length < Bytes.limit count → width ≤ count) ∧
      lengthField (.ofNat length) = UInt8.ofNat (0x80 + width) :: Bytes.bigEndian width length := by
  -- how many bytes a length needs at least
  have hfew (count : Nat) (hcount : count ≤ 3) (hfits : length < Bytes.limit count) :
      1 ≤ count ∧ (0xFF < length → 2 ≤ count) ∧ (0xFFFF < length → 3 ≤ count) := by
    match count, hcount with
    | 0, _ | 1, _ | 2, _ | 3, _ =>
      simp only [Bytes.limit] at hfits
      omega
  rw [lengthField_ofNat, if_neg (Nat.not_lt.mpr hlong)]
  by_cases hone : length ≤ 0xFF
  · rw [if_pos hone]
    exact ⟨1, by decide, fun count hcount hfits => (hfew count hcount hfits).1, rfl⟩
  · rw [if_neg hone]
    by_cases htwo : length ≤ 0xFFFF
    · rw [if_pos htwo]
      exact ⟨2, by decide, fun count hcount hfits => (hfew count hcount hfits).2.1 (by omega), rfl⟩
    · rw [if_neg htwo]
      exact ⟨3, by decide, fun count hcount hfits => (hfew count hcount hfits).2.2 (by omega), rfl⟩

/-- Of all length fields for a length, the one that is written is the shortest, and
no other one is as short. -/
theorem IsLength.shortest {length : Nat} {field : Bytes} (h : IsLength length field) :
    (lengthField (.ofNat length)).length ≤ field.length ∧
      ((lengthField (.ofNat length)).length = field.length ↔
        lengthField (.ofNat length) = field) := by
  cases h with
  | short hlength =>
    have hfield : lengthField (.ofNat length) = [UInt8.ofNat length] := by
      rw [lengthField_ofNat, if_pos hlength]
      rfl
    rw [hfield]
    exact ⟨Nat.le_refl _, iff_of_true rfl rfl⟩
  | long digits hlow hhigh hvalue =>
    have hfits : length < Bytes.limit digits.length := hvalue ▸ Bytes.toNat_lt digits
    have hdigits : Bytes.bigEndian digits.length length = digits :=
      hvalue ▸ Bytes.bigEndian_toNat digits
    by_cases hshort : length < 0x80
    · -- one byte would have been enough
      have hfield : (lengthField (.ofNat length)).length = 1 := by
        rw [lengthField_ofNat, if_pos hshort, Bytes.length_bigEndian]
      rw [hfield, List.length_cons]
      refine ⟨by omega, fun hsame => by omega, fun hsame => ?_⟩
      rw [hsame, List.length_cons] at hfield
      omega
    · obtain ⟨width, -, hfewest, hfield⟩ := lengthField_of_le (Nat.le_of_not_lt hshort)
      have hwidth := hfewest digits.length hhigh hfits
      rw [hfield, List.length_cons, List.length_cons, Bytes.length_bigEndian]
      refine ⟨by omega, fun hsame => ?_, fun hsame => ?_⟩
      · -- as many digits of the same number are the same digits
        obtain rfl : width = digits.length := by omega
        rw [hdigits]
      · have hlength := congrArg List.length hsame
        rw [List.length_cons, List.length_cons, Bytes.length_bigEndian] at hlength
        exact hlength

/-- The first byte of a length field is followed by three more at most. -/
theorem IsLength.length_le {length : Nat} {field : Bytes} (h : IsLength length field) :
    field.length ≤ 4 := by
  cases h with
  | short =>
    rw [List.length_singleton]
    decide
  | long digits _ hhigh =>
    rw [List.length_cons]
    omega

/-- No length field says more than 24 bits. -/
theorem IsLength.le_max {length : Nat} {field : Bytes} (h : IsLength length field) :
    length ≤ 0xFFFFFF := by
  cases h with
  | short hlength => omega
  | long digits hlow hhigh hvalue =>
    have hfits := Bytes.toNat_lt digits
    rw [hvalue] at hfits
    match hcount : digits.length, hhigh with
    | 0, _ | 1, _ | 2, _ | 3, _ =>
      rw [hcount] at hfits
      simp only [Bytes.limit] at hfits
      omega

/-! ## Single elements -/

section

variable {der content bytes : Bytes} {offset : Nat} {tag : UInt8} {element : Element}

/-- Of all elements with the same tag and content, the one that is written is the shortest, and
no other one is as short. -/
theorem IsElement.shortest (h : IsElement tag content bytes) :
    (encode tag content).length ≤ bytes.length ∧
      ((encode tag content).length = bytes.length ↔ encode tag content = bytes) := by
  obtain ⟨field, hfield, rfl⟩ := h
  obtain ⟨hle, hsame⟩ := hfield.shortest
  simp only [encode, List.cons_append, List.length_cons, List.length_append, List.cons.injEq,
    true_and, List.append_cancel_right_eq]
  refine ⟨by omega, Iff.trans ?_ hsame⟩
  omega

/-- Content is read back exactly if its length fits into 24 bits, wherever its element stands;
longer content is not read from any bytes. -/
theorem read_encode_iff (tag : UInt8) (content before behind : Bytes) :
    (read (before ++ encode tag content ++ behind) before.length =
        .ok { tag, content, stop := before.length + (encode tag content).length } ↔
      content.length ≤ 0xFFFFFF) ∧
    (0xFFFFFF < content.length → ∀ der offset element, read der offset = .ok element →
      element.content ≠ content) := by
  -- whatever is read, its length field has 24 bits at most
  have hlimit {der : Bytes} {offset : Nat} {element : Element} (h : read der offset = .ok element) :
      element.content.length ≤ 0xFFFFFF := by
    obtain ⟨_, _, ⟨field, hfield, -⟩, -, -⟩ := read_eq_ok_iff.mp h
    exact hfield.le_max
  refine ⟨⟨hlimit, fun hfits => ?_⟩, fun hlong der offset element hread hsame => ?_⟩
  · have hdrop : (before ++ encode tag content ++ behind).drop before.length =
        encode tag content ++ behind := by
      rw [List.append_assoc, List.drop_left]
    have hfits : content.length < lengthLimit := Nat.lt_succ_of_le hfits
    obtain ⟨element, hread, helement⟩ := except_bind_eq_ok_iff.mp (expect_of_drop hdrop hfits)
    rw [hread]
    exact (except_ite_error_eq_ok_iff.mp helement).2
  · have hshort := hlimit hread
    rw [hsame] at hshort
    omega

/-- What is read lies inside the byte string: a tag, then the length field, then as
many bytes as that says. -/
theorem exists_field_of_read (h : read der offset = .ok element) :
    ∃ more, more ≤ 3 ∧ offset + 2 + more ≤ element.stop ∧ element.stop ≤ der.length ∧
      der[offset]? = some element.tag ∧
      IsLength (element.stop - (offset + 2 + more)) ((der.drop (offset + 1)).take (1 + more)) ∧
      element.content =
        (der.drop (offset + 2 + more)).take (element.stop - (offset + 2 + more)) := by
  obtain ⟨bytes, rest, ⟨field, hfield, rfl⟩, hdrop, hstop⟩ := read_eq_ok_iff.mp h
  have hpositive := List.length_pos_iff.mpr hfield.ne_nil
  have hfew := hfield.length_le
  have hlength := congrArg List.length hdrop
  simp only [List.length_drop, List.length_append, List.length_cons] at hlength hstop
  have hbehind : der.drop (offset + 1) = field ++ (element.content ++ rest) := by
    rw [← List.drop_drop, hdrop]
    simp only [List.cons_append, List.drop_succ_cons, List.drop_zero, List.append_assoc]
  -- the positions in the statement are those of the grammar
  have hmore : 1 + (field.length - 1) = field.length := by omega
  have hstart : offset + 2 + (field.length - 1) = offset + 1 + field.length := by omega
  have hcontent :
      element.stop - (offset + 2 + (field.length - 1)) = element.content.length := by omega
  refine ⟨field.length - 1, by omega, by omega, by omega, ?_, ?_, ?_⟩
  · rw [← List.head?_drop, hdrop]
    rfl
  · rw [hcontent, hmore, hbehind, List.take_left]
    exact hfield
  · rw [hcontent, hstart, ← List.drop_drop, hbehind, List.drop_left, List.take_left]

/-- What is read has at least two bytes and ends inside the byte string. -/
theorem stop_of_read (h : read der offset = .ok element) :
    offset + 2 ≤ element.stop ∧ element.stop ≤ der.length := by
  obtain ⟨more, -, hstart, hinside, -⟩ := exists_field_of_read h
  exact ⟨by omega, hinside⟩

/-- No written element is longer than the bytes that it can be read from, and only these
very bytes are as short. -/
theorem shortest_of_read (h : read der offset = .ok element) :
    (encode element.tag element.content).length ≤ element.stop - offset ∧
      ((encode element.tag element.content).length = element.stop - offset ↔
        encode element.tag element.content = (der.drop offset).take (element.stop - offset)) := by
  obtain ⟨bytes, rest, hbytes, hdrop, hstop⟩ := read_eq_ok_iff.mp h
  rw [hstop, Nat.add_sub_cancel_left, hdrop, List.take_left]
  exact hbytes.shortest

/-- A length with a digit that it does not need: what is read from four bytes is
written with three. -/
example :
    ((read [0x02, 0x81, 0x01, 0x05] 0).map fun element =>
      (element.stop, encode element.tag element.content)).toOption =
      some (4, [0x02, 0x01, 0x05]) := by
  decide

/-- A whole element is found at a position only. -/
theorem exists_position_of_readAt {number : Number} {found : Found}
    (h : readAt der number = .ok found) (htag : found.tag? ≠ none) :
    ∃ position element, number = .ofNat position ∧ read der position = .ok element ∧
      found = element.found := by
  unfold readAt at h
  cases hnat : number.nat? with
  | some position =>
    simp only [hnat] at h
    obtain ⟨element, hread, rfl⟩ := except_map_eq_ok_iff.mp h
    exact ⟨position, element, Number.nat?_eq_some_iff.mp hnat, hread, rfl⟩
  | none =>
    -- without a position there is no byte for the tag
    simp only [hnat] at h
    rw [except_error_ite_eq_ok_iff] at h
    cases hbehind : (number + .ofNat 1).nat? with
    | none =>
      simp only [hbehind] at h
      cases h.2
      exact absurd rfl htag
    | some position =>
      simp only [hbehind] at h
      obtain ⟨_, -, rfl⟩ := except_map_eq_ok_iff.mp h.2
      exact absurd rfl htag

end

/-! ## Elements one behind the other -/

/-- These elements are read one behind the other: the first from `offset`, each other one from where
the one before it ends, and the last of them ends at `stop`. -/
inductive Tiles (der : Bytes) : (offset : Nat) → List Element → (stop : Nat) → Prop where
  | nil (offset : Nat) : Tiles der offset [] offset
  | cons {offset stop : Nat} {element : Element} {rest : List Element}
      (hread : read der offset = .ok element) (hrest : Tiles der element.stop rest stop) :
      Tiles der offset (element :: rest) stop

section

variable {der : Bytes} {offset stop : Nat} {elements : List Element}

/-- Each element takes two bytes at least, so there are not many of them. -/
theorem Tiles.stop_le (h : Tiles der offset elements stop) (hinside : offset ≤ der.length) :
    offset + 2 * elements.length ≤ stop ∧ stop ≤ der.length := by
  induction h with
  | nil offset => exact ⟨Nat.le_refl offset, hinside⟩
  | cons hread _ ih =>
    obtain ⟨hprogress, hinside⟩ := stop_of_read hread
    obtain ⟨hlast, hinside⟩ := ih hinside
    rw [List.length_cons]
    exact ⟨by omega, hinside⟩

/-- The bytes of the elements, one behind the other, are the bytes from the
first offset to the last. -/
theorem Tiles.flatten_eq (h : Tiles der offset elements stop) :
    ∃ pieces : List Bytes,
      List.Forall₂ (fun element piece =>
        IsElement element.tag element.content piece) elements pieces ∧
        der.drop offset = pieces.flatten ++ der.drop stop ∧
          stop = offset + pieces.flatten.length := by
  induction h with
  | nil offset => exact ⟨[], .nil, rfl, rfl⟩
  | cons hread _ ih =>
    obtain ⟨piece, rest, hpiece, hdrop, hstop⟩ := read_eq_ok_iff.mp hread
    obtain ⟨pieces, hpieces, hflatten, hlast⟩ := ih
    rw [hstop, ← List.drop_drop, hdrop, List.drop_left] at hflatten
    refine ⟨piece :: pieces, .cons hpiece hpieces, ?_, ?_⟩
    · rw [hdrop, hflatten, List.flatten_cons, List.append_assoc]
    · rw [hlast, hstop, List.flatten_cons, List.length_append, Nat.add_assoc]

/-- With a step for every byte that is left, the walk ends where the bytes end or
where no element can be read. -/
theorem tiles_readAllFrom (der : Bytes) (fuel : Nat) {offset : Nat}
    (hfuel : der.length ≤ offset + fuel) :
    ∃ stop, Tiles der offset (readAllFrom der offset fuel).1 stop ∧
      ((readAllFrom der offset fuel).2 = none ∧ der.length ≤ stop ∨
        ∃ e, (readAllFrom der offset fuel).2 = some e ∧ read der stop = .error e ∧
        stop < der.length) := by
  induction fuel generalizing offset with
  | zero => exact ⟨offset, .nil offset, .inl ⟨rfl, hfuel⟩⟩
  | succ fuel ih =>
    rw [readAllFrom]
    by_cases hend : der.length ≤ offset
    · rw [if_pos hend]
      exact ⟨offset, .nil offset, .inl ⟨rfl, hend⟩⟩
    · rw [if_neg hend]
      cases hread : read der offset with
      | error e => exact ⟨offset, .nil offset, .inr ⟨e, rfl, hread, Nat.lt_of_not_le hend⟩⟩
      | ok element =>
        -- every element that is read takes at least two bytes, so the fuel suffices
        have hprogress := (stop_of_read hread).1
        have hfuel : der.length ≤ element.stop + fuel := by omega
        obtain ⟨stop, htiles, hlast⟩ := ih hfuel
        exact ⟨stop, .cons hread htiles, hlast⟩

/-- Every walk is the beginning of the one that goes as far as it can. -/
theorem Tiles.isPrefix_readAllFrom (h : Tiles der offset elements stop) {fuel : Nat}
    (hfuel : der.length ≤ offset + fuel) : elements <+: (readAllFrom der offset fuel).1 := by
  induction h generalizing fuel with
  | nil => exact List.nil_prefix
  | @cons offset _ element rest hread _ ih =>
    obtain ⟨hprogress, hinside⟩ := stop_of_read hread
    cases fuel with
    | zero => omega
    | succ fuel =>
      have hmore : ¬ der.length ≤ offset := by omega
      rw [readAllFrom, if_neg hmore, hread]
      exact List.cons_prefix_cons.mpr ⟨rfl, ih (by omega)⟩

/-- **What is read of a byte string lies in it, and is written no longer.** An element that is read
at an offset has its tag there, then a length field of up to four bytes, and then exactly the
content that this field announces, all of it inside the byte string; anything else is refused as
malformed DER, and away from the positions of the byte string no element is found. The written form
of the element is no longer than the bytes it was read from, and just as long only if it is these
bytes. Reading one element behind the other comes to an end, and what is read that way makes up a
prefix of the byte string, without gaps. -/
theorem read_sound (der : Bytes) :
    (∀ offset,
      match read der offset with
      | .error e => e.toFailure.kind = .der
      | .ok element =>
        offset + 2 ≤ element.stop ∧ element.stop ≤ der.length ∧
        (∃ more, more ≤ 3 ∧
          let start := offset + 2 + more
          start ≤ element.stop ∧ der[offset]? = some element.tag ∧
          IsLength (element.stop - start) ((der.drop (offset + 1)).take (1 + more)) ∧
          element.content = (der.drop start).take (element.stop - start)) ∧
        let written := encode element.tag element.content
        written.length ≤ element.stop - offset ∧
          (written.length = element.stop - offset ↔
            written = (der.drop offset).take (element.stop - offset))) ∧
    (∀ number found, readAt der number = .ok found → found.tag? ≠ none →
      ∃ offset element, number = .ofNat offset ∧ read der offset = .ok element ∧
        found = element.found) ∧
    (∃ stop, Tiles der 0 (readAll der).1 stop ∧
      ((readAll der).2 = none ∧ stop = der.length ∨
        ∃ e, (readAll der).2 = some e ∧ read der stop = .error e ∧ stop < der.length)) ∧
    ∀ elements stop, Tiles der 0 elements stop →
      elements <+: (readAll der).1 ∧ 2 * elements.length ≤ stop ∧ stop ≤ der.length ∧
        ∃ pieces : List Bytes,
          List.Forall₂ (fun element piece => IsElement element.tag element.content piece)
              elements pieces ∧
            der = pieces.flatten ++ der.drop stop ∧ stop = pieces.flatten.length := by
  have hfuel : der.length ≤ 0 + der.length := by omega
  refine ⟨fun offset => ?_, fun _ _ => exists_position_of_readAt, ?_,
      fun elements stop htiles => ?_⟩
  · cases hread : read der offset with
    | error e => rfl
    | ok element =>
      obtain ⟨more, hfew, hstart, hinside, hfield⟩ := exists_field_of_read hread
      exact ⟨by omega, hinside, ⟨more, hfew, hstart, hfield⟩, shortest_of_read hread⟩
  · obtain ⟨stop, htiles, hlast⟩ := tiles_readAllFrom der der.length hfuel
    have hinside := (htiles.stop_le (Nat.zero_le _)).2
    exact ⟨stop, htiles, hlast.imp_left fun ⟨hnone, hend⟩ => ⟨hnone, Nat.le_antisymm hinside hend⟩⟩
  · obtain ⟨hfew, hinside⟩ := htiles.stop_le (Nat.zero_le _)
    obtain ⟨pieces, hpieces, hflatten, hstop⟩ := htiles.flatten_eq
    rw [Nat.zero_add] at hfew hstop
    exact ⟨htiles.isPrefix_readAllFrom hfuel, hfew, hinside, pieces, hpieces, hflatten, hstop⟩

end

end SignedHandshake.Der
