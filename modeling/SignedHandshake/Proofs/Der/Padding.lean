import SignedHandshake.Proofs.Der.Identifiers

/-!
# Padding in object identifiers

The reader takes an arc with digits zero in front, which the writer never produces. Such a digit is
a byte `0x80` where an arc starts, and it is all that reading loses: without these bytes the content
is read as the same identifier (`decode_shortest`), and it is what is written for that identifier,
provided that no arc was rounded (`exists_encode_of_readNumbers`). So contents are read as the same
identifier exactly if they agree without padding.

Proof structure: induction on the bytes. While the number `n` has been read of an arc, the digits of
the arcs to come are `continued n` and the rest of the bytes without padding
(`exists_arcs_of_readArcs`). A number that has left the range below 2^53 does not come back to it,
so an arc in that range was below it all the time (`exists_not_lt_of_readArcs`).
-/

namespace SignedHandshake.Der.ObjectIdentifier

/-- The bytes of arcs without the digits zero in front. `inside` says whether the arc at the
start has been begun before. -/
def unpadded (inside : Bool) : Bytes → Bytes
  | [] => []
  | byte :: rest =>
    if byte = 0x80 ∧ inside = false ∧ rest ≠ [] then unpadded false rest
    else byte :: unpadded (decide (0x80 ≤ byte)) rest

/-- The content of an identifier without padding. -/
def shortest : Bytes → Bytes
  | [] => []
  | octet :: rest => octet :: unpadded false rest

/-- No arc behind the first byte starts with a digit zero. -/
def IsMinimal (content : Bytes) : Prop :=
  content.IsChain fun before byte => before < 0x80 → byte ≠ 0x80

instance (content : Bytes) : Decidable (IsMinimal content) :=
  inferInstanceAs (Decidable (List.IsChain _ content))

/-! ## Leaving out padding -/

section

variable {byte : UInt8} {rest : Bytes} {inside : Bool}

theorem unpadded_of_lt (h : byte < 0x80) :
    unpadded inside (byte :: rest) = byte :: unpadded false rest := by
  have hbyte : byte ≠ 0x80 := by
    rintro rfl
    exact absurd h (by decide)
  rw [unpadded, if_neg fun hpad => hbyte hpad.1, decide_eq_false (UInt8.not_le.mpr h)]

theorem unpadded_of_not_lt (h : ¬ byte < 0x80) (hkept : byte ≠ 0x80 ∨ inside = true) :
    unpadded inside (byte :: rest) = byte :: unpadded true rest := by
  have hnot : ¬ (byte = 0x80 ∧ inside = false ∧ rest ≠ []) := by
    rintro ⟨hbyte, hinside, -⟩
    rcases hkept with hkept | hkept
    · exact hkept hbyte
    · exact absurd hinside (by rw [hkept]; decide)
  rw [unpadded, if_neg hnot, decide_eq_true (UInt8.not_lt.mp h)]

theorem unpadded_zero (h : rest ≠ []) : unpadded false (0x80 :: rest) = unpadded false rest := by
  rw [unpadded, if_pos ⟨rfl, rfl, h⟩]

end

theorem unpadded_eq_nil_iff {inside : Bool} {bytes : Bytes} :
    unpadded inside bytes = [] ↔ bytes = [] := by
  induction bytes generalizing inside with
  | nil => exact Iff.rfl
  | cons byte rest ih =>
    unfold unpadded
    by_cases hpad : byte = 0x80 ∧ inside = false ∧ rest ≠ []
    · rw [if_pos hpad, ih]
      exact ⟨fun h => absurd h hpad.2.2, fun h => absurd h (List.cons_ne_nil _ _)⟩
    · rw [if_neg hpad]
      exact ⟨fun h => absurd h (List.cons_ne_nil _ _), fun h => absurd h (List.cons_ne_nil _ _)⟩

theorem length_unpadded_le (inside : Bool) (bytes : Bytes) :
    (unpadded inside bytes).length ≤ bytes.length := by
  induction bytes generalizing inside with
  | nil => exact Nat.le_refl _
  | cons byte rest ih =>
    unfold unpadded
    split
    · exact (ih false).trans (Nat.le_succ _)
    · exact Nat.succ_le_succ (ih _)

/-! ## What reading does with padding -/

section

variable {arc : Number} {byte : UInt8} {rest bytes : Bytes} {arcs : List Number}

/-- What is read of an arc and the bytes behind it: a byte below `0x80` ends the arc, and behind
any other there are more. -/
theorem readArcs_cons_eq_ok_iff :
    readArcs arc (byte :: rest) = .ok arcs ↔
      (byte < 0x80 ∧ ∃ others, readArcs (.ofNat 0) rest = .ok others ∧
        (arc * base + .ofNat (byte.toNat % 128)) :: others = arcs) ∨
      (¬ byte < 0x80 ∧ rest ≠ [] ∧
        readArcs (arc * base + .ofNat (byte.toNat % 128)) rest = .ok arcs) := by
  by_cases hbyte : byte < 0x80
  · simp only [readArcs_of_lt hbyte, except_map_eq_ok_iff, hbyte, true_and, not_true_eq_false,
      false_and, or_false]
  · by_cases hrest : rest = []
    · subst hrest
      simp [readArcs, hbyte]
    · simp only [readArcs_of_not_lt hbyte hrest, hbyte, hrest, false_and, false_or,
        not_false_eq_true, true_and, ne_eq]

/-- Padding does not change what is read. -/
theorem readArcs_unpadded {inside : Bool} (hstart : inside = false → arc = .ofNat 0) :
    readArcs arc (unpadded inside bytes) = readArcs arc bytes := by
  induction bytes generalizing arc inside with
  | nil => rfl
  | cons byte rest ih =>
    by_cases hbyte : byte < 0x80
    · rw [unpadded_of_lt hbyte, readArcs_of_lt hbyte, readArcs_of_lt hbyte, ih fun _ => rfl]
    · by_cases hrest : rest = []
      · subst hrest
        rw [unpadded, if_neg fun hpad => hpad.2.2 rfl]
        rfl
      · have hkept : unpadded true rest ≠ [] := mt unpadded_eq_nil_iff.mp hrest
        by_cases hpad : byte = 0x80 ∧ inside = false
        · -- a digit zero in front of an arc
          obtain ⟨rfl, rfl⟩ := hpad
          obtain rfl := hstart rfl
          have hzero : Number.ofNat 0 * base + .ofNat 0 = .ofNat 0 :=
            ofNat_mul_base_add (n := 0) (Number.isBinary64_of_lt (by decide))
          rw [unpadded_zero hrest, readArcs_of_not_lt hbyte hrest, ih fun _ => rfl]
          exact congrArg (readArcs · rest) hzero.symm
        · have hdigit : byte ≠ 0x80 ∨ inside = true := by
            rw [← Bool.not_eq_false]
            exact not_and_or.mp hpad
          rw [unpadded_of_not_lt hbyte hdigit, readArcs_of_not_lt hbyte hkept,
            readArcs_of_not_lt hbyte hrest, ih fun hfalse => absurd hfalse (by decide)]

/-- An arc that is not below 2^53 does not get below it while it is read. -/
theorem exists_not_lt_of_readArcs (harc : ¬ arc < .ofNat (2 ^ 53)) (hne : bytes ≠ [])
    (hread : readArcs arc bytes = .ok arcs) : ∃ x ∈ arcs, ¬ x < .ofNat (2 ^ 53) := by
  induction bytes generalizing arc with
  | nil => exact absurd rfl hne
  | cons byte rest ih =>
    have hnext : ¬ arc * base + .ofNat (byte.toNat % 128) < .ofNat (2 ^ 53) :=
      Number.not_add_lt (Number.not_mul_lt harc (by decide)) _
    rcases readArcs_cons_eq_ok_iff.mp hread with ⟨-, others, -, rfl⟩ | ⟨-, hrest, hread⟩
    · exact ⟨_, List.mem_cons_self, hnext⟩
    · exact ih hnext hrest hread

/-- A digit was added without rounding if the number is still below 2^53. -/
theorem ofNat_step_of_lt {n digit : Nat} (hdigit : digit < 128)
    (h : Number.ofNat n * base + .ofNat digit < .ofNat (2 ^ 53)) :
    n * 128 + digit < 2 ^ 53 ∧ Number.ofNat n * base + .ofNat digit = .ofNat (n * 128 + digit) := by
  have hbelow : n * 128 + digit < 2 ^ 53 := by
    by_contra hnot
    -- the last digit alone does not lead over a multiple of 128
    have hproduct : 2 ^ 53 ≤ n * 128 := by omega
    have hrational : (2 : Rat) ^ 53 ≤ (n : Rat) * (128 : Nat) := by exact_mod_cast hproduct
    exact Number.not_add_lt (Number.not_nearest_lt hrational) digit h
  refine ⟨hbelow, ?_⟩
  rw [base, Number.mul_ofNat (Number.isBinary64_of_lt (by omega)),
    Number.add_ofNat (Number.isBinary64_of_lt hbelow)]

/-- Arcs below 2^53 were read exactly, and their digits are the bytes without padding. -/
theorem exists_arcs_of_readArcs {n : Nat} (hstart : bytes = [] → n = 0)
    (hread : readArcs (.ofNat n) bytes = .ok arcs) (hsmall : ∀ x ∈ arcs, x < .ofNat (2 ^ 53)) :
    ∃ values : List Nat, arcs = values.map .ofNat ∧ (∀ m ∈ values, m < 2 ^ 53) ∧
      values.flatMap arcCode = continued n ++ unpadded (decide (n ≠ 0)) bytes := by
  induction bytes generalizing n arcs with
  | nil =>
    cases hread
    exact ⟨[], rfl, by simp, by simp [hstart rfl, unpadded]⟩
  | cons byte rest ih =>
    have hdigit : byte.toNat % 128 < 128 := Nat.mod_lt _ (by decide)
    rcases readArcs_cons_eq_ok_iff.mp hread with
        ⟨hbyte, others, hothers, rfl⟩ | ⟨hbyte, hrest, hmore⟩
    · -- an arc ends here, and the others are read from zero
      obtain ⟨harc, hsmallRest⟩ := List.forall_mem_cons.mp hsmall
      obtain ⟨hbelow, hexact⟩ := ofNat_step_of_lt hdigit harc
      obtain ⟨values, rfl, hlt, hcode⟩ := ih (fun _ => rfl) hothers hsmallRest
      refine ⟨(n * 128 + byte.toNat % 128) :: values, by rw [hexact, List.map_cons],
        List.forall_mem_cons.mpr ⟨hbelow, hlt⟩, ?_⟩
      rw [List.flatMap_cons, hcode, arcCode_mul_add hbyte, unpadded_of_lt hbyte, continued_zero,
        List.nil_append, List.append_assoc, List.singleton_append]
      rfl
    · -- an arc that is below 2^53 in the end is so now
      have hbelow : Number.ofNat n * base + .ofNat (byte.toNat % 128) < .ofNat (2 ^ 53) := by
        by_contra hnot
        obtain ⟨x, hx, hlarge⟩ := exists_not_lt_of_readArcs hnot hrest hmore
        exact hlarge (hsmall x hx)
      rw [(ofNat_step_of_lt hdigit hbelow).2] at hmore
      obtain ⟨values, rfl, hlt, hcode⟩ := ih (fun hnil => absurd hnil hrest) hmore hsmall
      refine ⟨values, rfl, hlt, ?_⟩
      rw [hcode]
      by_cases hzero : n = 0 ∧ byte = 0x80
      · obtain ⟨rfl, rfl⟩ := hzero
        exact (congrArg _ (unpadded_zero hrest)).symm
      · have hpositive : 0 < n * 128 + byte.toNat % 128 := by
          by_contra hnot
          refine hzero ⟨by omega, ?_⟩
          rw [← eq_marked_of_not_lt hbyte, show byte.toNat % 128 = 0 by omega]
          rfl
        have hkept : byte ≠ 0x80 ∨ decide (n ≠ 0) = true := by
          rcases not_and_or.mp hzero with hn | hne
          · exact .inr (decide_eq_true hn)
          · exact .inl hne
        rw [continued_mul_add hbyte hpositive, unpadded_of_not_lt hbyte hkept,
          decide_eq_true hpositive.ne', List.append_assoc, List.singleton_append]

end

/-! ## Whole identifiers -/

section

variable {content other : Bytes} {arcs : List Number}

/-- What is read of a whole content: a first byte below `0x80`, and arcs. -/
theorem readNumbers_cons_eq_ok_iff {octet : UInt8} {rest : Bytes} :
    readNumbers (octet :: rest) = .ok arcs ↔
      octet < 0x80 ∧ ∃ others, readArcs (.ofNat 0) rest = .ok others ∧
        .ofNat (leadingArcs octet).1 :: .ofNat (leadingArcs octet).2 :: others = arcs := by
  by_cases hoctet : octet < 0x80
  · rw [readNumbers, if_pos hoctet, except_map_eq_ok_iff]
    exact (and_iff_right hoctet).symm
  · rw [readNumbers, if_neg hoctet]
    constructor
    · intro h
      cases h
    · rintro ⟨hlt, -⟩
      exact absurd hlt hoctet

/-- Without padding, the same arcs are read. -/
theorem readNumbers_shortest (content : Bytes) :
    readNumbers (shortest content) = readNumbers content := by
  cases content with
  | nil => rfl
  | cons octet rest =>
    rw [shortest, readNumbers, readNumbers, readArcs_unpadded fun _ => rfl]

/-- Without padding, the same identifier is read. -/
theorem decode_shortest (content : Bytes) : decode (shortest content) = decode content := by
  rw [decode_eq, decode_eq, readNumbers_shortest]

/-- If no arc was rounded, the content without padding is what is written for the identifier. -/
theorem exists_encode_of_readNumbers (hread : readNumbers content = .ok arcs)
    (hsmall : ∀ x ∈ arcs, x < .ofNat (2 ^ 53)) :
    ∃ identifier, decode content = .ok identifier ∧ encode identifier = .ok (shortest content) := by
  cases content with
  | nil => cases hread
  | cons octet rest =>
    obtain ⟨hoctet, others, hothers, rfl⟩ := readNumbers_cons_eq_ok_iff.mp hread
    have hrest : ∀ x ∈ others, x < .ofNat (2 ^ 53) := fun x hx =>
      hsmall x (List.mem_cons_of_mem _ (List.mem_cons_of_mem _ hx))
    obtain ⟨values, rfl, hlt, hcode⟩ := exists_arcs_of_readArcs (fun _ => rfl) hothers hrest
    have hshortest : shortest (octet :: rest) = octet :: values.flatMap arcCode := by
      rw [hcode, continued_zero]
      rfl
    obtain ⟨htop, hsub⟩ := leadingArcs_lt octet
    refine ⟨dotted ((leadingArcs octet).1 :: (leadingArcs octet).2 :: values), ?_, ?_⟩
    · rw [← decode_shortest, hshortest, decode_cons hoctet hlt]
    · rw [encode_dotted htop hsub hlt, leadingOctet_leadingArcs, hshortest]

/-- Nothing is left out of bytes that are read, exactly if no arc starts with a digit zero. -/
theorem unpadded_eq_self_iff {before : UInt8} {bytes : Bytes} {arc : Number}
    (hread : readArcs arc bytes = .ok arcs) :
    unpadded (decide (0x80 ≤ before)) bytes = bytes ↔ IsMinimal (before :: bytes) := by
  induction bytes generalizing before arc arcs with
  | nil => exact ⟨fun _ => List.IsChain.singleton before, fun _ => rfl⟩
  | cons byte rest ih =>
    have hchain : IsMinimal (before :: byte :: rest) ↔
        (before < 0x80 → byte ≠ 0x80) ∧ IsMinimal (byte :: rest) := List.isChain_cons_cons
    rw [hchain]
    rcases readArcs_cons_eq_ok_iff.mp hread with ⟨hbyte, others, hothers, -⟩ | ⟨hbyte, hrest, hmore⟩
    · have hnot : byte ≠ 0x80 := by
        rintro rfl
        exact absurd hbyte (by decide)
      have hbehind : unpadded (decide (0x80 ≤ byte)) rest = rest ↔ IsMinimal (byte :: rest) :=
        ih hothers
      rw [decide_eq_false (UInt8.not_le.mpr hbyte)] at hbehind
      rw [unpadded_of_lt hbyte, List.cons_inj_right, hbehind]
      exact ⟨fun hrest => ⟨fun _ => hnot, hrest⟩, And.right⟩
    · -- a digit zero at the start of an arc is left out, and every other byte is kept
      by_cases hpad : before < 0x80 ∧ byte = 0x80
      · obtain ⟨hbefore, rfl⟩ := hpad
        rw [decide_eq_false (UInt8.not_le.mpr hbefore), unpadded_zero hrest]
        constructor
        · intro hsame
          have hlength := length_unpadded_le false rest
          rw [hsame, List.length_cons] at hlength
          exact absurd hlength (Nat.not_succ_le_self _)
        · rintro ⟨hstart, -⟩
          exact absurd rfl (hstart hbefore)
      · have hkept : byte ≠ 0x80 ∨ decide (0x80 ≤ before) = true := by
          rw [decide_eq_true_iff, ← UInt8.not_lt]
          exact (not_and_or.mp hpad).symm
        have hbehind : unpadded (decide (0x80 ≤ byte)) rest = rest ↔ IsMinimal (byte :: rest) :=
          ih hmore
        rw [decide_eq_true (UInt8.not_lt.mp hbyte)] at hbehind
        rw [unpadded_of_not_lt hbyte hkept, List.cons_inj_right, hbehind]
        exact ⟨fun hrest => ⟨fun hbefore hzero => hpad ⟨hbefore, hzero⟩, hrest⟩, And.right⟩

/-- What is read has the shortest form exactly if no arc starts with a digit zero. -/
theorem shortest_eq_self_iff (hread : readNumbers content = .ok arcs) :
    shortest content = content ↔ IsMinimal content := by
  cases content with
  | nil => cases hread
  | cons octet rest =>
    obtain ⟨hoctet, others, hothers, -⟩ := readNumbers_cons_eq_ok_iff.mp hread
    rw [← unpadded_eq_self_iff hothers, decide_eq_false (UInt8.not_le.mpr hoctet), shortest,
      List.cons_inj_right]

/-- Contents whose arcs were not rounded are the same identifier exactly if they
agree without padding. -/
theorem decode_eq_iff_shortest_eq {others : List Number} (hread : readNumbers content = .ok arcs)
    (hsmall : ∀ x ∈ arcs, x < .ofNat (2 ^ 53)) (hother : readNumbers other = .ok others)
    (hothers : ∀ x ∈ others, x < .ofNat (2 ^ 53)) :
    decode content = decode other ↔ shortest content = shortest other := by
  constructor
  · intro hsame
    obtain ⟨identifier, hdecode, hencode⟩ := exists_encode_of_readNumbers hread hsmall
    obtain ⟨again, hdecodeOther, hencodeOther⟩ := exists_encode_of_readNumbers hother hothers
    rw [hsame, hdecodeOther] at hdecode
    cases hdecode
    rw [hencode] at hencodeOther
    exact Except.ok.inj hencodeOther
  · intro hsame
    rw [← decode_shortest content, hsame, decode_shortest]

/-- In an identifier of less than sixteen digits and points, every arc is below 2^53. -/
theorem lt_of_written (hplain : (written arcs).chars.all (fun c => c.isDigit || c == '.') = true)
    (hshort : (written arcs).chars.length < 16) : ∀ x ∈ arcs, x < .ofNat (2 ^ 53) := by
  intro x hx
  have hpart : x.text.toList <:+: (written arcs).chars := by
    rw [written, chars_intercalate, List.map_map]
    exact infix_intercalate (List.mem_map.mpr ⟨x, hx, rfl⟩)
  by_contra hlarge
  rcases Number.text_of_not_lt hlarge with ⟨c, hc, hdigit, hpoint⟩ | hlong
  · have hc := List.all_eq_true.mp hplain c (hpart.subset hc)
    rw [hdigit, Bool.false_or, beq_iff_eq] at hc
    exact hpoint hc
  · exact absurd (hlong.trans hpart.length_le) (Nat.not_le.mpr hshort)

end

end SignedHandshake.Der.ObjectIdentifier
