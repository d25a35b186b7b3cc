import Mathlib.Data.List.Induction
import Mathlib.Data.Nat.Digits.Lemmas
import SignedHandshake.Proofs.Der.Arcs

/-!
# The digits of an arc, one by one

An arc is written in a loop that takes one digit after the other off its end, and it is read by
taking in one digit after the other. Numbers of any size go through both, also where binary64 has no
room for every number. Here both are looked at turn by turn. The loop is written out as it runs,
without a bound on its turns (`turn?`, `turns`); it ends by itself, and leaves what `arcBytes`
gives. The bytes are the digits of the exact number, as few as there are (`IsCode`), and nothing is
rounded in between, neither in writing nor in reading (**`arcBytes_exact`**).

Proof structure: what stands in the loop is described by one invariant (`Writing`): the digits of
what is left, in front of those that are written, are the digits of the arc. A turn keeps it, and
divides what is left by the base (`Writing.turn`); the rest is an induction on the turns. For
reading, any cut through the digits of a number divides it by a power of the base (`continued_cut`).
-/

namespace SignedHandshake.Der.ObjectIdentifier

variable {n : Nat}

/-! ## The code of an arc -/

/-- The bytes are the digits of a number in base 128, the most significant one first, and all but
the last are marked. There is no zero in front, unless it is the only digit. -/
structure IsCode (n : Nat) (code : Bytes) : Prop where
  digits :
    code.map (fun byte => byte.toNat % 128) = if n = 0 then [0] else (Nat.digits 128 n).reverse
  leading : n ≠ 0 → ∀ byte rest, code = byte :: rest → byte.toNat % 128 ≠ 0
  marks : ∃ front last, code = front ++ [last] ∧ (∀ byte ∈ front, ¬ byte < 0x80) ∧ last < 0x80

/-- The digits of a number, without their marks. -/
theorem map_continued (n : Nat) :
    (continued n).map (fun byte => byte.toNat % 128) = (Nat.digits 128 n).reverse := by
  rw [continued, List.map_reverse, List.map_map]
  have hdigit : ∀ digit ∈ Nat.digits 128 n,
      ((fun byte : UInt8 => byte.toNat % 128) ∘ fun digit => UInt8.ofNat (digit + 128)) digit =
          digit := by
    intro digit hmem
    have hlt : digit < 128 := Nat.digits_lt_base (by decide) hmem
    rw [Function.comp_apply, toNat_marked hlt, Nat.add_mod_right, Nat.mod_eq_of_lt hlt]
  rw [List.map_congr_left hdigit, List.map_id']

/-- Only zero has no digits. -/
theorem pos_of_continued_ne_nil (h : continued n ≠ []) : 0 < n := by
  refine Nat.pos_of_ne_zero fun hzero => h ?_
  rw [hzero, continued_zero]

theorem marked_of_mem_continued {byte : UInt8} (h : byte ∈ continued n) : ¬ byte < 0x80 := by
  rw [continued, List.mem_reverse] at h
  obtain ⟨digit, hdigit, rfl⟩ := List.mem_map.mp h
  exact not_marked_lt (Nat.digits_lt_base (by decide) hdigit)

/-- The code of an arc is made up of its digits. -/
theorem isCode_arcCode (n : Nat) : IsCode n (arcCode n) := by
  have hlast : n % 128 < 128 := Nat.mod_lt n (by decide)
  -- these are the digits to the base 128, the highest first
  have hdigits : (arcCode n).map (fun byte => byte.toNat % 128) =
      if n = 0 then [0] else (Nat.digits 128 n).reverse := by
    rw [arcCode, List.map_append, map_continued, List.map_singleton, toNat_last hlast, Nat.mod_mod]
    by_cases hzero : n = 0
    · simp [hzero]
    · rw [if_neg hzero, Nat.digits_def' (by decide) (Nat.pos_of_ne_zero hzero), List.reverse_cons]
  refine ⟨hdigits, ?_, continued (n / 128), _, rfl, fun _ => marked_of_mem_continued, last_lt hlast⟩
  intro hn byte rest hcode
  rw [hcode, if_neg hn, List.map_cons] at hdigits
  -- the leading digit of a number is not zero
  have hreverse : Nat.digits 128 n =
      (rest.map fun byte => byte.toNat % 128).reverse ++ [byte.toNat % 128] := by
    rw [← List.reverse_cons, hdigits, List.reverse_reverse]
  have hne := Nat.getLast_digit_ne_zero 128 hn
  simpa only [hreverse, List.getLast_append_singleton] using hne

/-! ## Writing, turn by turn -/

/-- One turn of the loop. As long as something is left, its last seven bits go in front of what
is written, with the mark. -/
def turn? : Number × Bytes → Option (Number × Bytes)
  | (rest, written) =>
    if Number.ofNat 0 < rest then some (dropDigit rest, (rest.octet &&& 0x7F ||| 0x80) :: written)
    else none

/-- So many turns, unless the loop ends before. -/
def turns : Nat → Number × Bytes → Option (Number × Bytes)
  | 0, state => some state
  | count + 1, state => (turns count state).bind turn?

/-- What the loop starts from: the last seven bits are written, without the mark. -/
def firstDigit (arc : Number) : Number × Bytes :=
  (dropDigit arc, [arc.octet &&& 0x7F])

/-- The last seven bits of a number are its last digit. -/
theorem octet_and (n : Nat) : (Number.ofNat n).octet &&& 0x7F = UInt8.ofNat (n % 128) := by
  rw [Number.octet_ofNat, ← UInt8.toNat_inj, UInt8.toNat_and, toNat_last (Nat.mod_lt n (by decide)),
    UInt8.toNat_ofNat']
  have hmask : (0x7F : UInt8).toNat = 2 ^ 7 - 1 := rfl
  rw [hmask, Nat.and_two_pow_sub_one_eq_mod]
  omega

/-- The mark is the bit in front of them. -/
theorem or_mark (n : Nat) : UInt8.ofNat (n % 128) ||| 0x80 = UInt8.ofNat (n % 128 + 128) := by
  have hdigit : ∀ digit < 128, UInt8.ofNat digit ||| 0x80 = UInt8.ofNat (digit + 128) := by decide
  exact hdigit _ (Nat.mod_lt n (by decide))

/-- What stands in the loop when `left` is left: its digits, in front of those that are written,
are the digits of the arc. -/
structure Writing (n : Nat) (state : Number × Bytes) (left : Nat) : Prop where
  rest : state.1 = .ofNat left
  held : Number.IsBinary64 left
  digits : continued left ++ state.2 = arcCode n

theorem writing_firstDigit (h : Number.IsBinary64 n) :
    Writing n (firstDigit (.ofNat n)) (n / 128) := by
  refine ⟨dropDigit_ofNat h, isBinary64_div h, ?_⟩
  show continued (n / 128) ++ [(Number.ofNat n).octet &&& 0x7F] = arcCode n
  rw [octet_and, arcCode]

section

variable {state : Number × Bytes} {left : Nat}

/-- A turn takes one digit off what is left. -/
theorem Writing.turn (h : Writing n state left) (hleft : 0 < left) :
    ∃ next, turn? state = some next ∧ Writing n next (left / 128) := by
  obtain ⟨rest, written⟩ := state
  obtain ⟨rfl, hheld, hdigits⟩ := h
  have hturn : turn? (.ofNat left, written) =
      some (.ofNat (left / 128), UInt8.ofNat (left % 128 + 128) :: written) := by
    rw [turn?, if_pos (Number.ofNat_lt_ofNat.mpr hleft), dropDigit_ofNat hheld, octet_and, or_mark]
  refine ⟨_, hturn, rfl, isBinary64_div hheld, ?_⟩
  rw [continued_of_pos hleft, List.append_assoc] at hdigits
  exact hdigits

/-- When nothing is left, the loop ends, and the digits of the arc are written. -/
theorem Writing.ends (h : Writing n state 0) :
    turn? state = none ∧ state = (.ofNat 0, arcCode n) := by
  obtain ⟨rest, written⟩ := state
  obtain ⟨rfl, -, hdigits⟩ := h
  rw [continued_zero, List.nil_append] at hdigits
  obtain rfl : written = arcCode n := hdigits
  exact ⟨rfl, rfl⟩

end

/-- As long as there are digits, there are turns. Induction on the turns. -/
theorem writing_turns (h : Number.IsBinary64 n) {count : Nat}
    (hcount : count ≤ (Nat.digits 128 (n / 128)).length) :
    ∃ state, turns count (firstDigit (.ofNat n)) = some state ∧
      Writing n state (n / 128 ^ (count + 1)) := by
  induction count with
  | zero => exact ⟨_, rfl, by simpa using writing_firstDigit h⟩
  | succ count ih =>
    obtain ⟨state, hturns, hwriting⟩ := ih (Nat.le_of_succ_le hcount)
    have hleft : 0 < n / 128 ^ (count + 1) := by
      have hpower := (Nat.lt_digits_length_iff (by decide) (n / 128)).mp (Nat.lt_of_succ_le hcount)
      rw [Nat.pow_succ', ← Nat.div_div_eq_div_mul]
      exact Nat.div_pos hpower (by positivity)
    obtain ⟨next, hturn, hnext⟩ := hwriting.turn hleft
    refine ⟨next, by rw [turns, hturns, Option.bind_some, hturn], ?_⟩
    rwa [Nat.div_div_eq_div_mul, ← Nat.pow_succ] at hnext

/-- The loop ends after as many turns as there are digits in front of the last one. -/
theorem turns_length (h : Number.IsBinary64 n) :
    turns (Nat.digits 128 (n / 128)).length (firstDigit (.ofNat n)) = some (.ofNat 0, arcCode n) ∧
      turn? (.ofNat 0, arcCode n) = none := by
  obtain ⟨state, hturns, hwriting⟩ := writing_turns h (Nat.le_refl _)
  have hnothing : n / 128 ^ ((Nat.digits 128 (n / 128)).length + 1) = 0 := by
    rw [Nat.pow_succ', ← Nat.div_div_eq_div_mul]
    exact Nat.div_eq_of_lt (Nat.lt_base_pow_length_digits (by decide))
  rw [hnothing] at hwriting
  obtain ⟨hend, rfl⟩ := hwriting.ends
  exact ⟨hturns, hend⟩

/-! ## Reading, digit by digit -/

section

variable {before after : Bytes} {byte : UInt8}

/-- A cut through marked digits divides the number by a power of the base, and the digit behind the
cut is the next one. Induction on what is behind that. -/
theorem continued_cut (h : continued n = before ++ byte :: after) :
    before = continued (n / 128 ^ (after.length + 1)) ∧
      byte.toNat % 128 = n / 128 ^ after.length % 128 := by
  induction after using List.reverseRecOn generalizing n with
  | nil =>
    rw [continued_of_pos (pos_of_continued_ne_nil (by simp [h]))] at h
    obtain ⟨hbefore, hbyte⟩ := List.append_inj' h rfl
    obtain rfl : UInt8.ofNat (n % 128 + 128) = byte := List.head_eq_of_cons_eq hbyte
    rw [toNat_marked (Nat.mod_lt n (by decide))]
    exact ⟨by simpa using hbefore.symm, by simp⟩
  | append_singleton after last ih =>
    rw [continued_of_pos (pos_of_continued_ne_nil (by simp [h])), ← List.cons_append,
      ← List.append_assoc] at h
    obtain ⟨hbefore, hbyte⟩ := ih (List.append_inj' h rfl).1
    rw [Nat.div_div_eq_div_mul, ← Nat.pow_succ'] at hbefore hbyte
    rw [List.length_append, List.length_singleton]
    exact ⟨hbefore, hbyte⟩

/-- The same holds of the code of an arc: its last digit is no exception. -/
theorem arcCode_cut (h : arcCode n = before ++ byte :: after) :
    before = continued (n / 128 ^ (after.length + 1)) ∧
      byte.toNat % 128 = n / 128 ^ after.length % 128 := by
  rw [arcCode] at h
  rcases List.eq_nil_or_concat after with rfl | ⟨middle, last, rfl⟩
  · obtain ⟨hbefore, hbyte⟩ := List.append_inj' h rfl
    obtain rfl : UInt8.ofNat (n % 128) = byte := List.head_eq_of_cons_eq hbyte
    rw [toNat_last (Nat.mod_lt n (by decide))]
    exact ⟨by simpa using hbefore.symm, by simp⟩
  · rw [List.concat_eq_append, ← List.cons_append, ← List.append_assoc] at h
    obtain ⟨hbefore, hbyte⟩ := continued_cut (List.append_inj' h rfl).1
    rw [Nat.div_div_eq_div_mul, ← Nat.pow_succ'] at hbefore hbyte
    rw [List.concat_eq_append, List.length_append, List.length_singleton]
    exact ⟨hbefore, hbyte⟩

/-- What the last digits leave out can be held. -/
theorem isBinary64_div_pow_base (h : Number.IsBinary64 n) (count : Nat) :
    Number.IsBinary64 (n / 128 ^ count : Nat) := by
  rw [show 128 = 2 ^ 7 from rfl, ← Nat.pow_mul]
  exact Number.isBinary64_div_pow h (7 * count)

/-- Wherever the reading of an arc is stopped, what it has read so far is the arc without the digits
that are to come, and the next turn has nothing to round. -/
theorem readArcs_cut (h : Number.IsBinary64 n) (hcut : arcCode n = before ++ byte :: after)
    (rest : Bytes) :
    readArcs (.ofNat 0) (arcCode n ++ rest) =
      readArcs (.ofNat (n / 128 ^ (after.length + 1))) (byte :: after ++ rest) := by
  rw [hcut, (arcCode_cut hcut).1, List.append_assoc]
  exact readArcs_continued (isBinary64_div_pow_base h _) (List.cons_ne_nil byte (after ++ rest))

/-- One turn of the reading takes in the next digit, and rounds neither the product nor the sum. -/
theorem turn_exact (h : Number.IsBinary64 n) (hcut : arcCode n = before ++ byte :: after) :
    Number.ofNat (n / 128 ^ (after.length + 1)) * base =
      .ofNat (n / 128 ^ (after.length + 1) * 128) ∧
      Number.ofNat (n / 128 ^ (after.length + 1) * 128) + .ofNat (byte.toNat % 128) =
        .ofNat (n / 128 ^ after.length) := by
  have hheld := isBinary64_div_pow_base h after.length
  have hproduct := ofNat_mul_base hheld
  have hsum := ofNat_mul_base_add hheld
  rw [hproduct] at hsum
  rw [(arcCode_cut hcut).2, Nat.pow_succ, ← Nat.div_div_eq_div_mul]
  exact ⟨hproduct, hsum⟩

end

/-! ## Arcs in identifiers -/

/-- The arcs behind the first two are written one after the other. -/
theorem encode_eq_ok {identifier : Text} {first second : Number} {arcs : List Number}
    (hfields : (identifier.chars.splitOn '.').map Number.ofChars = first :: second :: arcs)
    (hwhole : ∀ arc ∈ first :: second :: arcs, arc.nat?.isSome) :
    encode identifier = .ok ((first * .ofNat 40 + second).octet :: arcs.flatMap arcBytes) := by
  simp only [encode, hfields, List.all_eq_true.mpr hwhole, if_true]

/-- **Arcs are written and read exactly, also those above 2^53.** For every natural number that
binary64 can hold, the bytes of the arc are its digits. The loop ends, after each turn what is left
in it is the exact quotient, and these bytes are what it leaves. They are read as the arc; at
whatever digit the reading stands, what it has so far is the exact number of the digits before, and
the next turn rounds neither the product nor the sum. And these bytes are what stands for the arc in
any identifier, behind its first two arcs. -/
theorem arcBytes_exact (h : Number.IsBinary64 n) :
    let chunk := arcBytes (.ofNat n)
    IsCode n chunk ∧
    (∃ count,
      (∀ turn ≤ count, ∃ written,
        turns turn (firstDigit (.ofNat n)) = some (.ofNat (n / 128 ^ (turn + 1)), written)) ∧
      turns count (firstDigit (.ofNat n)) = some (.ofNat 0, chunk) ∧
      turn? (.ofNat 0, chunk) = none) ∧
    (∀ rest, readArcs (.ofNat 0) (chunk ++ rest) = (readArcs (.ofNat 0) rest).map (.ofNat n :: ·)) ∧
    (∀ before byte after, chunk = before ++ byte :: after →
      let value := n / 128 ^ (after.length + 1)
      (∀ rest, readArcs (.ofNat 0) (chunk ++ rest) =
        readArcs (.ofNat value) (byte :: after ++ rest)) ∧
      Number.ofNat value * base = .ofNat (value * 128) ∧
      Number.ofNat (value * 128) + .ofNat (byte.toNat % 128) = .ofNat (n / 128 ^ after.length)) ∧
    (∀ identifier first second before after,
      (identifier.chars.splitOn '.').map Number.ofChars =
        first :: second :: (before ++ .ofNat n :: after) →
      (∀ arc ∈ first :: second :: (before ++ .ofNat n :: after), arc.nat?.isSome) →
      encode identifier = .ok ((first * .ofNat 40 + second).octet ::
        (before.flatMap arcBytes ++ chunk ++ after.flatMap arcBytes))) := by
  intro chunk
  have hchunk : chunk = arcCode n := arcBytes_ofNat h
  rw [hchunk]
  refine ⟨isCode_arcCode n, ⟨_, fun turn hturn => ?_, turns_length h⟩, readArcs_arcCode h,
    fun before byte after hcut => ⟨readArcs_cut h hcut, turn_exact h hcut⟩, ?_⟩
  · obtain ⟨⟨left, written⟩, hturns, hwriting⟩ := writing_turns h hturn
    obtain rfl : left = .ofNat (n / 128 ^ (turn + 1)) := hwriting.rest
    exact ⟨written, hturns⟩
  · intro identifier first second before after hfields hwhole
    rw [encode_eq_ok hfields hwhole, List.flatMap_append, List.flatMap_cons, ← arcBytes_ofNat h,
      List.append_assoc]

/-- An arc of 64 bits, 11 of which are zeros at its end. Its first digit, read alone, is what a
division by `128 ^ 9` leaves of it. -/
theorem arcBytes_exact_beyond :
    Number.IsBinary64 (2 ^ 64 - 2 ^ 11 : Nat) ∧
      let digits : Bytes := [0xFF, 0xFF, 0xFF, 0xFF, 0xFF, 0xFF, 0xFF, 0xF0, 0x00]
      arcBytes (.ofNat (2 ^ 64 - 2 ^ 11)) = 0x81 :: digits ∧
        IsCode (2 ^ 64 - 2 ^ 11) (0x81 :: digits) ∧
        readArcs (.ofNat 0) (0x81 :: digits) = .ok [.ofNat (2 ^ 64 - 2 ^ 11)] ∧
        readArcs (.ofNat 0) (0x81 :: digits) = readArcs (.ofNat 1) digits ∧
        encode "1.2.18446744073709549568" = .ok (42 :: 0x81 :: digits) := by
  have h : Number.IsBinary64 (2 ^ 64 - 2 ^ 11 : Nat) :=
    Number.isBinary64_natCast_iff.mpr ⟨2 ^ 53 - 1, 11, by decide, by decide, by decide⟩
  have hcode : arcBytes (.ofNat (2 ^ 64 - 2 ^ 11)) =
      [0x81, 0xFF, 0xFF, 0xFF, 0xFF, 0xFF, 0xFF, 0xFF, 0xF0, 0x00] := by
    rw [arcBytes_ofNat h]
    simp [arcCode, continued]
  have hone : (2 ^ 64 - 2 ^ 11) / 128 ^ 9 = 1 := by decide
  obtain ⟨hdigits, -, hread, hcut, hencode⟩ := arcBytes_exact h
  simp only [hcode] at hdigits hread hcut
  -- cut behind the first digit; what is left of the number there is one
  have hfirst := (hcut [0x81] 0xFF [0xFF, 0xFF, 0xFF, 0xFF, 0xFF, 0xFF, 0xF0, 0x00] rfl).1 []
  have hwritten := hencode "1.2.18446744073709549568" (.ofNat 1) (.ofNat 2) [] []
      (by decide +kernel) (by decide)
  have hfront : (Number.ofNat 1 * .ofNat 40 + .ofNat 2).octet = 42 := by decide +kernel
  rw [hcode, hfront] at hwritten
  exact ⟨h, hcode, hdigits, hread [], by simpa [hone] using hfirst, hwritten⟩

end SignedHandshake.Der.ObjectIdentifier
