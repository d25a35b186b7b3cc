import Mathlib.Data.Set.List
import SignedHandshake.Proofs.Number.Exactness
import SignedHandshake.Proofs.Wire.Runs

/-!
# Readers that move back (specification §10.8)

A reader can be asked for any whole number of bytes, and a negative one is never more than there is.
Such a demand is met: it moves the reader back, so that bytes that were delivered are ahead of it
again. All other demands are requests, and go forward.

A run in which all demands go forward never has more bytes left than before, gives as many bytes as
it is asked for, and delivers every byte at most once. The first two of these are true of no other
run (**`rewinds_iff`**), and the third one is lost as soon as the reader goes on after a negative
demand (`rewinds_first_byte`).

Proof structure: what one demand does to a reader that is between two bytes is said by
`At.kept_iff` for what is left and by `At.as_demanded_iff` for what is given. Both hold exactly for
demands that go forward, and these leave the reader between two bytes (`At.meet_forward`), so that
they are carried along a run by induction. What such a run delivers is known from the run of its
requests (`run_demands`).
-/

namespace SignedHandshake.Wire

/-! ## Demands -/

/-- What a reader is asked for in one step, if the number of bytes can be any whole one. -/
inductive Demand where
  | field (bits : Number)
  | plain (count : Int)
  deriving DecidableEq

/-- Whether a demand is for a field, or for bytes whose number is not negative. -/
def Demand.Forward : Demand → Prop
  | .field _ => True
  | .plain count => 0 ≤ count

instance : DecidablePred Demand.Forward
  | .field _ => inferInstanceAs (Decidable True)
  | .plain count => inferInstanceAs (Decidable (0 ≤ count))

/-- What an item is asked for with. -/
def Item.demand : Item → Demand
  | .field _ bits => .field bits
  | .plain bytes => .plain bytes.length

/-- A request as a demand. -/
def Request.demand : Request → Demand
  | .field bits => .field bits
  | .plain count => .plain count

/-- Read what is demanded. -/
def Reader.meet : Demand → Attempt Reader Item
  | .field bits => (Item.field · bits) <$> read bits
  | .plain count => Item.plain <$> take (.ofInt count)

theorem Item.demand_request (item : Item) : item.request.demand = item.demand := by
  cases item <;> rfl

/-- Requests are the demands that go forward. -/
theorem Demand.forward_iff {demand : Demand} :
    demand.Forward ↔ ∃ request : Request, request.demand = demand := by
  cases demand with
  | field bits => exact iff_of_true trivial ⟨.field bits, rfl⟩
  | plain count =>
    constructor
    · intro hforward
      exact ⟨.plain count.toNat, congrArg plain (Int.toNat_of_nonneg hforward)⟩
    · rintro ⟨request, hrequest⟩
      cases request with
      | field => cases hrequest
      | plain asked =>
        cases hrequest
        exact Int.natCast_nonneg asked

namespace Reader

variable {reader : Reader} {taken : Nat} {ahead : Bytes}

/-- A request is met as it is. -/
theorem meet_demand (request : Request) : meet request.demand = get request := by
  cases request with
  | field => rfl
  | plain count =>
    show Item.plain <$> take (.ofInt count) = Item.plain <$> take (.ofNat count)
    rw [Number.ofInt_natCast]

/-- A run of requests is met as it is. -/
theorem run_demands (requests : List Request) (reader : Reader) :
    Attempt.run meet (requests.map Request.demand) reader = Attempt.run get requests reader := by
  rw [Attempt.run_map]
  simp only [meet_demand]

/-! ## Totals -/

/-- For bytes that fit into a memory, the total of two amounts is their sum as numbers. -/
theorem total_eq_add (h : reader.bytes.length < 2 ^ 52) (x y : Number) :
    reader.total x y = x + y := by
  unfold total
  cases hx : x.int? with
  | none => rfl
  | some m =>
    cases hy : y.int? with
    | none => rfl
    | some n =>
      obtain rfl := Number.int?_eq_some_iff.mp hx
      obtain rfl := Number.int?_eq_some_iff.mp hy
      -- small totals are exact, and the others are rounded by definition
      show (if _ then _ else _) = _
      by_cases hsmall : (m + n).natAbs ≤ 2 * reader.bytes.length
      · rw [if_pos hsmall, Number.add_ofInt (by omega)]
      · rw [if_neg hsmall]

/-- A whole total that is above some of the bytes stays above them, also where it is rounded. -/
theorem lt_total_ofInt {m : Nat} {n : Int} (hm : m ≤ reader.bytes.length)
    (h : m < reader.bytes.length + n) :
    .ofNat m < reader.total (.ofNat reader.bytes.length) (.ofInt n) := by
  rw [← Number.ofInt_natCast, ← Number.ofInt_natCast]
  by_cases hsmall : ((reader.bytes.length : Int) + n).natAbs ≤ 2 * reader.bytes.length
  · rw [total_ofInt hsmall, Number.ofInt_lt_ofInt]
    exact h
  · have htotal : reader.total (.ofInt reader.bytes.length) (.ofInt n) =
        Number.nearest ((reader.bytes.length + n : Int) : Rat) := by
      simp only [total, Number.int?_ofInt, if_neg hsmall, Int.cast_add]
      rfl
    have hlarge : (2 * m : Int) ≤ reader.bytes.length + n := by omega
    rw [htotal, Number.ofInt_natCast]
    exact Number.lt_nearest (by exact_mod_cast (show 1 ≤ (reader.bytes.length : Int) + n by omega))
      (by exact_mod_cast hlarge)

/-- With more than all the bytes added to them, there is more than all the bytes. -/
theorem lt_total_of_lt {m : Nat} {x : Number} (hm : m ≤ reader.bytes.length) (hone : ¬ x < .ofNat 1)
    (h : .ofNat reader.bytes.length < x) :
    .ofNat m < reader.total (.ofNat reader.bytes.length) x := by
  cases hwhole : x.int? with
  | some n =>
    obtain rfl := Number.int?_eq_some_iff.mp hwhole
    rw [← Number.ofInt_natCast, Number.ofInt_lt_ofInt] at h
    exact lt_total_ofInt hm (by omega)
  | none =>
    have htotal : reader.total (.ofNat reader.bytes.length) x = .ofNat reader.bytes.length + x := by
      simp only [total, Number.int?_ofNat, hwhole]
    rw [htotal]
    cases x with
    | nan => exact absurd h Bool.false_ne_true
    | infinity negative =>
      cases negative with
      | true => exact absurd h Bool.false_ne_true
      | false => rfl
    | finite value =>
      have habove : (reader.bytes.length : Rat) < value := of_decide_eq_true h
      have hvalue : ((1 : Nat) : Rat) ≤ value := not_lt.mp fun hlt => hone (decide_eq_true hlt)
      have hlength : (0 : Rat) ≤ reader.bytes.length := Nat.cast_nonneg _
      have hsome : (m : Rat) ≤ reader.bytes.length := Nat.cast_le.mpr hm
      rw [Nat.cast_one] at hvalue
      exact Number.lt_nearest (by linarith) (by linarith)

/-! ## One demand -/

/-- A demand that goes forward takes some of what is ahead, or nothing. -/
theorem At.meet_forward {demand : Demand} (h : reader.At taken ahead) (hforward : demand.Forward) :
    ∃ front rest, ahead = front ++ rest ∧
      Attempt.left (meet demand reader) = reader.behind taken front.length := by
  obtain ⟨request, rfl⟩ := Demand.forward_iff.mp hforward
  rw [meet_demand]
  cases h.answer request with
  | served item code rest hahead _ _ _ hget => exact ⟨code, rest, hahead, by rw [hget]; rfl⟩
  | short _ _ _ e hget _ | refused _ e hget _ =>
    exact ⟨[], ahead, rfl, by rw [hget]; exact (behind_zero h.position_eq).symm⟩

/-- Moving back by some bytes leaves more than there was. -/
theorem At.lt_available_back {count : Int} (h : reader.At taken ahead) (hnegative : count < 0) :
    reader.available <
      ({ reader with position := reader.total reader.position (.ofInt count) } :
        Reader).available := by
  have hlength := h.length_eq
  have hahead : ahead.length ≤ reader.bytes.length := by omega
  rw [h.available_eq, h.position_eq, available]
  by_cases hsmall : ((taken : Int) + count).natAbs ≤ 2 * reader.bytes.length
  · rw [← Number.ofInt_natCast taken, total_ofInt hsmall, Number.neg_ofInt]
    have hmore : (ahead.length : Int) < reader.bytes.length + -(taken + count) := by omega
    exact lt_total_ofInt hahead hmore
  · -- so far in front of the bytes, the position itself is rounded
    have hfar : reader.total (.ofNat taken) (.ofInt count) =
        (Number.nearest ((-(taken + count) : Int) : Rat)).neg := by
      rw [← Number.ofInt_natCast, ← Number.nearest_neg]
      simp only [total, Number.int?_ofInt, if_neg hsmall, Int.cast_neg, neg_neg, Int.cast_add]
      rfl
    have hone : ((2 : Rat) ^ 0) ≤ ((-(taken + count) : Int) : Rat) := by
      rw [pow_zero]
      exact_mod_cast (show 1 ≤ -((taken : Int) + count) by omega)
    have hbehind : (2 * reader.bytes.length : Rat) ≤ ((-(taken + count) : Int) : Rat) := by
      exact_mod_cast (show (2 * reader.bytes.length : Int) ≤ -(taken + count) by omega)
    rw [hfar, Number.neg_neg]
    exact lt_total_of_lt hahead (Number.not_nearest_lt hone)
      (Number.lt_nearest (by rwa [pow_zero] at hone) hbehind)

/-- A negative number of bytes is always given, and the reader then has more ahead of it. -/
theorem At.meet_negative {count : Int} (h : reader.At taken ahead) (hnegative : count < 0) :
    ∃ given after, meet (.plain count) reader = .ok (.plain given) after ∧
      reader.available < after.available := by
  have henough : ¬ reader.available < .ofInt count := by
    rw [h.available_eq, ← Number.ofInt_natCast, Number.ofInt_lt_ofInt]
    omega
  have htake : Reader.take (.ofInt count) reader =
      .ok (reader.between reader.position (reader.total reader.position (.ofInt count)))
        { reader with position := reader.total reader.position (.ofInt count) } := by
    rw [Reader.take, if_neg henough]
  exact ⟨_, _, Attempt.map_eq_ok_iff.mpr ⟨_, htake, rfl⟩, h.lt_available_back hnegative⟩

/-- A demand leaves no more than there was exactly if it goes forward. -/
theorem At.kept_iff (h : reader.At taken ahead) (demand : Demand) :
    (Attempt.left (meet demand reader)).available ≤ reader.available ↔ demand.Forward := by
  by_cases hforward : demand.Forward
  · obtain ⟨front, rest, rfl, hleft⟩ := h.meet_forward hforward
    rw [hleft, (h.behind front).available_eq, h.available_eq, Number.ofNat_le_ofNat,
      List.length_append]
    exact iff_of_true (by omega) hforward
  · cases demand with
    | field => exact absurd trivial hforward
    | plain count =>
      have hnegative : count < 0 := Int.not_le.mp hforward
      obtain ⟨given, after, hmeet, hafter⟩ := h.meet_negative hnegative
      rw [hmeet]
      exact iff_of_false (Number.not_le_of_lt hafter) hforward

/-- Whatever a demand gives is what was demanded, exactly if it goes forward. -/
theorem At.as_demanded_iff (h : reader.At taken ahead) (demand : Demand) :
    (∀ item, Attempt.outcome (meet demand reader) = .ok item → item.demand = demand) ↔
      demand.Forward := by
  by_cases hforward : demand.Forward
  · refine iff_of_true (fun item hitem => ?_) hforward
    obtain ⟨request, rfl⟩ := Demand.forward_iff.mp hforward
    rw [meet_demand] at hitem
    rw [← item.demand_request, h.request_of_get hitem]
  · refine iff_of_false (fun hgiven => hforward ?_) hforward
    cases demand with
    | field => trivial
    | plain count =>
      obtain ⟨given, after, hmeet, -⟩ := h.meet_negative (Int.not_le.mp hforward)
      have hitem := hgiven (.plain given) (by rw [hmeet]; rfl)
      -- there would be as many bytes as were demanded, which is less than none
      exact Demand.forward_iff.mpr ⟨.plain given.length, hitem⟩

/-- Bytes that were taken are ahead again after a demand for as many bytes less than none. -/
theorem At.meet_back {front again rest : Bytes} (h : reader.At taken (front ++ (again ++ rest))) :
    meet (.plain (-again.length)) (reader.behind taken (front ++ again).length) =
      .ok (.plain []) (reader.behind taken front.length) := by
  have hlength := h.length_eq
  simp only [List.length_append] at hlength
  have hposition : (reader.behind taken (front ++ again).length).position =
      .ofNat (taken + front.length + again.length) := by
    rw [Nat.add_assoc, ← List.length_append]
    rfl
  have hback : Reader.take (.ofInt (-again.length)) (reader.behind taken (front ++ again).length) =
      .ok [] (reader.behind taken front.length) := by
    rw [take_of_back hposition (by show _ ≤ reader.bytes.length; omega)]
    rfl
  exact Attempt.map_eq_ok_iff.mpr ⟨_, hback, rfl⟩

/-- They are then given a second time. -/
theorem At.delivered_again {front again rest : Bytes}
    (h : reader.At taken (front ++ (again ++ rest))) :
    ∃ back, meet (.plain (-again.length)) (reader.behind taken (front ++ again).length) =
        .ok (.plain []) back ∧
      back.available = .ofNat (again ++ rest).length ∧
      Attempt.outcome (meet (.plain again.length) back) = .ok (.plain again) := by
  have hback := h.behind front
  have hget : meet (Item.plain again).demand (reader.behind taken front.length) = _ :=
    meet_demand (.plain again.length) ▸ hback.get (.plain again)
  refine ⟨_, h.meet_back, hback.available_eq, ?_⟩
  rw [← Item.demand, hget]
  rfl

end Reader

/-! ## Whole runs -/

/-- A reader of `bytes` that is between two of them. -/
def Reader.Within (bytes : Bytes) (reader : Reader) : Prop :=
  reader.bytes = bytes ∧ ∃ taken ahead, reader.At taken ahead

theorem Reader.within_start (bytes : Bytes) (origin : Option Peer) :
    Reader.Within bytes { bytes, peer := origin } :=
  ⟨rfl, 0, bytes, at_start bytes origin⟩

/-- A demand that goes forward leaves a reader between two bytes. -/
theorem Reader.Within.meet {bytes : Bytes} {reader : Reader} (h : reader.Within bytes)
    {demand : Demand}
    (hforward : demand.Forward) : (Attempt.left (Reader.meet demand reader)).Within bytes := by
  obtain ⟨hbytes, taken, ahead, hat⟩ := h
  obtain ⟨front, rest, rfl, hleft⟩ := hat.meet_forward hforward
  rw [hleft]
  exact ⟨hbytes, _, rest, hat.behind front⟩

/-- Between two of its bytes, a reader has no fewer left than none and no more than all. -/
theorem Reader.Within.bounds {bytes : Bytes} {reader : Reader} (h : reader.Within bytes) :
    .ofNat 0 ≤ reader.available ∧ reader.available ≤ .ofNat bytes.length := by
  obtain ⟨rfl, taken, ahead, hat⟩ := h
  rw [hat.available_eq, Number.ofNat_le_ofNat, Number.ofNat_le_ofNat, hat.length_eq]
  omega

/-- **What readers deliver, and when they move back.** In a run there is never more left than
before exactly if no number of bytes that is demanded is negative, and exactly then what is given
is always what was demanded. In such a run there is never less left than nothing and never more
than all the bytes, and what was given has, one behind the other, the bytes from the first on, each
of them once. If the next demand is for a negative number of bytes, no more than were delivered,
then it is met with none, and as many bytes as it says are ahead of the reader again and are given
a second time. -/
theorem rewinds_iff (bytes : Bytes) (origin : Option Peer) (demands : List Demand) :
    let start : Reader := { bytes, peer := origin }
    let reading := Attempt.run Reader.meet demands start
    let passed := Attempt.states Reader.meet demands start
    (passed.Pairwise (fun earlier later => later.available ≤ earlier.available) ↔
        ∀ demand ∈ demands, demand.Forward) ∧
      (List.Forall₂ (fun demand outcome => ∀ item, outcome = .ok item → item.demand = demand)
          demands reading.1 ↔ ∀ demand ∈ demands, demand.Forward) ∧
      ((∀ demand ∈ demands, demand.Forward) →
        (∀ reader ∈ passed, .ofNat 0 ≤ reader.available ∧ reader.available ≤ .ofNat bytes.length) ∧
          ∃ delivered rest, bytes = delivered ++ rest ∧
            Item.Encoded (Attempt.successes reading.1) delivered ∧
            reading.2.available = .ofNat rest.length ∧
            ∀ front again, delivered = front ++ again →
              ∃ back, Reader.meet (.plain (-again.length)) reading.2 = .ok (.plain []) back ∧
                back.available = .ofNat (again ++ rest).length ∧
                Attempt.outcome (Reader.meet (.plain again.length) back) = .ok (.plain again)) := by
  intro start reading passed
  have hstart := Reader.within_start bytes origin
  have hkeeps (demand : Demand) (reader : Reader) (h : reader.Within bytes) :
      demand.Forward → (Attempt.left (Reader.meet demand reader)).Within bytes := h.meet
  refine ⟨?_, ?_, fun hforward => ⟨fun reader hreader => ?_, ?_⟩⟩
  · have htrans : IsTrans Reader fun earlier later => later.available ≤ earlier.available :=
      ⟨fun _ _ _ hfirst hsecond => Number.le_trans hsecond hfirst⟩
    rw [← List.isChain_iff_pairwise]
    exact Attempt.isChain_states_iff hkeeps (fun demand reader h =>
      have ⟨_, _, _, hat⟩ := h
      hat.kept_iff demand) hstart
  · exact Attempt.run_forall₂_iff hkeeps (fun demand reader h =>
      have ⟨_, _, _, hat⟩ := h
      hat.as_demanded_iff demand) hstart
  · exact (Attempt.of_mem_states hkeeps hforward hstart hreader).bounds
  · -- forward demands are requests, so the run is one of `get`
    obtain ⟨requests, rfl⟩ : ∃ requests : List Request, requests.map Request.demand = demands := by
      rw [← Set.mem_range, Set.range_list_map]
      exact fun demand hdemand => Demand.forward_iff.mp (hforward demand hdemand)
    have hat := Reader.at_start bytes origin
    obtain ⟨delivered, rest, hbytes, hitems, hlast⟩ := hat.exists_encoded_of_run_get requests
    rw [← Reader.run_demands] at hitems hlast
    have hreading : reading.2 = start.behind 0 delivered.length := hlast
    have hsplit : start.At 0 (delivered ++ rest) := hbytes ▸ hat
    refine ⟨delivered, rest, hbytes, hitems, ?_, ?_⟩
    · rw [hreading, (hsplit.behind delivered).available_eq]
    · -- cut behind `front`, the reader steps back over what follows and reads it again
      rintro front again rfl
      rw [List.append_assoc] at hsplit
      rw [hreading]
      exact hsplit.delivered_again

/-- After a demand for less than nothing there is more left than before, and a byte
is given twice. -/
theorem rewinds_first_byte :
    let start : Reader := { bytes := [1, 2] }
    let demands : List Demand := [.field (.ofNat 8), .plain (-1), .field (.ofNat 8)]
    Attempt.successes (Attempt.run Reader.meet demands start).1 =
        [.field (.ofNat 1) (.ofNat 8), .plain [], .field (.ofNat 1) (.ofNat 8)] ∧
      (Attempt.states Reader.meet demands start).map Reader.available =
        [.ofNat 2, .ofNat 1, .ofNat 2, .ofNat 1] := by
  decide

end SignedHandshake.Wire
