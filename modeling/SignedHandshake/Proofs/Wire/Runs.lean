import Mathlib.Algebra.Group.Nat.Defs
import SignedHandshake.Proofs.Attempt.Matching
import SignedHandshake.Proofs.Wire.Reading

/-!
# Runs of writers and readers (specification §10.8)

A writer is handed fields and bytes in any order, with any numbers for values and widths, and goes
on after it refused some. A reader is asked for fields and bytes in the same way. What was written
is then read back item by item, and what was read makes up the bytes that were taken when it is
written again (**`runs_inverse`**).

Proof structure: an item that can be written has bytes of its own (`Item.Encodes`), and a list of
items has the bytes of its items one behind the other (`Item.Encoded`). A run of a writer appends
exactly such bytes (`Encoded.run_put`, `exists_encoded_of_run_put`), a run of a reader takes exactly
such bytes off the front (`At.run_get`, `At.exists_encoded_of_run_get`), and both are inductions on
the run over what one step does (`Encodes.put`, `At.answer`).
-/

namespace SignedHandshake

/-- The bound on a number of some bytes, as a power of two. -/
theorem Bytes.limit_eq_two_pow (width : Nat) : limit width = 2 ^ (8 * width) := by
  induction width with
  | zero => rfl
  | succ width ih =>
    have hexponent : 8 * (width + 1) = 8 + 8 * width := by omega
    rw [limit, ih, hexponent, Nat.pow_add]

namespace Wire

/-! ## Items and requests -/

/-- What is written or read in one step: a field with its value and its width in bits, or bytes. -/
inductive Item where
  | field (value bits : Number)
  | plain (bytes : Bytes)
  deriving DecidableEq

/-- What a reader is asked for in one step: a field of some width, or some number of bytes. -/
inductive Request where
  | field (bits : Number)
  | plain (count : Nat)
  deriving DecidableEq

/-- What a reader is asked for to read an item: a field of its width, or as many bytes. -/
def Item.request : Item → Request
  | .field _ bits => .field bits
  | .plain bytes => .plain bytes.length

/-- Write an item. A writer that refuses an item stays as it is. -/
def Writer.put (item : Item) : Attempt Writer Unit := fun writer =>
  match item with
  | .field value bits =>
    match writer.write value bits with
    | .ok next => .ok () next
    | .error e => .error e.toFailure writer
  | .plain bytes => .ok () (writer.writeBytes bytes)

/-- Read what is asked for. -/
def Reader.get : Request → Attempt Reader Item
  | .field bits => (Item.field · bits) <$> read bits
  | .plain count => Item.plain <$> take (.ofNat count)

/-- Bytes can always be written. A field can be written if it is 8, 16, 24 or 32 bits wide and its
value is a natural number that has no more bits. -/
def Item.Fits : Item → Prop
  | .field value bits =>
    ∃ width ∈ [8, 16, 24, 32], bits = .ofNat width ∧ ∃ n < 2 ^ width, value = .ofNat n
  | .plain _ => True

/-- The request is for `count` bytes: those of a field of one of the widths that there
are, or as many as it says. -/
inductive Request.Asks : Request → (count : Nat) → Prop where
  | field {width : Nat} (hwidth : width ∈ [8, 16, 24, 32]) : Asks (.field (.ofNat width))
      (width / 8)
  | plain (count : Nat) : Asks (.plain count) count

/-! ## The bytes of items -/

/-- The bytes of an item. The value of a field is the number that its bytes make
up, most significant first. -/
inductive Item.Encodes : Item → Bytes → Prop where
  | field (code : Bytes) (hlow : 1 ≤ code.length) (hhigh : code.length ≤ 4) :
    Encodes (.field (.ofNat (Bytes.toNat code)) (.ofNat (8 * code.length))) code
  | plain (bytes : Bytes) : Encodes (.plain bytes) bytes

/-- The bytes of several items, one behind the other. -/
inductive Item.Encoded : List Item → Bytes → Prop where
  | nil : Encoded [] []
  | cons {item : Item} {items : List Item} {code rest : Bytes} (hitem : item.Encodes code)
    (hitems : Encoded items rest) : Encoded (item :: items) (code ++ rest)

/-- The bytes of a field are the ones that it is written as. -/
theorem Item.encodes_field_iff {value bits : Number} {code : Bytes} :
    (Item.field value bits).Encodes code ↔ Wire.field value bits = .ok code := by
  rw [field_eq_ok_iff]
  constructor
  · intro h
    cases h with
    | field _ hlow hhigh =>
      exact ⟨code.length, Bytes.toNat code, fieldWidth?_eq_some_iff.mpr ⟨rfl, hlow, hhigh⟩, rfl,
        Bytes.toNat_lt code, (Bytes.bigEndian_toNat code).symm⟩
  · rintro ⟨width, n, hwidth, rfl, hlt, rfl⟩
    obtain ⟨rfl, hlow, hhigh⟩ := fieldWidth?_eq_some_iff.mp hwidth
    have hcode := Encodes.field (Bytes.bigEndian width n)
    rw [Bytes.length_bigEndian, Bytes.toNat_bigEndian_of_lt hlt] at hcode
    exact hcode hlow hhigh

/-- A natural number that fits into a field is written most significant byte first. -/
theorem Item.encodes_ofNat {n : Nat} (width : Nat) (hlow : 1 ≤ width) (hhigh : width ≤ 4)
    (h : n < Bytes.limit width) :
    (Item.field (.ofNat n) (.ofNat (8 * width))).Encodes (Bytes.bigEndian width n) :=
  encodes_field_iff.mpr (field_of_lt width hlow hhigh h)

/-- The widths that there are, in bits and in bytes. -/
theorem mem_widths_iff {width : Nat} :
    width ∈ [8, 16, 24, 32] ↔ ∃ count, width = 8 * count ∧ 1 ≤ count ∧ count ≤ 4 := by
  simp only [List.mem_cons, List.not_mem_nil, or_false]
  constructor
  · intro h
    exact ⟨width / 8, by omega⟩
  · rintro ⟨count, rfl, hlow, hhigh⟩
    omega

/-- An item has bytes exactly if it can be written. -/
theorem Item.exists_encodes_iff {item : Item} : (∃ code, item.Encodes code) ↔ item.Fits := by
  cases item with
  | plain bytes => exact ⟨fun _ => trivial, fun _ => ⟨bytes, .plain bytes⟩⟩
  | field value bits =>
    constructor
    · -- the width and the value passed the same checks
      rintro ⟨code, hcode⟩
      obtain ⟨count, n, hwidth, rfl, hlt, -⟩ := field_eq_ok_iff.mp (encodes_field_iff.mp hcode)
      obtain ⟨rfl, hlow, hhigh⟩ := fieldWidth?_eq_some_iff.mp hwidth
      rw [Bytes.limit_eq_two_pow] at hlt
      exact ⟨_, mem_widths_iff.mpr ⟨count, rfl, hlow, hhigh⟩, rfl, n, hlt, rfl⟩
    · rintro ⟨width, hwidth, rfl, n, hlt, rfl⟩
      obtain ⟨count, rfl, hlow, hhigh⟩ := mem_widths_iff.mp hwidth
      rw [← Bytes.limit_eq_two_pow] at hlt
      exact ⟨_, encodes_ofNat count hlow hhigh hlt⟩

instance (item : Item) : Decidable item.Fits :=
  match item with
  | .plain _ => .isTrue trivial
  | .field value bits =>
    match h : Wire.field value bits with
    | .ok code => .isTrue (Item.exists_encodes_iff.mp ⟨code, Item.encodes_field_iff.mpr h⟩)
    | .error _ => .isFalse fun hfits => by
      obtain ⟨code, hcode⟩ := Item.exists_encodes_iff.mpr hfits
      rw [Item.encodes_field_iff.mp hcode] at h
      cases h

/-- The widths of fields are those that requests for fields can have. -/
theorem fieldWidth?_eq_some_iff_asks {bits : Number} {count : Nat} :
    fieldWidth? bits = some count ↔ (Request.field bits).Asks count := by
  rw [fieldWidth?_eq_some_iff]
  constructor
  · rintro ⟨rfl, hlow, hhigh⟩
    have hasks := Request.Asks.field (mem_widths_iff.mpr ⟨count, rfl, hlow, hhigh⟩)
    rw [Nat.mul_div_cancel_left count (by decide)] at hasks
    exact hasks
  · intro h
    -- a request for a field asks for its width only
    generalize hrequest : Request.field bits = request at h
    cases h with
    | field hwidth =>
      obtain ⟨count, rfl, hlow, hhigh⟩ := mem_widths_iff.mp hwidth
      rw [Nat.mul_div_cancel_left count (by decide)]
      exact ⟨Request.field.inj hrequest, hlow, hhigh⟩
    | plain => cases hrequest

/-- A request is for one number of bytes. -/
theorem Request.Asks.unique {request : Request} {count other : Nat} (h : request.Asks count)
    (hother : request.Asks other) : count = other := by
  cases request with
  | field bits =>
    have hwidth := fieldWidth?_eq_some_iff_asks.mpr h
    rw [fieldWidth?_eq_some_iff_asks.mpr hother] at hwidth
    exact (Option.some.inj hwidth).symm
  | plain =>
    cases h
    cases hother
    rfl

/-- As many bytes as a request asks for are an item that answers it. -/
theorem Request.Asks.exists_encodes {request : Request} {code : Bytes}
    (h : request.Asks code.length) : ∃ item : Item, item.request = request ∧ item.Encodes code := by
  cases request with
  | plain count =>
    cases h
    exact ⟨.plain code, rfl, .plain code⟩
  | field bits =>
    obtain ⟨rfl, hlow, hhigh⟩ := fieldWidth?_eq_some_iff.mp (fieldWidth?_eq_some_iff_asks.mpr h)
    exact ⟨_, rfl, .field code hlow hhigh⟩

/-! ## Writing -/

/-- Writing an item appends its bytes. -/
theorem Item.Encodes.put {item : Item} {code : Bytes} (h : item.Encodes code) (writer : Writer) :
    Writer.put item writer = .ok () { written := writer.written ++ code } := by
  cases item with
  | plain bytes =>
    cases h
    rfl
  | field value bits =>
    have hfield := encodes_field_iff.mp h
    simp only [Writer.put, Writer.write, hfield, Except.map]

/-- An item that cannot be written is refused as out of range, and nothing is written. -/
theorem Writer.put_of_not_fits {item : Item} (h : ¬ item.Fits) (writer : Writer) :
    ∃ e : RangeError, put item writer = .error e.toFailure writer := by
  cases item with
  | plain bytes => exact absurd trivial h
  | field value bits =>
    cases hfield : field value bits with
    | ok code =>
      exact absurd (Item.exists_encodes_iff.mp ⟨code, Item.encodes_field_iff.mpr hfield⟩) h
    | error e => exact ⟨e, by simp only [put, write, hfield, Except.map]⟩

/-- A run over items that can all be written appends their bytes. -/
theorem Item.Encoded.run_put {items : List Item} {code : Bytes} (h : Encoded items code)
    (writer : Writer) :
    Attempt.run Writer.put items writer =
      (items.map fun _ => .ok (), { written := writer.written ++ code }) := by
  induction h generalizing writer with
  | nil => rw [List.append_nil, Attempt.run, List.map_nil]
  | cons hitem _ ih =>
    rw [Attempt.run_cons_of_ok (hitem.put writer), ih, List.map_cons, List.append_assoc]

/-- Of any items, a run appends the bytes of those that can be written, and refuses
the others as out of range. -/
theorem Writer.exists_encoded_of_run_put (items : List Item) (writer : Writer) :
    ∃ code, Item.Encoded (items.filter (·.Fits)) code ∧
      (Attempt.run put items writer).2 = { written := writer.written ++ code } := by
  induction items generalizing writer with
  | nil => exact ⟨[], .nil, by rw [List.append_nil, Attempt.run]⟩
  | cons item rest ih =>
    by_cases hfits : item.Fits
    · obtain ⟨first, hfirst⟩ := Item.exists_encodes_iff.mpr hfits
      obtain ⟨others, hothers, hlast⟩ := ih { written := writer.written ++ first }
      -- an item that fits is written behind what there is
      have hkept : (item :: rest).filter (·.Fits) = item :: rest.filter (·.Fits) :=
        List.filter_cons_of_pos (decide_eq_true hfits)
      refine ⟨first ++ others, ?_, ?_⟩
      · rw [hkept]
        exact .cons hfirst hothers
      · rw [Attempt.run_cons_of_ok (hfirst.put writer), hlast, List.append_assoc]
    · obtain ⟨e, hput⟩ := put_of_not_fits hfits writer
      obtain ⟨others, hothers, hlast⟩ := ih writer
      -- one that does not fit leaves the writer as it is
      have hkept : (item :: rest).filter (·.Fits) = rest.filter (·.Fits) :=
        List.filter_cons_of_neg fun h => hfits (of_decide_eq_true h)
      refine ⟨others, ?_, ?_⟩
      · rw [hkept]
        exact hothers
      · rw [Attempt.run_cons_of_error hput, hlast]

/-! ## Reading -/

namespace Reader

variable {reader : Reader} {taken : Nat} {ahead : Bytes}

/-- An item whose bytes are ahead is read. -/
theorem At.get {item : Item} {code rest : Bytes} (h : reader.At taken (code ++ rest))
    (hitem : item.Encodes code) :
    Reader.get item.request reader = .ok item (reader.behind taken code.length) := by
  cases hitem with
  | plain _ =>
    have htake : Reader.take (.ofNat code.length) reader =
        Attempt.ofExcept (.ok code) (reader.behind taken code.length) := h.take
    exact Attempt.map_of_ofExcept htake Item.plain
  | field _ hlow hhigh =>
    have hread : Reader.read (.ofNat (8 * code.length)) reader =
        Attempt.ofExcept (.ok _) (reader.behind taken code.length) := h.read code hlow hhigh
    exact Attempt.map_of_ofExcept hread (Item.field · _)

/-- For more bytes than there are ahead, the reader is asked in vain. -/
theorem At.get_short {request : Request} {count : Nat} (h : reader.At taken ahead)
    (hasks : request.Asks count) (hshort : ahead.length < count) :
    Reader.get request reader = .error ((ReadError.shortage (.ofNat count)
      (.ofNat ahead.length)).toFailure reader.peer) reader := by
  cases request with
  | plain count =>
    cases hasks
    have htake : Reader.take (.ofNat count) reader = Attempt.ofExcept (.error _) reader :=
      h.take_short hshort
    exact Attempt.map_of_ofExcept htake Item.plain
  | field bits =>
    obtain ⟨rfl, hlow, hhigh⟩ := fieldWidth?_eq_some_iff.mp (fieldWidth?_eq_some_iff_asks.mpr hasks)
    have hread : Reader.read (.ofNat (8 * count)) reader = Attempt.ofExcept (.error _) reader :=
      h.read_short count hlow hhigh hshort
    exact Attempt.map_of_ofExcept hread (Item.field · _)

/-- For a field of a width that there is not, the reader is asked in vain. -/
theorem get_of_not_asks {request : Request} (hnone : ∀ count, ¬ request.Asks count)
    (reader : Reader) :
    ∃ bits, get request reader = .error ((ReadError.width bits).toFailure reader.peer) reader := by
  cases request with
  | plain count => exact absurd (.plain count) (hnone count)
  | field bits =>
    have hwidth : fieldWidth? bits = none :=
      Option.eq_none_iff_forall_ne_some.mpr fun count hcount =>
        hnone count (fieldWidth?_eq_some_iff_asks.mp hcount)
    have hread : read bits reader =
        Attempt.ofExcept (.error ((ReadError.width bits).toFailure reader.peer)) reader := by
      simp only [read, hwidth, Attempt.ofExcept]
    exact ⟨bits, Attempt.map_of_ofExcept hread (Item.field · _)⟩

/-- What comes of a request when `ahead` is in front of the reader. -/
inductive Answer (reader : Reader) (taken : Nat) (ahead : Bytes) (request : Request) : Prop where
  /-- The bytes are there and are taken. -/
  | served (item : Item) (code rest : Bytes) (hahead : ahead = code ++ rest)
    (hrequest : item.request = request) (hasks : request.Asks code.length)
    (hitem : item.Encodes code)
    (hget : get request reader = .ok item (reader.behind taken code.length))
  /-- There are too few bytes. -/
  | short (count : Nat) (hasks : request.Asks count) (hshort : ahead.length < count) (e : Failure)
    (hget : get request reader = .error e reader) (hkind : e.kind = .decode reader.peer)
  /-- There are no fields of this width. -/
  | refused (hnone : ∀ count, ¬ request.Asks count) (e : Failure)
    (hget : get request reader = .error e reader) (hkind : e.kind = .range)

theorem At.answer (h : reader.At taken ahead) (request : Request) :
    Answer reader taken ahead request := by
  by_cases hasks : ∃ count, request.Asks count
  · obtain ⟨count, hasks⟩ := hasks
    rcases Nat.lt_or_ge ahead.length count with hshort | hthere
    · exact .short count hasks hshort _ (h.get_short hasks hshort) rfl
    · have hlength := List.length_take_of_le hthere
      rw [← hlength] at hasks
      obtain ⟨item, rfl, hitem⟩ := hasks.exists_encodes
      have hahead := (List.take_append_drop count ahead).symm
      rw [hahead] at h
      exact .served item _ _ hahead rfl hasks hitem (h.get hitem)
  · obtain ⟨bits, hget⟩ := get_of_not_asks (not_exists.mp hasks) reader
    exact .refused (not_exists.mp hasks) _ hget rfl

/-- Asked for items whose bytes are ahead, a reader gives these items. -/
theorem At.run_get {items : List Item} {code rest : Bytes} (hitems : Item.Encoded items code)
    (h : reader.At taken (code ++ rest)) :
    Attempt.run Reader.get (items.map Item.request) reader =
      (items.map .ok, reader.behind taken code.length) := by
  induction hitems generalizing reader taken with
  | nil => rw [List.map_nil, Attempt.run, List.length_nil, behind_zero h.position_eq, List.map_nil]
  | cons hitem _ ih =>
    rw [List.append_assoc] at h
    rw [List.map_cons, Attempt.run_cons_of_ok (h.get hitem), ih (h.behind _), behind_behind,
      List.map_cons, List.length_append]

/-- Whatever it is asked for, a reader takes the bytes of the items that it gave off
the front of what is ahead. -/
theorem At.exists_encoded_of_run_get (requests : List Request) (h : reader.At taken ahead) :
    ∃ code rest, ahead = code ++ rest ∧
      Item.Encoded (Attempt.successes (Attempt.run Reader.get requests reader).1) code ∧
      (Attempt.run Reader.get requests reader).2 = reader.behind taken code.length := by
  induction requests generalizing reader taken ahead with
  | nil => exact ⟨[], ahead, rfl, .nil, (behind_zero h.position_eq).symm⟩
  | cons request requests ih =>
    -- a request that was answered takes its bytes, and any other takes none
    cases h.answer request with
    | served item first others hahead _ _ hitem hget =>
      subst hahead
      obtain ⟨code, rest, hothers, hitems, hlast⟩ := ih (h.behind first)
      refine ⟨first ++ code, rest, ?_, ?_, ?_⟩
      · rw [hothers, List.append_assoc]
      · rw [Attempt.run_cons_of_ok hget]
        exact .cons hitem hitems
      · rw [Attempt.run_cons_of_ok hget, hlast, behind_behind, List.length_append]
    | short _ _ _ e hget _ | refused _ e hget _ =>
      obtain ⟨code, rest, hothers, hitems, hlast⟩ := ih h
      refine ⟨code, rest, hothers, ?_, ?_⟩
      · rw [Attempt.run_cons_of_error hget]
        exact hitems
      · rw [Attempt.run_cons_of_error hget, hlast]

end Reader

/-! ## Whole runs -/

/-- A writer takes exactly the items that can be written. It refuses all others as out of
range, and stays as it is. -/
structure Writer.Exact (writer : Writer) (item : Item) : Prop where
  accepts : Attempt.outcome (put item writer) = .ok () ↔ item.Fits
  refuses : ∀ e after, put item writer = .error e after → e.kind = .range ∧ after = writer

theorem Writer.exact (writer : Writer) (item : Item) : writer.Exact item := by
  by_cases hfits : item.Fits
  · obtain ⟨code, hcode⟩ := Item.exists_encodes_iff.mpr hfits
    have hput := hcode.put writer
    refine ⟨⟨fun _ => hfits, fun _ => ?_⟩, fun e after h => ?_⟩
    · rw [hput, Attempt.outcome_ok]
    · rw [hput] at h
      cases h
  · obtain ⟨cause, hput⟩ := put_of_not_fits hfits writer
    refine ⟨⟨fun h => ?_, fun h => absurd h hfits⟩, fun e after h => ?_⟩
    · rw [hput] at h
      cases h
    · rw [hput] at h
      cases h
      exact ⟨rfl, rfl⟩

/-- A reader of bytes from `origin` refuses a request as out of range exactly if there are no fields
of the width, and as malformed exactly if it is for more bytes than are left. There is no other way
to fail, and a reader that fails stays as it is. -/
structure Reader.Exact (origin : Option Peer) (reader : Reader) (request : Request) : Prop where
  range : (∃ e after, get request reader = .error e after ∧ e.kind = .range) ↔
    ∀ count, ¬ request.Asks count
  malformed : (∃ e after, get request reader = .error e after ∧ e.kind = .decode origin) ↔
    ∃ count, request.Asks count ∧ reader.available < .ofNat count
  unchanged : ∀ e after, get request reader = .error e after →
    (e.kind = .range ∨ e.kind = .decode origin) ∧ after = reader

theorem Reader.At.exact {reader : Reader} {taken : Nat} {ahead : Bytes} (h : reader.At taken ahead)
    (request : Request) : reader.Exact reader.peer request := by
  have hleft (count : Nat) : reader.available < .ofNat count ↔ ahead.length < count := by
    rw [h.available_eq, Number.ofNat_lt_ofNat]
  cases h.answer request with
  | served item code rest hahead _ hasks _ hget =>
    refine ⟨iff_of_false (Attempt.not_exists_error hget) fun hnone => hnone _ hasks,
      iff_of_false (Attempt.not_exists_error hget) ?_, fun e after he => ?_⟩
    · rintro ⟨count, hcount, hshort⟩
      rw [hleft, ← hasks.unique hcount, hahead, List.length_append] at hshort
      omega
    · rw [hget] at he
      cases he
  | short count hasks hshort e hget hkind =>
    rw [← hleft] at hshort
    refine ⟨?_, ?_, fun other after hother => ?_⟩
    · rw [Attempt.exists_error_iff hget, hkind]
      exact iff_of_false nofun fun hnone => hnone count hasks
    · rw [Attempt.exists_error_iff hget]
      exact iff_of_true hkind ⟨count, hasks, hshort⟩
    · rw [hget] at hother
      cases hother
      exact ⟨.inr hkind, rfl⟩
  | refused hnone e hget hkind =>
    refine ⟨?_, ?_, fun other after hother => ?_⟩
    · rw [Attempt.exists_error_iff hget]
      exact iff_of_true hkind hnone
    · rw [Attempt.exists_error_iff hget, hkind]
      exact iff_of_false nofun fun ⟨count, hasks, _⟩ => hnone count hasks
    · rw [hget] at hother
      cases hother
      exact ⟨.inl hkind, rfl⟩

/-- A reader stays between two bytes. -/
theorem Reader.keeps_at (request : Request) :
    Attempt.Keeps (fun reader => ∃ taken ahead, reader.At taken ahead) (get request) := by
  rintro reader ⟨taken, ahead, h⟩
  cases h.answer request with
  | served item code rest hahead _ _ _ hget =>
    subst hahead
    rw [hget]
    exact ⟨_, _, h.behind code⟩
  | short _ _ _ e hget _ | refused _ e hget _ =>
    rw [hget]
    exact ⟨_, _, h⟩

/-- What a reader gives is what it was asked for. -/
theorem Reader.At.request_of_get {reader : Reader} {taken : Nat} {ahead : Bytes}
    (h : reader.At taken ahead) {request : Request} {item : Item}
    (hitem : Attempt.outcome (Reader.get request reader) = .ok item) : item.request = request := by
  cases h.answer request with
  | served given _ _ _ hrequest _ _ hget =>
    rw [hget] at hitem
    cases hitem
    exact hrequest
  | short _ _ _ e hget _ | refused _ e hget _ =>
    rw [hget] at hitem
    cases hitem

/-- **Writers and readers undo each other.** A writer that is handed any items takes those that fit
and no others, at every point of a run. A reader that is then asked for what was taken gives it back
and has nothing left. A reader that is asked for anything gives what it was asked for as long as
there is enough of it, at every point of a run. Written again, what it gave are the bytes that it
took, and the rest is what it says is left. -/
theorem runs_inverse (origin : Option Peer) :
    (∀ items : List Item,
      let writing := Attempt.run Writer.put items {}
      let kept := items.filter (·.Fits)
      List.Forall₂ (fun item outcome => outcome = .ok () ↔ item.Fits) items writing.1 ∧
        (∀ item, writing.2.Exact item) ∧
        ∃ last, Attempt.run Reader.get (kept.map Item.request)
            { bytes := writing.2.written, peer := origin } = (kept.map .ok, last) ∧
          last.available = .ofNat 0) ∧
    ∀ (bytes : Bytes) (requests : List Request),
      let reading := Attempt.run Reader.get requests { bytes, peer := origin }
      let items := Attempt.successes reading.1
      List.Forall₂ (fun request outcome => ∀ item, outcome = .ok item → item.request = request)
          requests reading.1 ∧
        (∀ request, reading.2.Exact origin request) ∧
        ∃ consumed rest, bytes = consumed ++ rest ∧ reading.2.available = .ofNat rest.length ∧
          Attempt.run Writer.put items {} =
              (items.map fun _ => .ok (), { written := consumed }) := by
  refine ⟨fun items => ?_, fun bytes requests => ?_⟩
  · intro writing kept
    obtain ⟨code, hkept, hwritten⟩ := Writer.exists_encoded_of_run_put items {}
    -- what was written is all that is ahead of a reader of it
    have hstart : Reader.At { bytes := writing.2.written, peer := origin } 0 (code ++ []) := by
      rw [List.append_nil]
      have hbytes : writing.2.written = code := by
        show (Attempt.run Writer.put items {}).2.written = code
        rw [hwritten, List.nil_append]
      rw [hbytes]
      exact Reader.at_start code origin
    refine ⟨?_, writing.2.exact, _, hstart.run_get hkept, (hstart.behind code).available_eq⟩
    have hkeeps (item : Item) : Attempt.Keeps (fun _ => True) (Writer.put item) := fun _ h => h
    exact Attempt.run_forall₂ hkeeps (fun item writer _ =>
      (writer.exact item).accepts) items trivial
  · intro reading items
    have hstart := Reader.at_start bytes origin
    obtain ⟨consumed, rest, rfl, hitems, hlast⟩ := hstart.exists_encoded_of_run_get requests
    -- the reader stands behind what it consumed
    have hbehind := hstart.behind consumed
    rw [← hlast] at hbehind
    refine ⟨?_, ?_, consumed, rest, rfl, hbehind.available_eq, ?_⟩
    · exact Attempt.run_forall₂ Reader.keeps_at
        (fun _ _ ⟨_, _, h⟩ _ hitem => h.request_of_get hitem) requests ⟨_, _, hstart⟩
    · have hexact := hbehind.exact
      rw [hlast] at hexact ⊢
      exact hexact
    · exact hitems.run_put {}

end Wire

end SignedHandshake
