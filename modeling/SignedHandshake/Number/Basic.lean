
/-!
# Binary64 numbers

Every number that a caller hands over is a binary64 number: finite, infinite, or not a number.

- `Number`: these numbers, the finite ones with their exact value.
- `Number.nearest`: the number closest to an exact value.
- `Number.add`, `Number.mul`: sums and products, which are the exact ones, rounded once.
-/

namespace SignedHandshake

/-!
## Numbers as callers write them

Codes, widths, lengths and sequence numbers reach this library as numbers of any kind, and part
of its work is to refuse those that do not belong in a field. A `Number` is an exact rational
value, one of the infinities, or no number at all. The sign of a zero is not kept, because no
operation here tells the two zeros apart. The tests, the order and the conversions do not depend on
which values a binary64 number can hold; `Number.nearest` singles those out.
-/

/-- A number as a caller may write it. -/
inductive Number where
  /-- Not a number. -/
  | nan
  /-- A value beyond every finite one. -/
  | infinity (negative : Bool)
  /-- An exact value. -/
  | finite (value : Rat)
  deriving DecidableEq

namespace Number

/-- A natural number, exactly. -/
def ofNat (n : Nat) : Number :=
  .finite n

/-- A whole number, exactly. -/
def ofInt (n : Int) : Number :=
  .finite n

instance : Inhabited Number := ⟨.ofNat 0⟩

/-- The value, if it is whole. -/
def int? : Number → Option Int
  | .finite value => if value.den = 1 then some value.num else none
  | _ => none

/-- The value, if it is whole and not negative. -/
def nat? (x : Number) : Option Nat :=
  match x.int? with
  | some (.ofNat n) => some n
  | _ => none

/-- The whole part: what is left when the fraction is cut off. What is not finite has none, and
zero stands in for it. -/
def whole : Number → Int
  | .finite value => Int.tdiv value.num value.den
  | _ => 0

/-- The byte that a number is stored as: what remains of its whole part modulo 256. -/
def octet (x : Number) : UInt8 :=
  UInt8.ofInt x.whole

/-! ### Order

What is not a number is neither below nor above anything, itself included.
-/

/-- Whether a number is below another one. -/
def isBelow : Number → Number → Bool
  | .finite x, .finite y => x < y
  | .infinity negative, .finite _ => negative
  | .finite _, .infinity negative => !negative
  | .infinity s, .infinity t => s && !t
  | _, _ => false

/-- Whether a number is below another one or the same. -/
def isAtMost (x y : Number) : Bool :=
  isBelow x y || (x == y && x != .nan)

instance : LT Number := ⟨fun x y => isBelow x y = true⟩

instance : LE Number := ⟨fun x y => isAtMost x y = true⟩

instance (x y : Number) : Decidable (x < y) :=
  inferInstanceAs (Decidable (isBelow x y = true))

instance (x y : Number) : Decidable (x ≤ y) :=
  inferInstanceAs (Decidable (isAtMost x y = true))

/-! ### Whole numbers -/

@[simp] theorem int?_ofInt (n : Int) : (ofInt n).int? = some n := by
  simp [ofInt, int?]

@[simp] theorem int?_ofNat (n : Nat) : (ofNat n).int? = some (n : Int) := by
  simp [ofNat, int?]

@[simp] theorem nat?_ofNat (n : Nat) : (ofNat n).nat? = some n := by
  simp [nat?]

@[simp] theorem ofNat_inj {m n : Nat} : ofNat m = ofNat n ↔ m = n := by
  simp [ofNat]

@[simp] theorem whole_ofInt (n : Int) : (ofInt n).whole = n := by
  simp [ofInt, whole]

@[simp] theorem whole_ofNat (n : Nat) : (ofNat n).whole = n := by
  simp [ofNat, whole]

@[simp] theorem octet_ofNat (n : Nat) : (ofNat n).octet = UInt8.ofNat n := by
  have hwhole : ((n : Int) % 2 ^ 8).toNat = n % 2 ^ 8 := by omega
  rw [octet, whole_ofNat, UInt8.ofInt, hwhole, ← UInt8.toNat_inj, UInt8.toNat_ofNat',
    UInt8.toNat_ofNat', Nat.mod_mod]

theorem ofInt_natCast (n : Nat) : ofInt n = ofNat n :=
  congrArg finite (Rat.intCast_natCast n)

@[simp] theorem ofInt_lt_ofInt {m n : Int} : ofInt m < ofInt n ↔ m < n := by
  change decide ((m : Rat) < (n : Rat)) = true ↔ m < n
  rw [decide_eq_true_iff, Rat.intCast_lt_intCast]

@[simp] theorem ofNat_lt_ofNat {m n : Nat} : ofNat m < ofNat n ↔ m < n := by
  simp [← ofInt_natCast]

theorem ofInt_inj {m n : Int} : ofInt m = ofInt n ↔ m = n := by
  simp [ofInt]

@[simp] theorem ofInt_le_ofInt {m n : Int} : ofInt m ≤ ofInt n ↔ m ≤ n := by
  change isAtMost (ofInt m) (ofInt n) = true ↔ m ≤ n
  have h : isBelow (ofInt m) (ofInt n) = true ↔ m < n := ofInt_lt_ofInt
  have hnan : ofInt m ≠ .nan := Number.noConfusion
  simp [isAtMost, h, hnan, ofInt_inj, Int.le_iff_lt_or_eq]

@[simp] theorem ofNat_le_ofNat {m n : Nat} : ofNat m ≤ ofNat n ↔ m ≤ n := by
  simp [← ofInt_natCast]

protected theorem le_trans {x y z : Number} (hxy : x ≤ y) (hyz : y ≤ z) : x ≤ z := by
  change isAtMost x y = true at hxy
  change isAtMost y z = true at hyz
  change isAtMost x z = true
  cases x <;> cases y <;> cases z <;> simp_all [isAtMost, isBelow]
  -- three infinities or three finite values are left
  all_goals grind

protected theorem not_le_of_lt {x y : Number} (h : x < y) : ¬ y ≤ x := by
  change isBelow x y = true at h
  change ¬ isAtMost y x = true
  cases x <;> cases y <;> simp_all [isAtMost, isBelow]
  -- two finite values are left
  grind

/-- A number is whole exactly if it is the number of an integer. -/
theorem int?_eq_some_iff {x : Number} {n : Int} : x.int? = some n ↔ x = ofInt n := by
  constructor
  · intro h
    match x, h with
    | .finite value, h =>
      simp only [int?] at h
      split at h
      · next hden =>
        cases h
        exact congrArg Number.finite (Rat.ext (by simp) (by simpa using hden))
      · cases h
  · rintro rfl
    exact int?_ofInt n

/-- A number is natural exactly if it is the number of a natural number. -/
theorem nat?_eq_some_iff {x : Number} {n : Nat} : x.nat? = some n ↔ x = ofNat n := by
  constructor
  · intro h
    simp only [nat?] at h
    split at h
    · next m hm =>
      cases h
      exact int?_eq_some_iff.mp hm
    · cases h
  · rintro rfl
    exact nat?_ofNat n

end Number

end SignedHandshake

/-!
## Rounding to binary64

A binary64 number has 53 significant bits and an exponent that stops at -1074 below; from 2^1024
on there is only infinity. `Number.nearest` takes an exact value to the closest such number, and
half way between two of them to the one whose last bit is zero. Sums and products are the exact
ones, rounded once.
-/

namespace SignedHandshake.Number

/-- The quotient of `n` and `d` rounded to a whole number; half way, to the even one. -/
def roundQuotient (n d : Nat) : Nat :=
  let q := n / d
  let r := n % d
  if 2 * r < d ∨ (2 * r = d ∧ q % 2 = 0) then q else q + 1

/-- Whether `2 ^ e` is at most `n / d`. -/
def powerAtMost (e : Int) (n d : Nat) : Bool :=
  if 0 ≤ e then d <<< e.toNat ≤ n else d ≤ n <<< (-e).toNat

/-- The exponent of the highest power of two that is at most `n / d`, for positive `n` and `d`. -/
def floorLog (n d : Nat) : Int :=
  let e := (n.log2 : Int) - (d.log2 : Int)
  if powerAtMost e n d then e else e - 1

/-- The exponent of the last bit of a binary64 number near `n / d`. -/
def lastBit (n d : Nat) : Int :=
  max (floorLog n d - 52) (-1074)

/-- The value `m * 2 ^ e`. -/
def scaled (m : Nat) (e : Int) : Rat :=
  if 0 ≤ e then ((m <<< e.toNat : Nat) : Rat) else mkRat m (1 <<< (-e).toNat)

/-- How many last bits make up `n / d`, rounded. -/
def significand (n d : Nat) : Nat :=
  let e := lastBit n d
  if 0 ≤ e then roundQuotient n (d <<< e.toNat) else roundQuotient (n <<< (-e).toNat) d

/-- The binary64 number nearest to `n / d`, for positive `n` and `d`. -/
def nearestQuotient (n d : Nat) : Number :=
  let value := scaled (significand n d) (lastBit n d)
  if value < ((1 <<< 1024 : Nat) : Rat) then .finite value else .infinity false

/-- The number with the other sign. -/
def neg : Number → Number
  | .nan => .nan
  | .infinity negative => .infinity (!negative)
  | .finite value => .finite (-value)

/-- The binary64 number nearest to an exact value. -/
def nearest (value : Rat) : Number :=
  if value.num = 0 then .finite 0
  else
    let magnitude := nearestQuotient value.num.natAbs value.den
    if value.num < 0 then magnitude.neg else magnitude

/-- The sum, rounded. -/
def add : Number → Number → Number
  | .finite x, .finite y => nearest (x + y)
  | .infinity s, .infinity t => if s = t then .infinity s else .nan
  | .infinity s, .finite _ => .infinity s
  | .finite _, .infinity t => .infinity t
  | _, _ => .nan

@[simp] theorem neg_ofInt (n : Int) : (ofInt n).neg = ofInt (-n) :=
  congrArg finite (Rat.intCast_neg n).symm

@[simp] theorem neg_ofNat (n : Nat) : (ofNat n).neg = ofInt (-n) := by
  rw [← ofInt_natCast, neg_ofInt]

/-- The product, rounded. -/
def mul : Number → Number → Number
  | .finite x, .finite y => nearest (x * y)
  | .infinity s, .infinity t => .infinity (s != t)
  | .infinity s, .finite x => if x = 0 then .nan else .infinity (s != decide (x < 0))
  | .finite x, .infinity s => if x = 0 then .nan else .infinity (s != decide (x < 0))
  | _, _ => .nan

instance : Add Number := ⟨add⟩

instance : Mul Number := ⟨mul⟩

/-- The greatest whole number that is not above a finite value. -/
def floor : Number → Number
  | .finite value => .finite value.floor
  | x => x

/-- The values that a finite binary64 number can have. -/
def IsBinary64 (value : Rat) : Prop :=
  ∃ (m : Nat) (e : Int), m < 1 <<< 53 ∧ -1074 ≤ e ∧ e ≤ 971 ∧
    (value = scaled m e ∨ value = -scaled m e)

end SignedHandshake.Number
