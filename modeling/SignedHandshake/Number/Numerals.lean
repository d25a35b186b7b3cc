import SignedHandshake.Bytes.Basic
import SignedHandshake.Number.Basic
import SignedHandshake.Text.Basic

/-!
# Numbers as texts

- `Number.text`: the decimal text of a number, with the fewest digits that lead back to it.
- `Number.hexText`: its text in base sixteen, which is exact.
- `Number.ofChars`: the number that a numeral stands for.
-/

namespace SignedHandshake.Number

/-!
## The decimal text of a number

A number is written with the fewest decimal digits that lead back to it; of several such decimals
the nearest is taken. The point is written out while the number has at most 21 places in front of
it and fewer than six zeros behind it, and a power of ten is used beyond that.

The digits come from exact arithmetic: the decimals that lead back to a binary64 number are those
in the interval around it that rounding maps onto it, and a grid of decimals meets that interval
only if one of the two grid points next to the number lies in it.
-/

/-- The power of ten with a whole exponent. -/
def powerOfTen (e : Int) : Rat :=
  if 0 ≤ e then ((Nat.pow 10 e.toNat : Nat) : Rat) else mkRat 1 (Nat.pow 10 (-e).toNat)

/-- The values that round to one binary64 number. -/
structure RoundingInterval where
  low : Rat
  high : Rat
  /-- Whether the two ends round to the number as well. -/
  closed : Bool

namespace RoundingInterval

/-- The interval around a positive value. It reaches half way to the next number on both sides,
and below a power of two the next number is only half as far away. -/
def around (value : Rat) : RoundingInterval :=
  let n := value.num.natAbs
  let d := value.den
  let m := significand n d
  let e := lastBit n d
  { low :=
      if m = 1 <<< 52 ∧ e > -1074 then scaled (4 * m - 1) (e - 2)
      else scaled (2 * m - 1) (e - 1)
    high := scaled (2 * m + 1) (e - 1)
    closed := m % 2 = 0 }

/-- Whether a value rounds to the number of the interval. -/
def contains (i : RoundingInterval) (value : Rat) : Bool :=
  if i.closed then i.low ≤ value && value ≤ i.high else i.low < value && value < i.high

end RoundingInterval

/-- How many places a positive value has in front of the point: the least `k` for which it is below
`10 ^ k`. At most `fuel` zeros behind the point are counted. -/
def places (value : Rat) (fuel : Nat) : Int :=
  if 1 ≤ value then (Nat.toDigits 10 value.floor.toNat).length
  else
    match fuel with
    | 0 => 0
    | fuel + 1 => places (value * 10) fuel - 1

/-- Decimal digits and the number of them in front of the point. -/
structure Digits where
  digits : List Char
  point : Int

/-- The digits of the whole number `n` on the grid of step `10 ^ (k - count)`. -/
def Digits.onGrid (n count : Nat) (k : Int) : Digits :=
  if n = Nat.pow 10 count then ⟨['1'], k + 1⟩ else ⟨Nat.toDigits 10 n, k⟩

/-- The decimal with `count` digits that leads back to `value`, if there is one. -/
def digitsOfCount? (value : Rat) (interval : RoundingInterval) (k : Int) (count : Nat) :
    Option Digits :=
  let step := powerOfTen (k - count)
  let below := (value / step).floor.toNat
  let gap := value - below * step
  let lowFits := interval.contains (below * step)
  let highFits := interval.contains ((below + 1 : Nat) * step)
  if lowFits && highFits then
    if gap * 2 < step || (gap * 2 == step && below % 2 == 0) then some (.onGrid below count k)
    else some (.onGrid (below + 1) count k)
  else if lowFits then some (.onGrid below count k)
  else if highFits then some (.onGrid (below + 1) count k)
  else none

/-- The shortest decimal that leads back to a positive value. Seventeen digits always do. -/
def shortestDigits (value : Rat) : Digits :=
  let interval := RoundingInterval.around value
  let k := places value 400
  ((List.range 17).findSome? fun i => digitsOfCount? value interval k (i + 1)).getD
    (.onGrid (value / powerOfTen (k - 17)).floor.toNat 17 k)

/-- The text of digits, with the point or a power of ten. -/
def Digits.text (d : Digits) : List Char :=
  let count := d.digits.length
  let k := d.point
  if (count : Int) ≤ k ∧ k ≤ 21 then d.digits ++ List.replicate (k.toNat - count) '0'
  else if 0 < k ∧ k ≤ 21 then d.digits.take k.toNat ++ '.' :: d.digits.drop k.toNat
  else if -6 < k ∧ k ≤ 0 then '0' :: '.' :: List.replicate (-k).toNat '0' ++ d.digits
  else
    let mark := if 0 ≤ k - 1 then ['e', '+'] else ['e', '-']
    let power := mark ++ Nat.toDigits 10 (k - 1).natAbs
    match d.digits with
    | [] => power
    | [only] => only :: power
    | first :: rest => first :: '.' :: rest ++ power

/-- The text of a number. -/
def text : Number → String
  | .nan => "NaN"
  | .infinity false => "Infinity"
  | .infinity true => "-Infinity"
  | .finite value =>
    if value.num = 0 then "0"
    else if value.den = 1 ∧ value.num.natAbs < 1 <<< 53 then toString value.num
    else if value < 0 then "-" ++ String.ofList (shortestDigits (-value)).text
    else String.ofList (shortestDigits value).text

instance : ToString Number := ⟨text⟩

/-!
## The hexadecimal text of a number

In base sixteen a binary64 number has finitely many digits, also behind the point, so the text is
exact and no digits have to be chosen: there is a point exactly if there is a fraction, and the last
digit behind it is not zero.
-/

/-- The digits behind the point of a value below one, in base sixteen. At most `fuel` digits are
written. -/
def hexPlaces : (fuel : Nat) → (fraction : Rat) → List Char
  | 0, _ => []
  | fuel + 1, fraction =>
    if fraction = 0 then []
    else
      let next := fraction * 16
      Hex.digit next.floor.toNat :: hexPlaces fuel (next - next.floor)

/-- The text of a number in base sixteen. A fraction of denominator `2 ^ k` has no more than `k`
digits. -/
def hexText : Number → String
  | .finite value =>
    let size := if value < 0 then -value else value
    let places := hexPlaces value.den.log2 (size - size.floor)
    let mark := if places.isEmpty then "" else "."
    let sign := if value < 0 then "-" else ""
    sign ++ Hex.ofNat size.floor.toNat ++ mark ++ String.ofList places
  | x => x.text

/-!
## Reading a number

A numeral is a decimal with an optional sign, point and power of ten, the word `Infinity`, or a
whole number in base sixteen, eight or two behind `0x`, `0o` or `0b`. Blanks around it are ignored,
and nothing at all is zero. The value is the binary64 number nearest to the numeral's.
-/

/-- The value of a digit in a base up to sixteen. -/
def digitValue? (base : Nat) (c : Char) : Option Nat :=
  let n := c.toNat
  let value :=
    if 48 ≤ n ∧ n ≤ 57 then some (n - 48)
    else if 65 ≤ n ∧ n ≤ 70 then some (n - 55)
    else if 97 ≤ n ∧ n ≤ 102 then some (n - 87)
    else none
  value.filter (· < base)

/-- A whole number in the given base: at least one digit and nothing else. -/
def wholeNumeral? (base : Nat) (cs : List Char) : Option Nat :=
  if cs.isEmpty then none
  else cs.foldlM (fun n c => (digitValue? base c).map (n * base + ·)) 0

/-- The value of `mantissa * 10 ^ exponent`. Exponents far outside the range of binary64 are not
computed out. -/
def ofDecimal (mantissa : Nat) (exponent : Int) : Number :=
  let size := exponent + (Nat.toDigits 10 mantissa).length
  if mantissa = 0 then .finite 0
  else if size > 400 then .infinity false
  else if size < -400 then .finite 0
  else nearest (mantissa * powerOfTen exponent)

/-- The power of ten at the end of a decimal. -/
def exponentPart? : List Char → Option Int
  | [] => some 0
  | mark :: rest =>
    if mark = 'e' ∨ mark = 'E' then
      match rest with
      | '-' :: digits => (wholeNumeral? 10 digits).map fun n => -(n : Int)
      | '+' :: digits => (wholeNumeral? 10 digits).map fun n => (n : Int)
      | digits => (wholeNumeral? 10 digits).map fun n => (n : Int)
    else none

/-- A decimal without a sign: digits, an optional point with further digits, an optional power of
ten. At least one digit stands before the power. -/
def unsignedDecimal (cs : List Char) : Number :=
  if cs = "Infinity".toList then .infinity false
  else
    let whole := cs.takeWhile Char.isDigit
    let rest := cs.dropWhile Char.isDigit
    let (fraction, rest) :=
      match rest with
      | '.' :: rest => (rest.takeWhile Char.isDigit, rest.dropWhile Char.isDigit)
      | _ => ([], rest)
    match wholeNumeral? 10 (whole ++ fraction), exponentPart? rest with
    | some mantissa, some exponent => ofDecimal mantissa (exponent - fraction.length)
    | _, _ => .nan

/-- The number that characters stand for; what is no numeral is not a number. -/
def ofChars (cs : List Char) : Number :=
  match Text.trimList cs with
  | [] => .finite 0
  | '0' :: mark :: rest =>
    let base? := if mark = 'x' ∨ mark = 'X' then some 16
      else if mark = 'o' ∨ mark = 'O' then some 8
      else if mark = 'b' ∨ mark = 'B' then some 2
      else none
    match base? with
    | some base =>
      match wholeNumeral? base rest with
      | some n => nearest n
      | none => .nan
    | none => unsignedDecimal ('0' :: mark :: rest)
  | '-' :: rest => (unsignedDecimal rest).neg
  | '+' :: rest => unsignedDecimal rest
  | cs => unsignedDecimal cs

end SignedHandshake.Number
