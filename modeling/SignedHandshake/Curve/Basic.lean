import SignedHandshake.Bytes.Basic

/-!
# Curves for signatures

The curves below the signature schemes, as numbers modulo a prime and formulas over them.

- `inverse`, `squareRoot?`: the arithmetic modulo a prime that both sorts of curves need.
- `Weierstrass`: a short Weierstrass curve of prime order, with `secp256r1`, `secp384r1`,
  `secp521r1` and `secp256k1`. Signatures over a digest use these.
- `Edwards`: an Edwards curve, with `edwards25519` and `edwards448`. Signatures
  over a message use these.
-/

namespace SignedHandshake.Curve

/-!
## Arithmetic modulo a prime

The numbers modulo `p` are `Fin p`. Inverses come from Fermat's theorem and square roots from the
two formulas for primes that leave 3 modulo 4 or 5 modulo 8; both are powers, computed bit by bit.
-/

/-- The binary digits of a number, highest first. -/
def bits (n : Nat) : List Bool :=
  ((List.range (n.log2 + 1)).map n.testBit).reverse

/-- Combine `n` copies of `x`: for each binary digit double what there is, and add `x` once if the
digit is set. -/
@[specialize] def combine {α : Type} (zero : α) (add : α → α → α) (n : Nat) (x : α) : α :=
  (bits n).foldl
    (fun sum bit => let double := add sum sum; if bit then add double x else double) zero

/-- A number that numbers can be taken modulo. -/
abbrev IsModulus (p : Nat) : Prop := @NeZero Nat Zero.ofOfNat0 p

section

variable {p : Nat} [IsModulus p]

/-- The power `x ^ n` modulo `p`. -/
def power (x : Fin p) (n : Nat) : Fin p :=
  combine 1 (· * ·) n x

/-- The inverse modulo a prime, and zero for zero. -/
def inverse (x : Fin p) : Fin p :=
  power x (p - 2)

/-- A number whose square is `x`, if there is one, for a prime `p` that leaves 3 modulo 4 or 5
modulo 8. -/
def squareRoot? (x : Fin p) : Option (Fin p) :=
  let root := if p % 4 = 3 then power x ((p + 1) / 4) else power x ((p + 3) / 8)
  let other := root * power 2 ((p - 1) / 4)
  if root * root = x then some root
  else if p % 8 = 5 ∧ other * other = x then some other
  else none

end

/-!
## Short Weierstrass curves of prime order

Points of `y^2 = x^3 + a x + b` in homogeneous coordinates, with the addition formulas that hold for
every pair of points on a curve of odd order: doubling and the point at infinity need no case of
their own.
-/

/-- A curve over the field with `p` elements, with a generator of prime order `n`. -/
structure Weierstrass where
  p : Nat
  a : Nat
  b : Nat
  generatorX : Nat
  generatorY : Nat
  n : Nat
  /-- The number of bytes of a coordinate. -/
  width : Nat
  p_pos : 0 < p := by decide
  n_pos : 0 < n := by decide
  generator_on_curve :
    generatorY * generatorY % p =
      (generatorX * generatorX * generatorX + a * generatorX + b) % p := by decide

namespace Weierstrass

instance (C : Weierstrass) : IsModulus C.p := ⟨Nat.ne_of_gt C.p_pos⟩

instance (C : Weierstrass) : IsModulus C.n := ⟨Nat.ne_of_gt C.n_pos⟩

/-- The field of coordinates. -/
abbrev Coordinate (C : Weierstrass) : Type := Fin C.p

/-- A point in homogeneous coordinates; at infinity, `z` is zero. -/
structure Point (C : Weierstrass) where
  x : C.Coordinate
  y : C.Coordinate
  z : C.Coordinate

variable {C : Weierstrass}

/-- The point at infinity. -/
def Point.infinity : Point C := ⟨0, 1, 0⟩

/-- The point with given affine coordinates. -/
def Point.ofAffine (x y : C.Coordinate) : Point C := ⟨x, y, 1⟩

/-- The affine coordinates, unless the point is at infinity. -/
def Point.affine? (P : Point C) : Option (C.Coordinate × C.Coordinate) :=
  if P.z = 0 then none
  else
    let scale := inverse P.z
    some (P.x * scale, P.y * scale)

/-- The sum of any two points. -/
def Point.add (P Q : Point C) : Point C :=
  let a := Fin.ofNat C.p C.a
  let b3 := Fin.ofNat C.p (3 * C.b)
  let xx := P.x * Q.x
  let yy := P.y * Q.y
  let zz := P.z * Q.z
  let xy := (P.x + P.y) * (Q.x + Q.y) - xx - yy
  let xz := (P.x + P.z) * (Q.x + Q.z) - xx - zz
  let yz := (P.y + P.z) * (Q.y + Q.z) - yy - zz
  let m := a * xz + b3 * zz
  let u := yy - m
  let v := yy + m
  let azz := a * zz
  let w := xx + xx + xx + azz
  let s := b3 * xz + a * (xx - azz)
  ⟨xy * u - yz * s, u * v + w * s, yz * v + xy * w⟩

/-- The sum of `k` copies of a point. -/
def Point.multiply (k : Nat) (P : Point C) : Point C :=
  combine .infinity Point.add k P

/-- The generator. -/
def generator (C : Weierstrass) : Point C :=
  .ofAffine (Fin.ofNat C.p C.generatorX) (Fin.ofNat C.p C.generatorY)

/-- The right side of the curve's equation. -/
def cubic (x : C.Coordinate) : C.Coordinate :=
  x * x * x + Fin.ofNat C.p C.a * x + Fin.ofNat C.p C.b

/-! ### Points as bytes -/

/-- A coordinate in bytes, unless the number is too large for the field. -/
def coordinate? (C : Weierstrass) (bytes : Bytes) : Option C.Coordinate :=
  if h : Bytes.toNat bytes < C.p then some ⟨Bytes.toNat bytes, h⟩ else none

/-- The point that bytes stand for: both coordinates behind `04`, or the first one behind `02` or
`03`, which tells whether the second is even or odd. -/
def decodePoint? (C : Weierstrass) : Bytes → Option (Point C)
  | [] => none
  | form :: rest =>
    if form = 4 ∧ rest.length = 2 * C.width then do
      let x ← C.coordinate? (rest.take C.width)
      let y ← C.coordinate? (rest.drop C.width)
      if y * y = cubic x then some (.ofAffine x y) else none
    else if (form = 2 ∨ form = 3) ∧ rest.length = C.width then do
      let x ← C.coordinate? rest
      let y ← squareRoot? (cubic x)
      some (.ofAffine x (if y.val % 2 = form.toNat % 2 then y else 0 - y))
    else none

/-- A point with both coordinates written out; the point at infinity has no such form. -/
def Point.encode? (P : Point C) : Option Bytes :=
  P.affine?.map fun (x, y) => 4 :: Bytes.bigEndian C.width x.val ++ Bytes.bigEndian C.width y.val

end Weierstrass

/-!
## The curves with a name

The parameters of the four curves that signatures over a digest may use.
-/

/-- A curve over the field with 2^256 - 2^224 + 2^192 + 2^96 - 1 elements. -/
def secp256r1 : Weierstrass where
  p := 0xFFFFFFFF00000001000000000000000000000000FFFFFFFFFFFFFFFFFFFFFFFF
  a := 0xFFFFFFFF00000001000000000000000000000000FFFFFFFFFFFFFFFFFFFFFFFC
  b := 0x5AC635D8AA3A93E7B3EBBD55769886BC651D06B0CC53B0F63BCE3C3E27D2604B
  generatorX := 0x6B17D1F2E12C4247F8BCE6E563A440F277037D812DEB33A0F4A13945D898C296
  generatorY := 0x4FE342E2FE1A7F9B8EE7EB4A7C0F9E162BCE33576B315ECECBB6406837BF51F5
  n := 0xFFFFFFFF00000000FFFFFFFFFFFFFFFFBCE6FAADA7179E84F3B9CAC2FC632551
  width := 32

/-- A curve over the field with 2^384 - 2^128 - 2^96 + 2^32 - 1 elements. -/
def secp384r1 : Weierstrass where
  p := 0xFFFFFFFFFFFFFFFFFFFFFFFFFFFFFFFFFFFFFFFFFFFFFFFFFFFFFFFFFFFFFFFEFFFFFFFF0000000000000000FFFFFFFF
  a := 0xFFFFFFFFFFFFFFFFFFFFFFFFFFFFFFFFFFFFFFFFFFFFFFFFFFFFFFFFFFFFFFFEFFFFFFFF0000000000000000FFFFFFFC
  b := 0xB3312FA7E23EE7E4988E056BE3F82D19181D9C6EFE8141120314088F5013875AC656398D8A2ED19D2A85C8EDD3EC2AEF
  generatorX :=
    0xAA87CA22BE8B05378EB1C71EF320AD746E1D3B628BA79B9859F741E082542A385502F25DBF55296C3A545E3872760AB7
  generatorY :=
    0x3617DE4A96262C6F5D9E98BF9292DC29F8F41DBD289A147CE9DA3113B5F0B8C00A60B1CE1D7E819D7A431D7C90EA0E5F
  n := 0xFFFFFFFFFFFFFFFFFFFFFFFFFFFFFFFFFFFFFFFFFFFFFFFFC7634D81F4372DDF581A0DB248B0A77AECEC196ACCC52973
  width := 48

/-- A curve over the field with 2^521 - 1 elements. -/
def secp521r1 : Weierstrass where
  p := 0x1FFFFFFFFFFFFFFFFFFFFFFFFFFFFFFFFFFFFFFFFFFFFFFFFFFFFFFFFFFFFFFFFFFFFFFFFFFFFFFFFFFFFFFFFFFFFFFFFFFFFFFFFFFFFFFFFFFFFFFFFFFFFFFFFFF
  a := 0x1FFFFFFFFFFFFFFFFFFFFFFFFFFFFFFFFFFFFFFFFFFFFFFFFFFFFFFFFFFFFFFFFFFFFFFFFFFFFFFFFFFFFFFFFFFFFFFFFFFFFFFFFFFFFFFFFFFFFFFFFFFFFFFFFFC
  b := 0x51953EB9618E1C9A1F929A21A0B68540EEA2DA725B99B315F3B8B489918EF109E156193951EC7E937B1652C0BD3BB1BF073573DF883D2C34F1EF451FD46B503F00
  generatorX :=
    0xC6858E06B70404E9CD9E3ECB662395B4429C648139053FB521F828AF606B4D3DBAA14B5E77EFE75928FE1DC127A2FFA8DE3348B3C1856A429BF97E7E31C2E5BD66
  generatorY :=
    0x11839296A789A3BC0045C8A5FB42C7D1BD998F54449579B446817AFBD17273E662C97EE72995EF42640C550B9013FAD0761353C7086A272C24088BE94769FD16650
  n := 0x1FFFFFFFFFFFFFFFFFFFFFFFFFFFFFFFFFFFFFFFFFFFFFFFFFFFFFFFFFFFFFFFFFA51868783BF2F966B7FCC0148F709A5D03BB5C9B8899C47AEBB6FB71E91386409
  width := 66

/-- A curve without a linear term, over the field with 2^256 - 2^32 - 977 elements. -/
def secp256k1 : Weierstrass where
  p := 0xFFFFFFFFFFFFFFFFFFFFFFFFFFFFFFFFFFFFFFFFFFFFFFFFFFFFFFFEFFFFFC2F
  a := 0
  b := 7
  generatorX := 0x79BE667EF9DCBBAC55A06295CE870B07029BFCDB2DCE28D959F2815B16F81798
  generatorY := 0x483ADA7726A3C4655DA4FBFC0E1108A8FD17B448A68554199C47D08FFB10D4B8
  n := 0xFFFFFFFFFFFFFFFFFFFFFFFFFFFFFFFEBAAEDCE6AF48A03BBFD25E8CD0364141
  width := 32

/-!
## Edwards curves

Points of `a x^2 + y^2 = 1 + d x^2 y^2` in homogeneous coordinates. For `a` a square and `d` none,
as on both curves here, one formula adds any two points.
-/

/-- A curve over the field with `p` elements. The generator has prime order `n`, which times
`2 ^ cofactorBits` is the number of points. -/
structure Edwards where
  p : Nat
  a : Nat
  d : Nat
  generatorX : Nat
  generatorY : Nat
  n : Nat
  cofactorBits : Nat
  /-- The number of bytes of an encoded point. -/
  width : Nat
  p_pos : 0 < p := by decide
  generator_on_curve :
    (a * (generatorX * generatorX) + generatorY * generatorY) % p =
      (1 + d * (generatorX * generatorX) * (generatorY * generatorY)) % p := by decide

namespace Edwards

instance (C : Edwards) : IsModulus C.p := ⟨Nat.ne_of_gt C.p_pos⟩

/-- The field of coordinates. -/
abbrev Coordinate (C : Edwards) : Type := Fin C.p

/-- A point in homogeneous coordinates. -/
structure Point (C : Edwards) where
  x : C.Coordinate
  y : C.Coordinate
  z : C.Coordinate

variable {C : Edwards}

/-- The neutral point. -/
def Point.zero : Point C := ⟨0, 1, 1⟩

/-- Whether a point is the neutral one. -/
def Point.isZero (P : Point C) : Bool :=
  P.x = 0 ∧ P.y = P.z

/-- The sum of any two points. -/
def Point.add (P Q : Point C) : Point C :=
  let zz := P.z * Q.z
  let square := zz * zz
  let xx := P.x * Q.x
  let yy := P.y * Q.y
  let e := Fin.ofNat C.p C.d * xx * yy
  let f := square - e
  let g := square + e
  ⟨zz * f * ((P.x + P.y) * (Q.x + Q.y) - xx - yy), zz * g * (yy - Fin.ofNat C.p C.a * xx), f * g⟩

/-- The point on the other side. -/
def Point.neg (P : Point C) : Point C :=
  { P with x := 0 - P.x }

/-- The sum of `k` copies of a point. -/
def Point.multiply (k : Nat) (P : Point C) : Point C :=
  combine .zero Point.add k P

/-- The sum of as many copies of a point as there are points of small order. -/
def Point.clearCofactor (P : Point C) : Point C :=
  P.multiply (1 <<< C.cofactorBits)

/-- Whether a point has small order. -/
def Point.isSmallOrder (P : Point C) : Bool :=
  P.clearCofactor.isZero

/-- The generator. -/
def generator (C : Edwards) : Point C :=
  ⟨Fin.ofNat C.p C.generatorX, Fin.ofNat C.p C.generatorY, 1⟩

/-! ### Points as bytes -/

/-- The weight of the top bit of an encoded point, which tells whether the first coordinate is
odd. -/
def signWeight (C : Edwards) : Nat :=
  1 <<< (8 * C.width - 1)

/-- A point as bytes: the second coordinate, least significant byte first, and the parity of the
first one in the top bit. -/
def Point.encode (P : Point C) : Bytes :=
  let scale := inverse P.z
  let x := P.x * scale
  let y := P.y * scale
  Bytes.littleEndian C.width (y.val + (x.val % 2) * C.signWeight)

/-- The point that bytes stand for. The second coordinate has to lie in the field, a first one has
to exist, and a first one that is zero is not called odd. -/
def decodePoint? (C : Edwards) (bytes : Bytes) : Option (Point C) :=
  if bytes.length ≠ C.width then none
  else
    let number := Bytes.toNatLittle bytes
    let odd := number / C.signWeight
    let low := number % C.signWeight
    if h : low < C.p then
      let y : C.Coordinate := ⟨low, h⟩
      let yy := y * y
      (squareRoot? ((yy - 1) * inverse (Fin.ofNat C.p C.d * yy - Fin.ofNat C.p C.a))).bind fun x =>
        if x = 0 ∧ odd = 1 then none
        else some ⟨if x.val % 2 = odd then x else 0 - x, y, 1⟩
    else none

end Edwards

/-- The twisted Edwards curve over the field with 2^255 - 19 elements. -/
def edwards25519 : Edwards where
  p := 0x7FFFFFFFFFFFFFFFFFFFFFFFFFFFFFFFFFFFFFFFFFFFFFFFFFFFFFFFFFFFFFED
  a := 0x7FFFFFFFFFFFFFFFFFFFFFFFFFFFFFFFFFFFFFFFFFFFFFFFFFFFFFFFFFFFFFEC
  d := 37095705934669439343138083508754565189542113879843219016388785533085940283555
  generatorX := 15112221349535400772501151409588531511454012693041857206046113283949847762202
  generatorY := 46316835694926478169428394003475163141307993866256225615783033603165251855960
  n := 0x1000000000000000000000000000000014DEF9DEA2F79CD65812631A5CF5D3ED
  cofactorBits := 3
  width := 32

/-- The Edwards curve over the field with 2^448 - 2^224 - 1 elements. -/
def edwards448 : Edwards where
  p := 0xFFFFFFFFFFFFFFFFFFFFFFFFFFFFFFFFFFFFFFFFFFFFFFFFFFFFFFFEFFFFFFFFFFFFFFFFFFFFFFFFFFFFFFFFFFFFFFFFFFFFFFFFFFFFFFFF
  a := 1
  d := 0xFFFFFFFFFFFFFFFFFFFFFFFFFFFFFFFFFFFFFFFFFFFFFFFFFFFFFFFEFFFFFFFFFFFFFFFFFFFFFFFFFFFFFFFFFFFFFFFFFFFFFFFFFFFF6756
  generatorX :=
    224580040295924300187604334099896036246789641632564134246125461686950415467406032909029192869357953282578032075146446173674602635247710
  generatorY :=
    298819210078481492676017930443930673437544040154080242095928241372331506189835876003536878655418784733982303233503462500531545062832660
  n := 0x3FFFFFFFFFFFFFFFFFFFFFFFFFFFFFFFFFFFFFFFFFFFFFFFFFFFFFFF7CCA23E9C44EDB49AED63690216CC2728DC58F552378C292AB5844F3
  cofactorBits := 2
  width := 57

end SignedHandshake.Curve
