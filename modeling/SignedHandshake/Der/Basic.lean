import SignedHandshake.Failure
import SignedHandshake.Number.Numerals

/-!
# DER (specification §10.6)

The part of DER that private key information needs (RFC 5958, RFC 8410).

- `Der.read`, `Der.encode`: an element, which is a tag, a length and that many content bytes.
- `ObjectIdentifier.decode`, `ObjectIdentifier.encode`: the content of an object identifier.
- `PrivateKeyInfo.decode`, `PrivateKeyInfo.encode`: a private key with the
  identifier of its algorithm.
-/

namespace SignedHandshake.Der

/-!
## DER elements

An element is a tag byte, a length and that many content bytes. A length below 128 is one byte; a
longer one is announced by a byte `0x80 + k` and follows in `k` bytes, `k` from one to three.
Reading accepts lengths that are longer than they need be; writing never produces them.

Content beyond 24 bits of length has no length field here: `lengthField` keeps the low 24 bits.

Elements start at positions in the bytes, and that is what `read` and `expect` take. `readAt` and
`expectAt` take any number instead. A number that is no position has no byte, so there is no tag at
it, and without a byte for the length there is nothing behind it either; `Found` says what there is.
-/

/-- Why bytes are not the DER that was expected. -/
inductive Error where
  | truncatedElement (offset : Number)
  | unsupportedLength (octet : UInt8)
  | truncatedLength
  | exceedsInput (needed left : Nat)
  | unexpectedTag (expected offset : Number) (found : UInt8)
  | emptyIdentifier
  | multiByteLeadingArcs
  | endsInsideArc
  | invalidIdentifier (identifier : Text)
  | trailingAfterInfo
  | unsupportedVersion
  | trailingAfterKey
  deriving DecidableEq

/-- The text of the error, with the offset or the lengths that it is about. -/
def Error.message : Error → Text
  | .truncatedElement offset => s!"DER element truncated at offset {offset}"
  | .unsupportedLength octet =>
    let digits := Hex.ofNat octet.toNat
    s!"Unsupported DER length encoding 0x{digits}"
  | .truncatedLength => "DER length truncated"
  | .exceedsInput needed left => s!"DER element exceeds input: needs {needed} bytes, {left} left"
  | .unexpectedTag expected offset found =>
    let want := expected.hexText
    let got := Hex.ofNat found.toNat
    s!"Expected DER tag 0x{want} at offset {offset}, found 0x{got}"
  | .emptyIdentifier => "Empty OID"
  | .multiByteLeadingArcs => "Multi-byte leading OID arcs are not supported"
  | .endsInsideArc => "OID ends inside an arc"
  | .invalidIdentifier identifier => "Invalid OID " ++ identifier
  | .trailingAfterInfo => "Trailing bytes after PrivateKeyInfo"
  | .unsupportedVersion => "Unsupported PrivateKeyInfo version"
  | .trailingAfterKey => "Trailing bytes after CurvePrivateKey"

/-- The failure that reading or writing DER ends with. -/
def Error.toFailure (e : Error) : Failure :=
  .mk .der e.message none

/-- The tags this library meets. -/
def integerTag : UInt8 := 0x02

@[inherit_doc integerTag]
def octetStringTag : UInt8 := 0x04

@[inherit_doc integerTag]
def identifierTag : UInt8 := 0x06

@[inherit_doc integerTag]
def sequenceTag : UInt8 := 0x30

/-- An element, and the offset just behind it in the bytes it was read from. -/
structure Element where
  tag : UInt8
  content : Bytes
  stop : Nat
  deriving DecidableEq, Repr

/-! ### Writing -/

/-- The length field for `length` content bytes. The number itself decides on the form, and its
whole part is what is written. -/
def lengthField (length : Number) : Bytes :=
  let low (width : Nat) := Bytes.bigEndian width (length.whole % Bytes.limit width).toNat
  if length < .ofNat 0x80 then low 1
  else if length ≤ .ofNat 0xFF then 0x81 :: low 1
  else if length ≤ .ofNat 0xFFFF then 0x82 :: low 2
  else 0x83 :: low 3

/-- The length field of content that has a natural number of bytes. -/
theorem lengthField_ofNat (length : Nat) :
    lengthField (.ofNat length) =
      if length < 0x80 then Bytes.bigEndian 1 length
      else if length ≤ 0xFF then 0x81 :: Bytes.bigEndian 1 length
      else if length ≤ 0xFFFF then 0x82 :: Bytes.bigEndian 2 length
      else 0x83 :: Bytes.bigEndian 3 length := by
  have hlow (width : Nat) :
      Bytes.bigEndian width ((length : Int) % Bytes.limit width).toNat =
          Bytes.bigEndian width length := by
    rw [← Bytes.bigEndian_mod width length]
    congr 1
  simp only [lengthField, Number.whole_ofNat, Number.ofNat_lt_ofNat, Number.ofNat_le_ofNat, hlow]

/-- An element with the given tag and content. -/
def encode (tag : UInt8) (content : Bytes) : Bytes :=
  tag :: lengthField (.ofNat content.length) ++ content

/-! ### Reading -/

/-- The length that the bytes behind a tag announce, and the number of bytes that say so. -/
def readLength (bytes : Bytes) : Except Error (Nat × Nat) :=
  match bytes with
  | [] => .error .truncatedLength
  | first :: rest =>
    if first < 0x80 then .ok (first.toNat, 1)
    else
      let count := first.toNat - 0x80
      if count = 0 ∨ count > 3 then .error (.unsupportedLength first)
      else if rest.length < count then .error .truncatedLength
      else .ok (Bytes.toNat (rest.take count), 1 + count)

/-- The content of the element whose length starts at `position`, and the offset behind it. -/
def readContent (der : Bytes) (position : Nat) : Except Error (Bytes × Nat) := do
  let (length, width) ← readLength (der.drop position)
  let start := position + width
  if start + length > der.length then .error (.exceedsInput length (der.length - start))
  else .ok ((der.drop start).take length, start + length)

/-- Read the element that starts at `offset`. -/
def read (der : Bytes) (offset : Nat) : Except Error Element :=
  match der.drop offset with
  | tag :: _ :: _ => do
    let (content, stop) ← readContent der (offset + 1)
    return { tag, content, stop }
  | _ => .error (.truncatedElement (.ofNat offset))

/-- Read the element that starts at `offset` and check its tag. -/
def expect (der : Bytes) (offset : Nat) (tag : UInt8) : Except Error Element := do
  let element ← read der offset
  if element.tag = tag then .ok element
  else .error (.unexpectedTag (.ofNat tag.toNat) (.ofNat offset) element.tag)

/-- Read elements one behind the other from `offset` to the end. At most `fuel` elements are read,
and each has at least two bytes. -/
def readAllFrom (der : Bytes) (offset : Nat) : (fuel : Nat) → List Element × Option Error
  | 0 => ([], none)
  | fuel + 1 =>
    if der.length ≤ offset then ([], none)
    else match read der offset with
      | .error e => ([], some e)
      | .ok element =>
        let (elements, e) := readAllFrom der element.stop fuel
        (element :: elements, e)

/-- All elements of `der`, up to the first that is malformed. -/
def readAll (der : Bytes) : List Element × Option Error :=
  readAllFrom der 0 der.length

/-! ### Reading at any number -/

/-- What there is at a number: an element, or what is left of one where a tag or
a length is missing. -/
structure Found where
  tag? : Option UInt8 := none
  content : Bytes := []
  stop? : Option Nat := none
  deriving DecidableEq

/-- A whole element, as something found. -/
def Element.found (element : Element) : Found where
  tag? := some element.tag
  content := element.content
  stop? := some element.stop

/-- Read what is at `offset`. -/
def readAt (der : Bytes) (offset : Number) : Except Error Found :=
  match offset.nat? with
  | some position => (read der position).map Element.found
  | none =>
    if Number.ofNat der.length < offset + .ofNat 2 then .error (.truncatedElement offset)
    else
      match (offset + .ofNat 1).nat? with
      | none => .ok {}
      | some position =>
        (readContent der position).map fun (content, stop) => { content, stop? := some stop }

/-- At a position there is the element that starts there. -/
@[simp] theorem readAt_ofNat (der : Bytes) (position : Nat) :
    readAt der (.ofNat position) = (read der position).map Element.found := by
  simp [readAt]

/-- There is no tag to compare with the one that was expected. -/
def noTag : Failure :=
  .mk .absent "Cannot read properties of undefined (reading 'toString')" none

/-- Read what is at `offset` and check its tag. -/
def expectAt (der : Bytes) (offset tag : Number) : Except Failure Found := do
  let found ← (readAt der offset).mapError Error.toFailure
  match found.tag? with
  | none => .error noTag
  | some other =>
    if tag = .ofNat other.toNat then .ok found
    else .error (Error.unexpectedTag tag offset other).toFailure

end SignedHandshake.Der

/-!
## Object identifiers

An object identifier is a path of arcs, written with points between them. In DER the first two arcs
share one byte, and each further arc is its digits in base 128, every byte but the last with the top
bit set.

Arcs are computed with as binary64 numbers: an arc beyond 2^53 is rounded as it is read, and one
beyond all finite numbers becomes infinite. Writing an arc takes its digits apart by dividing by 128
and dropping the fraction.
-/

namespace SignedHandshake.Der.ObjectIdentifier

/-- The base of the digits of an arc. -/
def base : Number := .ofNat 128

/-- The part of a number that its last digit in base 128 leaves out. -/
def dropDigit (x : Number) : Number :=
  (x * .finite (1 / 128)).floor

/-! ### Reading -/

/-- The arcs in `bytes`, when `arc` is what was read of the current one. -/
def readArcs (arc : Number) : Bytes → Except Error (List Number)
  | [] => .ok []
  | byte :: rest =>
    let arc := arc * base + .ofNat (byte.toNat % 128)
    if byte < 0x80 then (readArcs (.ofNat 0) rest).map (arc :: ·)
    else if rest.isEmpty then .error .endsInsideArc
    else readArcs arc rest

/-- The identifier in the content of a DER element. -/
def decode : Bytes → Except Error Text
  | [] => .error .emptyIdentifier
  | first :: rest =>
    if first < 0x80 then do
      let top := min (first.toNat / 40) 2
      let arcs ← readArcs (.ofNat 0) rest
      .ok (String.intercalate "."
        ((Number.ofNat top :: Number.ofNat (first.toNat - top * 40) :: arcs).map Number.text))
    else .error .multiByteLeadingArcs

/-! ### Writing -/

/-- Put the digits of `rest` in front of the digits in `written`. -/
def leadingDigits : (fuel : Nat) → (rest : Number) → (written : Bytes) → Bytes
  | 0, _, written => written
  | fuel + 1, rest, written =>
    match rest.nat? with
    | none | some 0 => written
    | some n =>
      leadingDigits fuel (dropDigit rest) (UInt8.ofNat (n % 128 + 128) :: written)

/-- The digits of an arc in base 128. A number has no more of them than it has bits. -/
def arcBytes (arc : Number) : Bytes :=
  match arc.nat? with
  | none => []
  | some n => leadingDigits (n.log2 + 1) (dropDigit arc) [UInt8.ofNat (n % 128)]

/-- The DER content for an identifier. The parts between the points are read as numerals of any
spelling; they have to be whole and not negative. The first byte keeps the low eight bits of what
the first two arcs give together. -/
def encode (identifier : Text) : Except Error Bytes :=
  let arcs := (identifier.chars.splitOn '.').map Number.ofChars
  if arcs.all fun arc => arc.nat?.isSome then
    match arcs with
    | first :: second :: rest =>
      .ok ((first * .ofNat 40 + second).octet :: rest.flatMap arcBytes)
    | _ => .error (.invalidIdentifier identifier)
  else .error (.invalidIdentifier identifier)

end SignedHandshake.Der.ObjectIdentifier

/-!
## Private key information

A PKCS#8 private key is a sequence of a version, an algorithm identifier and the key itself in an
octet string. Keys of the Edwards curves are wrapped in a second octet string inside the first.
Parameters behind the algorithm and attributes behind the key are not looked at.
-/

namespace SignedHandshake.Der

/-- An algorithm, by its object identifier, and the octets of a private key for it. -/
structure PrivateKeyInfo where
  algorithm : Text
  privateKey : Bytes
  deriving DecidableEq

namespace PrivateKeyInfo

/-- Read private key information: version 0 or 1, and nothing behind it. -/
def decode (der : Bytes) : Except Error PrivateKeyInfo := do
  let outer ← expect der 0 sequenceTag
  if outer.stop ≠ der.length then throw .trailingAfterInfo
  let body := outer.content
  let version ← expect body 0 integerTag
  match version.content with
  | [number] => if number > 1 then throw .unsupportedVersion
  | _ => throw .unsupportedVersion
  let algorithm ← expect body version.stop sequenceTag
  let identifier ← expect algorithm.content 0 identifierTag
  let wrapped ← expect body algorithm.stop octetStringTag
  let inner ← expect wrapped.content 0 octetStringTag
  if inner.stop ≠ wrapped.content.length then throw .trailingAfterKey
  let name ← ObjectIdentifier.decode identifier.content
  return { algorithm := name, privateKey := inner.content }

/-- Write private key information: version 0, no parameters, no attributes. -/
def encode (info : PrivateKeyInfo) : Except Error Bytes := do
  let identifier ← ObjectIdentifier.encode info.algorithm
  return Der.encode sequenceTag
    (Der.encode integerTag [0] ++
      Der.encode sequenceTag (Der.encode identifierTag identifier) ++
      Der.encode octetStringTag (Der.encode octetStringTag info.privateKey))

end PrivateKeyInfo

end SignedHandshake.Der
