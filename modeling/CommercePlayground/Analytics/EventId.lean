/-
CommercePlayground.Analytics.EventId — the id of an analytics row.

Storefront and fulfillment write rows about the same events and let the store drop the
duplicates, so both derive the id of a row from its tenant and key. The storefront stamps
sixteen bytes of a digest, fulfillment packs them into two words first. The digest
function itself is library code and a parameter.
-/
import CommercePlayground.Lib.Bytes
import CommercePlayground.Propagation.Durable

namespace CommercePlayground.Analytics

open Lib Propagation

/-- The thirty-two bytes of a digest. -/
abbrev Digest := Fin 32 → BitVec 8

/-- Five groups, joined by hyphens. -/
def hyphenated (a b c d e : Text) : Text :=
  a ++ '-' :: b ++ '-' :: c ++ '-' :: d ++ '-' :: e

/-! ## The storefront -/

namespace StorefrontService

/-- What `deterministic_event_id` feeds to the digest. -/
def identity (tenantId eventKey : Text) : List Nat :=
  utf8 "parallax.analytics.v1".toList ++ [0] ++ utf8 tenantId ++ [0] ++ utf8 eventKey

def hexBytes (bytes : List (BitVec 8)) : Text := bytes.flatMap fun byte => hexByte false byte.toNat

/-- `Uuid::to_string`, of sixteen bytes. -/
def uuidToString (bytes : List (BitVec 8)) : Text :=
  hyphenated (hexBytes (bytes.take 4)) (hexBytes ((bytes.drop 4).take 2))
    (hexBytes ((bytes.drop 6).take 2)) (hexBytes ((bytes.drop 8).take 2))
    (hexBytes (bytes.drop 10))

/-- `deterministic_event_id`. -/
def deterministicEventId (sha256 : List Nat → Digest) (tenantId eventKey : Text) : Text :=
  let digest := sha256 (identity tenantId eventKey)
  let bytes := (List.finRange 16).map fun i => digest (i.castLE (by decide))
  let bytes := bytes.modify 6 fun byte => (byte &&& 0x0f) ||| 0x50
  let bytes := bytes.modify 8 fun byte => (byte &&& 0x3f) ||| 0x80
  uuidToString bytes

end StorefrontService

/-! ## Fulfillment -/

namespace FulfillmentService

/-- What `deterministicEventId` feeds to the digest. -/
def identity (tenantId eventKey : Text) : List Nat :=
  utf8 ("parallax.analytics.v1".toList ++ Char.ofNat 0 :: tenantId ++ Char.ofNat 0 :: eventKey)

/-- The loop: bytes are signed, and `0xffL` takes back their sign. -/
def packed (digest : Digest) : BitVec 64 × BitVec 64 :=
  (List.finRange 8).foldl
    (fun bits index =>
      ((bits.1 <<< 8) ||| ((digest (index.castLE (by decide))).signExtend 64 &&& 0xff),
        (bits.2 <<< 8) ||| ((digest ((index.addNat 8).castLE (by decide))).signExtend 64 &&& 0xff)))
    (0, 0)

/-- The last digits of a word. -/
def digits (bits : BitVec 64) (count : Nat) : Text :=
  (List.range count).reverse.map fun i => hexDigit false ((bits >>> (4 * i)) &&& 0xf).toNat

/-- `UUID.toString`. -/
def uuidToString (mostSignificantBits leastSignificantBits : BitVec 64) : Text :=
  hyphenated (digits (mostSignificantBits >>> 32) 8) (digits (mostSignificantBits >>> 16) 4)
    (digits mostSignificantBits 4) (digits (leastSignificantBits >>> 48) 4)
    (digits leastSignificantBits 12)

/-- `deterministicEventId`. -/
def deterministicEventId (sha256 : List Nat → Digest) (tenantId eventKey : Text) : Text :=
  let digest := sha256 (identity tenantId eventKey)
  let bits := packed digest
  uuidToString ((bits.1 &&& 0xffffffffffff0fff) ||| 0x5000)
    ((bits.2 &&& 0x3fffffffffffffff) ||| 0x8000000000000000)

end FulfillmentService

/-! ## What an id is -/

def isLowerHex (c : Char) : Bool := c.isDigit || ['a', 'b', 'c', 'd', 'e', 'f'].contains c

/-- The text of a UUID of version 5 and the variant of the standard. -/
def IsVersion5 (text : Text) : Prop :=
  ∃ a b c d e, text = hyphenated a b c d e ∧
    [a, b, c, d, e].map List.length = [8, 4, 4, 4, 12] ∧
    (∀ x ∈ a ++ b ++ c ++ d ++ e, isLowerHex x = true) ∧
    c.head? = some '5' ∧ ∃ variant ∈ ['8', '9', 'a', 'b'], d.head? = some variant

/-- The sixteen bytes with version and variant. -/
def stamped (digest : Digest) : List (BitVec 8) :=
  [digest 0, digest 1, digest 2, digest 3, digest 4, digest 5, (digest 6 &&& 0x0f) ||| 0x50,
    digest 7, (digest 8 &&& 0x3f) ||| 0x80, digest 9, digest 10, digest 11, digest 12, digest 13,
    digest 14, digest 15]

/-- The bits of a digest that the stamps leave alone, of its first sixteen bytes. -/
def freeBits (digest : Digest) : BitVec 122 :=
  digest 0 ++ digest 1 ++ digest 2 ++ digest 3 ++ digest 4 ++ digest 5 ++
    (digest 6).setWidth 4 ++ digest 7 ++ (digest 8).setWidth 6 ++ digest 9 ++ digest 10 ++
    digest 11 ++ digest 12 ++ digest 13 ++ digest 14 ++ digest 15

end CommercePlayground.Analytics
