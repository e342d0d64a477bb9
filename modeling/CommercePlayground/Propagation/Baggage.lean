/-
CommercePlayground.Propagation.Baggage — the baggage grammars of two services.

`validate_baggage_header` of the shared library, which guards every carrier that
checkout stores or reloads, and `parseBaggage` of the fulfillment service, which
reads the same header from the message. The Rust loops see bytes, the Java ones
UTF-16 units.
-/
import CommercePlayground.Propagation.Tenant
import CommercePlayground.Propagation.Validators

namespace CommercePlayground.Propagation

open Lib

/-- The parts a writer puts together to a member. -/
structure MemberParts where
  key : Text
  encoded : Text
  metadata : Text
  deriving DecidableEq

def MemberParts.text (parts : MemberParts) : Text :=
  parts.key ++ '=' :: parts.encoded ++
    if parts.metadata.isEmpty then [] else ';' :: parts.metadata

def joinMembers (members : List MemberParts) : Text :=
  [','].intercalate (members.map MemberParts.text)

/-- The loop over an encoded value: escapes, and characters of a set between them. -/
def validEscaped (octet : Nat → Bool) : List Nat → Bool
  | [] => true
  | [b] => decide (b ≠ 0x25) && octet b
  | [b, c] => decide (b ≠ 0x25) && octet b && validEscaped octet [c]
  | b :: c :: d :: rest =>
    if b = 0x25 then (hexValue c).isSome && (hexValue d).isSome && validEscaped octet rest
    else octet b && validEscaped octet (c :: d :: rest)

/-! ## The shared library -/

namespace Shared

def maxBaggageHeaderBytes : Nat := 8192

def maxBaggageMembers : Nat := 64

/-- `SAFE_BUSINESS_BAGGAGE_KEYS`. -/
def safeBusinessBaggageKeys : List Text :=
  ["tenant.id".toList, "user.tier".toList, "customer.segment".toList, "region".toList,
    "request.priority".toList, "feature.variant".toList, "session.id".toList,
    "cli.invocation.id".toList]

/-- `is_safe_baggage_entry`. -/
def isSafeBaggageEntry (key value : Text) : Bool :=
  safeBusinessBaggageKeys.contains key &&
    decide ((utf8 value).length ≤ maxBusinessBaggageValueLength) && !value.any isControl

/-- A byte of `valid_baggage_key`. -/
def isTokenByte (byte : Nat) : Bool :=
  isDigit byte || isAsciiAlphabetic byte ||
    [0x21, 0x23, 0x24, 0x25, 0x26, 0x27, 0x2a, 0x2b, 0x2d, 0x2e, 0x5e, 0x5f, 0x60, 0x7c,
      0x7e].contains byte

/-- `valid_baggage_key`. -/
def validBaggageKey (value : Text) : Bool := !value.isEmpty && (utf8 value).all isTokenByte

/-- `is_baggage_octet`. -/
def isBaggageOctet (byte : Nat) : Bool :=
  (decide (byte = 0x21) || decide (0x23 ≤ byte ∧ byte ≤ 0x2b) ||
    decide (0x2d ≤ byte ∧ byte ≤ 0x3a) || decide (0x3c ≤ byte ∧ byte ≤ 0x5b) ||
    decide (0x5d ≤ byte ∧ byte ≤ 0x7e)) && decide (byte ≠ 0x25)

/-- `valid_baggage_value`. -/
def validBaggageValue (value : Text) : Bool := validEscaped isBaggageOctet (utf8 value)

/-- The inner loop of `validate_baggage_header`. -/
def baggageProperties (propertyKeys : List Text) : List Text → Except String Unit
  | [] => .ok ()
  | rawProperty :: rest =>
    let property := trimOws rawProperty
    if property.isEmpty then .error "durable W3C baggage property is invalid"
    else
      let (propertyKey, propertyValue) : Text × Option Text :=
        match splitOnce '=' property with
        | some (key, value) => (trimOws key, some value)
        | none => (trimOws property, none)
      if !validBaggageKey propertyKey || propertyKeys.contains propertyKey then
        .error "durable W3C baggage property is invalid"
      else if propertyValue.any fun value => !validBaggageValue (trimOws value) then
        .error "durable W3C baggage property value is invalid"
      else baggageProperties (propertyKey :: propertyKeys) rest

/-- The loop of `validate_baggage_header`. -/
def baggageMembers (keys : List Text) : List Text → Except String Unit
  | [] => .ok ()
  | rawMember :: rest =>
    let member := trimOws rawMember
    if member.isEmpty then .error "durable W3C baggage member is invalid"
    else
      match splitOnce '=' member with
      | none => .error "durable W3C baggage member is invalid"
      | some (rawKey, rawValue) =>
        let key := trimOws rawKey
        if !validBaggageKey key || keys.contains key then
          .error "durable W3C baggage member is invalid"
        else
          let (value, rawProperties) : Text × Option Text :=
            match splitOnce ';' rawValue with
            | some (value, properties) => (value, some properties)
            | none => (rawValue, none)
          if !validBaggageValue (trimOws value) then .error "durable W3C baggage value is invalid"
          else
            match rawProperties with
            | none => baggageMembers (key :: keys) rest
            | some properties =>
              match baggageProperties [] (properties.splitOn ';') with
              | .error message => .error message
              | .ok () => baggageMembers (key :: keys) rest

/-- `validate_baggage_header`. -/
def validateBaggageHeader (value : Text) : Except String Unit :=
  if value.isEmpty then .error "durable W3C baggage is empty"
  else if maxBaggageHeaderBytes < (utf8 value).length then
    .error "durable W3C baggage exceeds 8192 bytes"
  else if maxBaggageMembers < (value.splitOn ',').length then
    .error "durable W3C baggage exceeds 64 members"
  else baggageMembers [] (value.splitOn ',')

end Shared

/-! ## The fulfillment service -/

namespace FulfillmentService

def maxBaggageHeaderBytes : Nat := 2048

def maxBaggageMembers : Nat := 32

def maxEncodedBaggageValueBytes : Nat := 384

structure BaggageMember where
  key : Text
  decodedValue : Text
  canonicalValue : Text

/-- `validBaggageKeyPart`, on the units. -/
def validBaggageKeyPart (maxLength : Nat) : List Nat → Bool
  | [] => false
  | first :: rest =>
    decide ((first :: rest).length ≤ maxLength) && isLowerAlphaNumeric first &&
      rest.all fun unit =>
        isLowerAlphaNumeric unit || decide (unit = 0x2e) || decide (unit = 0x5f) ||
          decide (unit = 0x2d)

/-- `validBaggageKey`. -/
def validBaggageKey (value : Text) : Bool :=
  match splitOnce '@' value with
  | none => validBaggageKeyPart 256 (utf16 value)
  | some (first, second) =>
    !second.contains '@' && validBaggageKeyPart 256 (utf16 first) &&
      validBaggageKeyPart 14 (utf16 second)

/-- The characters that `validEncodedBaggageValue` allows as they are. -/
def isAllowed (unit : Nat) : Bool :=
  decide (0x21 ≤ unit ∧ unit ≤ 0x2b) || decide (0x2d ≤ unit ∧ unit ≤ 0x3c) ||
    decide (0x3e ≤ unit ∧ unit ≤ 0x7e)

/-- `validEncodedBaggageValue`. -/
def validEncodedBaggageValue (value : Text) : Bool :=
  !value.isEmpty && decide ((utf8 value).length ≤ maxEncodedBaggageValueBytes) &&
    validEscaped isAllowed (utf16 value)

/-- `decodeBaggageValue`, for a value whose escapes are in order; it reports
malformed UTF-8. -/
def decodeBaggageValue (value : Text) : Option Text :=
  (percentDecode (codes value)).bind fromUtf8

/-- One round of the loop over the metadata. -/
def validMetadata (rawMetadata : Text) : Bool :=
  match splitOnce '=' (trimOws rawMetadata) with
  | none => false
  | some (key, value) =>
    !key.isEmpty && !value.isEmpty && validBaggageKey (trimOws key) &&
      validEncodedBaggageValue (trimOws value)

/-- The loop of `parseBaggage`. -/
def baggageMembers (seen : List Text) : List Text → Except String (List BaggageMember)
  | [] => .ok []
  | rawMember :: rest =>
    let member := trimOws rawMember
    match splitOnce '=' member with
    | none => .error "RabbitMQ baggage header has an invalid member"
    | some (rawKey, rawValue) =>
      if isBlank member || rawKey.isEmpty || rawValue.isEmpty then
        .error "RabbitMQ baggage header has an invalid member"
      else
        let key := trimOws rawKey
        let valueAndMetadata := rawValue.splitOn ';'
        let encodedValue := trimOws (valueAndMetadata.headD [])
        if !validBaggageKey key || !validEncodedBaggageValue encodedValue || seen.contains key then
          .error "RabbitMQ baggage header has an invalid member"
        else
          match decodeBaggageValue encodedValue with
          | none => .error "RabbitMQ baggage header has an invalid member"
          | some decodedValue =>
            if valueAndMetadata.tail.all validMetadata then do
              let canonicalValue := key ++ '=' :: encodedValue ++
                (valueAndMetadata.tail.flatMap fun metadata => ';' :: trimOws metadata)
              let members ← baggageMembers (key :: seen) rest
              return ⟨key, decodedValue, canonicalValue⟩ :: members
            else .error "RabbitMQ baggage header has an invalid member"

/-- `parseBaggage`. -/
def parseBaggage (value : Text) : Except String (List BaggageMember) :=
  if maxBaggageHeaderBytes < (utf8 value).length then
    .error "RabbitMQ baggage header is too large"
  else
    let rawMembers := value.splitOn ','
    if rawMembers.isEmpty || decide (maxBaggageMembers < rawMembers.length) then
      .error "RabbitMQ baggage header has invalid members"
    else baggageMembers [] rawMembers

end FulfillmentService

end CommercePlayground.Propagation
