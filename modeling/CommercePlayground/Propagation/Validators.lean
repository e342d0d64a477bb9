/-
CommercePlayground.Propagation.Validators — the three W3C trace-context
validators.

`validate_traceparent_header` and `validate_tracestate_header` of the shared
library, `validate_traceparent` and `validate_tracestate` of the orders service,
`validateTraceparent` and `validateTracestate` of the fulfillment service. The
Rust ones see the bytes of a text, the Java ones its UTF-16 units.
-/
import CommercePlayground.Lib.Text

namespace CommercePlayground.Propagation

open Lib

/-! ## Characters -/

/-- `is_ascii_digit`. -/
def isDigit (n : Nat) : Bool := decide (0x30 ≤ n ∧ n ≤ 0x39)

/-- `is_ascii_lowercase`. -/
def isLowercase (n : Nat) : Bool := decide (0x61 ≤ n ∧ n ≤ 0x7a)

/-- A digit of `[0-9a-f]`. -/
def isHexDigit (n : Nat) : Bool := isDigit n || decide (0x61 ≤ n ∧ n ≤ 0x66)

def isLowerAlphaNumeric (n : Nat) : Bool := isLowercase n || isDigit n

/-- `_`, `-`, `*` and `/`. -/
def isKeySymbol (n : Nat) : Bool :=
  decide (n = 0x5f ∨ n = 0x2d ∨ n = 0x2a ∨ n = 0x2f)

def isOws (c : Char) : Bool := decide (c = ' ' ∨ c = '\t')

/-- `trim_ows` and `trimOws`. -/
def trimOws (value : Text) : Text := trimMatches isOws value

def maxTracestateHeaderBytes : Nat := 512

def maxTracestateMembers : Nat := 32

def maxTracestateMemberBytes : Nat := 256

/-! ## The shared library -/

namespace Shared

def maxTraceparentHeaderBytes : Nat := 55

/-- `is_lower_hex`. -/
def isLowerHex (value : Text) (length : Nat) : Bool :=
  decide ((utf8 value).length = length) && (utf8 value).all isHexDigit

/-- `all_zero_hex`. -/
def allZeroHex (value : Text) : Bool := (utf8 value).all fun byte => byte == 0x30

/-- `validate_traceparent_header`. -/
def validateTraceparentHeader (value : Text) : Except String Unit :=
  match value.splitOn '-' with
  | [version, traceId, parentId, flags] =>
    if (utf8 value).length ≠ maxTraceparentHeaderBytes || version ≠ ['0', '0'] ||
        !isLowerHex traceId 32 || allZeroHex traceId ||
        !isLowerHex parentId 16 || allZeroHex parentId || !isLowerHex flags 2 then
      .error "durable W3C traceparent is invalid"
    else .ok ()
  | _ => .error "durable W3C traceparent is invalid"

/-- `valid_tracestate_key_part`, on the bytes. -/
def validKeyPart (maxLength : Nat) (bytes : List Nat) : Bool :=
  !bytes.isEmpty && decide (bytes.length ≤ maxLength) &&
    bytes.zipIdx.all fun (byte, index) =>
      (isLowercase byte || isDigit byte || isKeySymbol byte) &&
        (decide (0 < index) || isLowercase byte || isDigit byte)

/-- `valid_tracestate_key`. -/
def validTracestateKey (value : Text) : Bool :=
  match value.splitOn '@' with
  | [first] => validKeyPart 256 (utf8 first)
  | [first, second] => validKeyPart 241 (utf8 first) && validKeyPart 14 (utf8 second)
  | _ => false

/-- `valid_tracestate_value`. -/
def validTracestateValue (value : Text) : Bool :=
  !(value.getLast?.any isOws) &&
    (utf8 value).all fun byte =>
      decide (0x20 ≤ byte ∧ byte ≤ 0x7e) && !decide (byte = 0x2c ∨ byte = 0x3d)

/-- The loop of `validate_tracestate_header`. -/
def tracestateMembers (keys : List Text) (memberCount : Nat) :
    List Text → Except String Unit
  | [] =>
    if memberCount = 0 then .error "durable W3C tracestate has no members" else .ok ()
  | rawMember :: rest =>
    let member := trimOws rawMember
    if member.isEmpty then .error "durable W3C tracestate member is invalid"
    else if maxTracestateMembers < memberCount + 1 then
      .error "durable W3C tracestate has invalid members"
    else
      match splitOnce '=' member with
      | none => .error "durable W3C tracestate member is invalid"
      | some (key, memberValue) =>
        if member.isEmpty || decide (maxTracestateMemberBytes < (utf8 member).length) ||
            !validTracestateKey key || memberValue.isEmpty ||
            decide (maxTracestateMemberBytes < (utf8 memberValue).length) ||
            !validTracestateValue memberValue || keys.contains key then
          .error "durable W3C tracestate member is invalid"
        else tracestateMembers (key :: keys) (memberCount + 1) rest

/-- `validate_tracestate_header`. -/
def validateTracestateHeader (value : Text) : Except String Unit :=
  if maxTracestateHeaderBytes < (utf8 value).length then
    .error "durable W3C tracestate exceeds 512 bytes"
  else tracestateMembers [] 0 (value.splitOn ',')

end Shared

/-! ## The orders service -/

namespace OrdersService

/-- The check of `validate_traceparent`, on the bytes. -/
def isTraceparent (bytes : List Nat) : Bool :=
  !(decide (bytes.length ≠ 55) || decide (bytes.take 3 ≠ [0x30, 0x30, 0x2d]) ||
      decide (bytes[35]? ≠ some 0x2d) || decide (bytes[52]? ≠ some 0x2d)) &&
    !(!((bytes.drop 3).take 32).all isHexDigit || !((bytes.drop 36).take 16).all isHexDigit ||
      !((bytes.drop 53).take 2).all isHexDigit ||
      ((bytes.drop 3).take 32).all (fun byte => byte == 0x30) ||
      ((bytes.drop 36).take 16).all (fun byte => byte == 0x30))

/-- `validate_traceparent`. -/
def validateTraceparent (value : Text) : Except String Unit :=
  if isTraceparent (utf8 value) then .ok ()
  else .error "RabbitMQ traceparent header is invalid"

/-- `valid_tracestate_key_part`, on the bytes. -/
def validKeyPart (maxLength : Nat) (bytes : List Nat) : Bool :=
  !bytes.isEmpty && decide (bytes.length ≤ maxLength) && bytes.head?.any isLowerAlphaNumeric &&
    (bytes.drop 1).all fun byte => isLowerAlphaNumeric byte || isKeySymbol byte

/-- `valid_tracestate_key`. -/
def validTracestateKey (value : Text) : Bool :=
  match value.splitOn '@' with
  | [first] => validKeyPart 256 (utf8 first)
  | [first, second] => validKeyPart 241 (utf8 first) && validKeyPart 14 (utf8 second)
  | _ => false

/-- `valid_tracestate_value`. -/
def validTracestateValue (value : Text) : Bool :=
  !(utf8 value).isEmpty && decide ((utf8 value).getLast? ≠ some 0x20) &&
    (utf8 value).all fun byte =>
      decide (0x20 ≤ byte ∧ byte ≤ 0x2b) || decide (0x2d ≤ byte ∧ byte ≤ 0x3c) ||
        decide (0x3e ≤ byte ∧ byte ≤ 0x7e)

/-- The loop of `validate_tracestate`. -/
def tracestateMembers (seen : List Text) : List Text → Except String Unit
  | [] => .ok ()
  | rawMember :: rest =>
    let member := trimOws rawMember
    match splitOnce '=' member with
    | none => .error "RabbitMQ tracestate header has an invalid member"
    | some (key, memberValue) =>
      if member.isEmpty || key.isEmpty || memberValue.isEmpty || memberValue.contains '=' ||
          decide (maxTracestateMemberBytes < (utf8 member).length) ||
          !validTracestateKey key ||
          decide (maxTracestateMemberBytes < (utf8 memberValue).length) ||
          !validTracestateValue memberValue || seen.any (fun known => known == key) then
        .error "RabbitMQ tracestate header has an invalid member"
      else tracestateMembers (seen ++ [key]) rest

/-- `validate_tracestate`. -/
def validateTracestate (value : Text) : Except String Unit :=
  if maxTracestateHeaderBytes < (utf8 value).length then
    .error "RabbitMQ tracestate header is too large"
  else
    let members := value.splitOn ','
    if members.isEmpty || decide (maxTracestateMembers < members.length) then
      .error "RabbitMQ tracestate header has invalid members"
    else tracestateMembers [] members

end OrdersService

/-! ## The fulfillment service -/

namespace FulfillmentService

/-- A piece of a regular expression: a literal, or a class with a number. -/
inductive Piece where
  | literal (units : List Nat)
  | repeated (members : Nat → Bool) (times : Nat)

/-- `Matcher.matches`, for pieces of one length each. -/
def Piece.matches : List Piece → List Nat → Bool
  | [], units => units.isEmpty
  | .literal text :: rest, units =>
    decide (units.take text.length = text) && Piece.matches rest (units.drop text.length)
  | .repeated members times :: rest, units =>
    decide ((units.take times).length = times) && (units.take times).all members &&
      Piece.matches rest (units.drop times)

/-- `TRACEPARENT_PATTERN`: `00-[0-9a-f]{32}-[0-9a-f]{16}-[0-9a-f]{2}`. -/
def traceparentPattern : List Piece :=
  [.literal [0x30, 0x30, 0x2d], .repeated isHexDigit 32, .literal [0x2d],
    .repeated isHexDigit 16, .literal [0x2d], .repeated isHexDigit 2]

/-- The check of `validateTraceparent`, on the units. -/
def isTraceparent (units : List Nat) : Bool :=
  !(!Piece.matches traceparentPattern units ||
    ((units.drop 3).take 32).all (fun unit => unit == 0x30) ||
    ((units.drop 36).take 16).all (fun unit => unit == 0x30))

/-- `validateTraceparent`. -/
def validateTraceparent (value : Text) : Except String Unit :=
  if isTraceparent (utf16 value) then .ok ()
  else .error "RabbitMQ traceparent header is invalid"

/-- `validKeyPart` with `allowDot` false, on the units. -/
def validKeyPart (maxLength : Nat) : List Nat → Bool
  | [] => false
  | first :: units =>
    decide (units.length + 1 ≤ maxLength) && isLowerAlphaNumeric first &&
      units.all fun character => isLowerAlphaNumeric character || isKeySymbol character

/-- `validTracestateKey`. -/
def validTracestateKey (value : Text) : Bool :=
  match splitOnce '@' value with
  | none => validKeyPart 256 (utf16 value)
  | some (first, second) =>
    -- `separator == value.lastIndexOf('@')`
    !second.contains '@' && validKeyPart 241 (utf16 first) && validKeyPart 14 (utf16 second)

/-- The loop of `validTracestateValue`, on the units. -/
def validValueUnits : List Nat → Bool
  | [] => true
  | character :: rest =>
    (decide (0x20 ≤ character ∧ character ≤ 0x2b) ||
        decide (0x2d ≤ character ∧ character ≤ 0x3c) ||
        decide (0x3e ≤ character ∧ character ≤ 0x7e)) &&
      !(rest.isEmpty && decide (character = 0x20)) && validValueUnits rest

/-- `validTracestateValue`. -/
def validTracestateValue (value : Text) : Bool :=
  validValueUnits (utf16 value) && !(utf16 value).isEmpty

/-- The loop of `validateTracestate`. -/
def tracestateMembers (seen : List Text) : List Text → Except String Unit
  | [] => .ok ()
  | rawMember :: rest =>
    let member := trimOws rawMember
    match splitOnce '=' member with
    | none => .error "RabbitMQ tracestate header has an invalid member"
    | some (key, memberValue) =>
      -- the separator is neither first nor last, and there is no other
      if key.isEmpty || memberValue.isEmpty || memberValue.contains '=' then
        .error "RabbitMQ tracestate header has an invalid member"
      else if decide (maxTracestateMemberBytes < (utf8 member).length) ||
          !validTracestateKey key ||
          decide (maxTracestateMemberBytes < (utf8 memberValue).length) ||
          !validTracestateValue memberValue || seen.contains key then
        .error "RabbitMQ tracestate header has an invalid member"
      else tracestateMembers (key :: seen) rest

/-- `validateTracestate`. -/
def validateTracestate (value : Text) : Except String Unit :=
  if maxTracestateHeaderBytes < (utf8 value).length then
    .error "RabbitMQ tracestate header is too large"
  else
    let rawMembers := value.splitOn ','
    if decide (rawMembers.length = 0) || decide (maxTracestateMembers < rawMembers.length) then
      .error "RabbitMQ tracestate header has invalid members"
    else tracestateMembers [] rawMembers

end FulfillmentService

end CommercePlayground.Propagation
