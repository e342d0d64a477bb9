/-
CommercePlayground.Propagation.Web — the trace headers the web front end lets
through.

`validTraceparent`, `validTracestate` and `sanitizeBaggageHeader` of `traceparent.ts`.
A JavaScript string is a text; its `length` and its regular expressions count UTF-16
units, `TextEncoder` counts bytes.
-/
import CommercePlayground.Propagation.Baggage

namespace CommercePlayground.Propagation

open Lib

namespace WebClient

/-- What `String.prototype.trim` strips: white space and line terminators. -/
def isJsSpace (c : Char) : Bool :=
  let n := c.toNat
  decide (0x9 ≤ n ∧ n ≤ 0xd) || decide (n = 0x20) || decide (n = 0xa0) || decide (n = 0x1680) ||
    decide (0x2000 ≤ n ∧ n ≤ 0x200a) || decide (n = 0x2028) || decide (n = 0x2029) ||
    decide (n = 0x202f) || decide (n = 0x205f) || decide (n = 0x3000) || decide (n = 0xfeff)

/-- `String.prototype.trim`. -/
def jsTrim (s : Text) : Text := trimMatches isJsSpace s

/-! ## `traceparent` -/

/-- `TRACEPARENT_PATTERN`: `^00-([0-9a-f]{32})-([0-9a-f]{16})-([0-9a-f]{2})$`. -/
def traceparentPattern : List FulfillmentService.Piece :=
  [.literal [0x30, 0x30, 0x2d], .repeated isHexDigit 32, .literal [0x2d],
    .repeated isHexDigit 16, .literal [0x2d], .repeated isHexDigit 2]

/-- `validTraceparent`. -/
def validTraceparent (value : Text) : Option Text :=
  if value.isEmpty then none
  else if !FulfillmentService.Piece.matches traceparentPattern (utf16 value) then none
  else
    let traceId := ((utf16 value).drop 3).take 32
    let spanId := ((utf16 value).drop 36).take 16
    if traceId.all (fun unit => unit == 0x30) || spanId.all (fun unit => unit == 0x30) then none
    else some value

/-! ## `tracestate` -/

def maxTracestateValueBytes : Nat := 256

/-- A lower-case letter or a digit, then also `_`, `*`, `/` and `-`. -/
def tracestateKeyPart (maxLength : Nat) : List Nat → Bool
  | [] => false
  | first :: units =>
    decide (units.length + 1 ≤ maxLength) && isLowerAlphaNumeric first &&
      units.all fun unit => isLowerAlphaNumeric unit || isKeySymbol unit

/-- `TRACESTATE_VENDOR_KEY_PATTERN`. -/
def vendorKey (key : Text) : Bool :=
  match splitOnce '@' key with
  | none => false
  | some (tenant, system) =>
    tracestateKeyPart 241 (utf16 tenant) && tracestateKeyPart 14 (utf16 system)

/-- `TRACESTATE_VALUE_PATTERN`: at most 256 units, of which the last is no space. -/
def tracestateValue (units : List Nat) : Bool :=
  !units.isEmpty && decide (units.length ≤ 256) && decide (units.getLast? ≠ some 0x20) &&
    units.all fun unit =>
      decide (0x20 ≤ unit ∧ unit ≤ 0x2b) || decide (0x2d ≤ unit ∧ unit ≤ 0x3c) ||
        decide (0x3e ≤ unit ∧ unit ≤ 0x7e)

/-- `validTracestateMember`. -/
def validTracestateMember (member : Text) : Bool :=
  match splitOnce '=' member with
  | none => false
  | some (key, value) =>
    !key.isEmpty && !value.isEmpty &&
      (tracestateKeyPart 256 (utf16 key) || vendorKey key) &&
      decide ((utf8 value).length ≤ maxTracestateValueBytes) && tracestateValue (utf16 value)

/-- `member.slice(0, member.indexOf("="))`. -/
def memberKey (member : Text) : Text := ((splitOnce '=' member).map Prod.fst).getD []

/-- The loop of `validTracestate`. -/
def tracestateMembers (seen : List Text) : List Text → Option (List Text)
  | [] => some []
  | rawMember :: rest =>
    let member := trimOws rawMember
    if member.isEmpty then none
    else if !validTracestateMember member then none
    else if seen.contains (memberKey member) then none
    else (tracestateMembers (memberKey member :: seen) rest).map (member :: ·)

/-- `validTracestate`. -/
def validTracestate (value : Text) : Option Text :=
  if value.isEmpty then none
  else if maxTracestateHeaderBytes < (utf8 value).length then none
  else if maxTracestateMembers < (value.splitOn ',').length then none
  else (tracestateMembers [] (value.splitOn ',')).map [','].intercalate

/-! ## `baggage` -/

def maxBaggageEntries : Nat := 32

def maxBaggageValueLength : Nat := 128

def maxBaggageMetadataLength : Nat := 128

def maxBaggageHeaderLength : Nat := 2048

/-- `SAFE_BAGGAGE_KEYS`. -/
def safeBaggageKeys : List Text :=
  ["tenant.id".toList, "user.tier".toList, "customer.segment".toList, "region".toList,
    "request.priority".toList, "feature.variant".toList, "session.id".toList,
    "cli.invocation.id".toList]

/-- A lower-case letter or a digit, then also `.`, `_` and `-`. -/
def baggageKeyPart (maxLength : Nat) : List Nat → Bool
  | [] => false
  | first :: units =>
    decide (units.length + 1 ≤ maxLength) && isLowerAlphaNumeric first &&
      units.all fun unit =>
        isLowerAlphaNumeric unit || decide (unit = 0x2e ∨ unit = 0x5f ∨ unit = 0x2d)

/-- `BAGGAGE_KEY_PATTERN`. -/
def baggageKeyPattern (key : Text) : Bool :=
  match splitOnce '@' key with
  | none => baggageKeyPart 256 (utf16 key)
  | some (first, second) => baggageKeyPart 256 (utf16 first) && baggageKeyPart 14 (utf16 second)

/-- `validBaggageKey`. -/
def validBaggageKey (key : Text) : Bool := safeBaggageKeys.contains key && baggageKeyPattern key

/-- `[\x21-\x2b\x2d-\x3c\x3e-\x7e]`. -/
def isBaggageUnit (unit : Nat) : Bool :=
  decide (0x21 ≤ unit ∧ unit ≤ 0x2b) || decide (0x2d ≤ unit ∧ unit ≤ 0x3c) ||
    decide (0x3e ≤ unit ∧ unit ≤ 0x7e)

/-- `validBaggageValue`. -/
def validBaggageValue (value : Text) : Bool :=
  !value.isEmpty && decide ((utf16 value).length ≤ maxBaggageValueLength) &&
    (utf16 value).all isBaggageUnit && !value.contains ',' && !value.contains ';' &&
    !value.contains '=' && !value.contains '%' &&
    !(utf16 value).any fun unit => decide (unit < 0x20)

/-- `decodeURIComponent`, of a value that is ASCII. -/
def decodeURIComponent (value : Text) : Option Text := (percentDecode (utf8 value)).bind fromUtf8

/-- `validEncodedBaggageValue`. The percent sign is in the class of
`ENCODED_BAGGAGE_VALUE_PATTERN`, so its second alternative adds nothing. -/
def validEncodedBaggageValue (value : Text) : Bool :=
  !value.isEmpty && decide ((utf16 value).length ≤ maxBaggageValueLength * 3) &&
    (utf16 value).all isBaggageUnit && (decodeURIComponent value).any validBaggageValue

/-- One property of `validBaggageMetadata`. -/
def validProperty (property : Text) : Bool :=
  match splitOnce '=' property with
  | none => false
  | some (key, value) =>
    !key.isEmpty && !value.isEmpty && baggageKeyPattern (jsTrim key) &&
      validEncodedBaggageValue (jsTrim value)

/-- `validBaggageMetadata`. -/
def validBaggageMetadata (value : Text) : Bool :=
  !value.isEmpty && decide ((utf16 value).length ≤ maxBaggageMetadataLength) &&
    (value.splitOn ';').all validProperty

/-- What the loop of `sanitizeBaggageHeader` takes from a member, but for the keys
it has seen. -/
def parseMember (rawMember : Text) : Option MemberParts :=
  match splitOnce '=' (jsTrim rawMember) with
  | none => none
  | some (rawKey, rest) =>
    let key := jsTrim rawKey
    let encodedValue := jsTrim ((rest.splitOn ';').headD [])
    let metadata := jsTrim ([';'].intercalate (rest.splitOn ';').tail)
    if rawKey.isEmpty then none
    else if !validBaggageKey key then none
    else if !validEncodedBaggageValue encodedValue then none
    else if !metadata.isEmpty && !validBaggageMetadata metadata then none
    else some ⟨key, encodedValue, metadata⟩

/-- The loop of `sanitizeBaggageHeader`, with the number of members so far. -/
def sanitizeMembers (count : Nat) (seen : List Text) : List Text → List MemberParts
  | [] => []
  | rawMember :: rest =>
    if maxBaggageEntries ≤ count then []
    else
      match parseMember rawMember with
      | none => sanitizeMembers count seen rest
      | some parts =>
        if seen.contains parts.key then sanitizeMembers count seen rest
        else parts :: sanitizeMembers (count + 1) (parts.key :: seen) rest

/-- `sanitizeBaggageHeader`. -/
def sanitizeBaggageHeader (value : Text) : Option Text :=
  let normalized := jsTrim value
  if normalized.isEmpty then none
  else if maxBaggageHeaderLength < (utf16 normalized).length then none
  else
    let members := sanitizeMembers 0 [] (normalized.splitOn ',')
    if members.isEmpty then none else some (joinMembers members)

end WebClient

end CommercePlayground.Propagation
