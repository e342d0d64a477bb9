/-
CommercePlayground.Propagation.Durable — a context written for storage.

`inject_durable_context_headers` writes the span and the sanitized baggage of a
context as W3C headers and then holds the result against the validators;
`stored_propagation` of checkout turns a failure into an error of the request. The
propagators themselves are library code. The one for baggage writes an entry as
`key=value[;metadata]`: it escapes control characters, space, `"`, `;`, `,`, `=` and
everything beyond ASCII in the value, and nothing in the metadata.
-/
import CommercePlayground.Propagation.Baggage

namespace CommercePlayground.Propagation

open Lib

/-! ## Contexts -/

structure SpanContext where
  traceId : List Nat
  spanId : List Nat
  sampled : Bool
  /-- `trace_state().header()` -/
  traceState : Text
  traceIdLength : traceId.length = 16
  traceIdBytes : ∀ byte ∈ traceId, byte < 256
  spanIdLength : spanId.length = 8
  spanIdBytes : ∀ byte ∈ spanId, byte < 256

/-- `SpanContext::is_valid`. -/
def SpanContext.isValid (span : SpanContext) : Bool :=
  span.traceId.any (fun byte => decide (byte ≠ 0)) &&
    span.spanId.any fun byte => decide (byte ≠ 0)

structure BaggageEntry where
  key : Text
  value : Text
  metadata : Text
  deriving DecidableEq

/-- A map from keys, in the order of some iteration. -/
structure ContextBaggage where
  entries : List BaggageEntry
  distinct : (entries.map BaggageEntry.key).Nodup

structure Context where
  span : SpanContext
  baggage : ContextBaggage

/-- `clone_baggage`. -/
def cloneBaggage (baggage : ContextBaggage) : ContextBaggage where
  entries := baggage.entries.filter fun entry => Shared.isSafeBaggageEntry entry.key entry.value
  distinct := baggage.distinct.sublist (List.filter_sublist.map BaggageEntry.key)

/-- `with_safe_baggage`. -/
def withSafeBaggage (context : Context) : Context :=
  { context with baggage := cloneBaggage context.baggage }

/-! ## The propagators -/

/-- The headers of a carrier, each with all its values. -/
structure Carrier where
  traceparent : List Text
  tracestate : List Text
  baggage : List Text

/-- What a header value may hold: no control character but the tab. -/
def isHeaderChar (c : Char) : Bool :=
  decide (0x20 ≤ c.toNat ∧ c.toNat ≠ 0x7f) || decide (c = '\t')

/-- `HeaderValue::from_str`, as `HeaderInjector::set` uses it: what it refuses is not
set. -/
def headerValue (value : Text) : List Text := if value.all isHeaderChar then [value] else []

def hexDigit (upper : Bool) (n : Nat) : Char :=
  Char.ofNat (if n < 10 then 0x30 + n else (if upper then 0x41 else 0x61) + (n - 10))

/-- The two digits of a byte. -/
def hexByte (upper : Bool) (byte : Nat) : Text :=
  [hexDigit upper (byte / 16), hexDigit upper (byte % 16)]

def formatTraceparent (span : SpanContext) : Text :=
  "00-".toList ++ span.traceId.flatMap (hexByte false) ++ '-' ::
    span.spanId.flatMap (hexByte false) ++ "-0".toList ++ [if span.sampled then '1' else '0']

/-- What the baggage propagator leaves as it is. -/
def isVerbatim (c : Char) : Bool :=
  decide (0x21 ≤ c.toNat ∧ c.toNat ≤ 0x7e) &&
    !(['"', ';', ',', '='].contains c)

/-- The escapes of one character. -/
def escapeChar (c : Char) : Text := (utf8Char c).flatMap fun byte => '%' :: hexByte true byte

def writeValue (value : Text) : Text :=
  value.flatMap fun c => if isVerbatim c then [c] else escapeChar c

def writeEntry (entry : BaggageEntry) : Text :=
  entry.key ++ '=' :: writeValue entry.value ++
    if entry.metadata.isEmpty then [] else ';' :: entry.metadata

def writeBaggage (baggage : ContextBaggage) : Text :=
  [','].intercalate (baggage.entries.map writeEntry)

/-- `inject_context` of both propagators. -/
def injectContext (context : Context) : Carrier where
  traceparent :=
    if context.span.isValid then headerValue (formatTraceparent context.span) else []
  tracestate := if context.span.isValid then headerValue context.span.traceState else []
  baggage :=
    if context.baggage.entries.isEmpty then [] else headerValue (writeBaggage context.baggage)

/-- One member of a baggage header, read: its key and its value. -/
def readMember (member : Text) : Option (Text × Text) :=
  match splitOnce '=' (trimOws member) with
  | none => none
  | some (key, rawValue) =>
    ((percentDecode (utf8 (trimOws ((rawValue.splitOn ';').headD [])))).bind fromUtf8).map
      fun value => (trimOws key, value)

/-- The keys and values of a baggage header. -/
def readBaggage (header : Text) : Option (List (Text × Text)) :=
  (header.splitOn ',').mapM readMember

/-! ## The shared library -/

namespace Shared

def defaultTracestate : Text := "playground=commerce".toList

/-- `add_default_tracestate_header`. -/
def addDefaultTracestateHeader (carrier : Carrier) : Carrier :=
  if carrier.traceparent.head?.any (fun value => !value.isEmpty) &&
      carrier.tracestate.head?.all List.isEmpty then
    { carrier with tracestate := [defaultTracestate] }
  else carrier

/-- `inject_context_headers`. -/
def injectContextHeaders (context : Context) : Carrier :=
  addDefaultTracestateHeader (injectContext (withSafeBaggage context))

/-- The values of a header, as strings. -/
def headerTexts (name : String) (values : List Text) : Except String (List Text) :=
  match values.mapM toStr with
  | .ok values => .ok values
  | .error _ => .error ("durable W3C " ++ name ++ " header is not valid ASCII")

/-- `single_header`. -/
def singleHeader (name : String) (values : List Text) : Except String (Option Text) := do
  match ← headerTexts name values with
  | [] => return none
  | [value] =>
    if value.isEmpty then .error ("durable W3C " ++ name ++ " header is empty")
    else return some value
  | _ => .error ("durable W3C " ++ name ++ " header is duplicated")

/-- `joined_header`. -/
def joinedHeader (name : String) (values : List Text) : Except String (Option Text) := do
  let values ← headerTexts name values
  if values.isEmpty then return none
  else if values.any List.isEmpty then .error ("durable W3C " ++ name ++ " header is empty")
  else return some ([','].intercalate values)

/-- `ok_or_else`, for a header that must be there. -/
def required (name : String) : Option Text → Except String Text
  | some value => .ok value
  | none => .error ("durable W3C carrier is missing " ++ name)

/-- `validate_durable_context`. -/
def validateDurableContext (carrier : Carrier) : Except String Unit := do
  let traceparent ← required "traceparent" (← singleHeader "traceparent" carrier.traceparent)
  let tracestate ← required "tracestate" (← singleHeader "tracestate" carrier.tracestate)
  let baggage ← required "baggage" (← joinedHeader "baggage" carrier.baggage)
  validateTraceparentHeader traceparent
  validateTracestateHeader tracestate
  validateBaggageHeader baggage

/-- `inject_durable_context_headers`. -/
def injectDurableContextHeaders (context : Context) : Except String Carrier := do
  let carrier := injectContextHeaders context
  validateDurableContext carrier
  return carrier

end Shared

/-! ## Checkout -/

/-- An error of the request: the status is 500. -/
structure PropagationError where
  code : String
  message : String

/-- `stored_propagation`. -/
def storedPropagation (context : Context) : Except PropagationError (Text × Text × Text) :=
  match Shared.injectDurableContextHeaders context with
  | .error message => .error ⟨"propagation_persistence_invalid",
      "generated durable W3C carrier is invalid: " ++ message⟩
  | .ok carrier => do
    let header (name : String) (values : List Text) : Except PropagationError Text :=
      match values.head?.bind fun value => (Shared.toStr value).toOption with
      | some value => .ok value
      | none => .error ⟨"propagation_persistence_invalid",
          "generated durable W3C carrier is missing " ++ name⟩
    return (← header "traceparent" carrier.traceparent, ← header "tracestate" carrier.tracestate,
      ← header "baggage" carrier.baggage)

end CommercePlayground.Propagation
