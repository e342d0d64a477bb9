/-
CommercePlayground.Otlp.Reader — OTLP messages, as a collector reads them.

The messages of opentelemetry-proto that the writer emits, with the field numbers
its comments name, and a decoder for each over the wire format of `Lib.Wire`. A
field that is missing has its protobuf default, an unknown field is skipped, and an
enumeration is its number. This is the specification that the writer is compared
with, not code of the app.
-/
import CommercePlayground.Lib.Wire
import CommercePlayground.Otlp.Writer

namespace CommercePlayground.Otlp

open Lib.Wire

/-! ## Common -/

inductive AnyValue where
  | unset
  | string (value : String)
  | int (value : Int64)

structure KeyValue where
  key : String
  value : AnyValue

def AnyValue.decode (fields : List Field) : Option AnyValue :=
  let member := oneof [(1, 2), (3, 0)] fields
  match member.head? with
  | none => some .unset
  | some f =>
    if f.number = 1 then (stringField 1 member).map .string
    else some (.int (varintField 3 member).toInt64)

def KeyValue.decode (fields : List Field) : Option KeyValue := do
  let key ← stringField 1 fields
  let value ← messageField AnyValue.decode 2 fields
  some ⟨key, value⟩

structure Scope where
  name : String
  version : String

def Scope.decode (fields : List Field) : Option Scope := do
  let name ← stringField 1 fields
  let version ← stringField 2 fields
  some ⟨name, version⟩

/-- `ScopeSpans`, `ScopeLogs` and `ScopeMetrics`. -/
structure ScopeItems (α : Type) where
  scope : Scope
  items : List α

/-- `ResourceSpans`, `ResourceLogs` and `ResourceMetrics`. -/
structure ResourceItems (α : Type) where
  resource : List KeyValue
  scopes : List (ScopeItems α)

def ScopeItems.decode {α : Type} (item : List Field → Option α) (fields : List Field) :
    Option (ScopeItems α) := do
  let scope ← messageField Scope.decode 1 fields
  let items ← repeatedField item 2 fields
  some ⟨scope, items⟩

def ResourceItems.decode {α : Type} (item : List Field → Option α) (fields : List Field) :
    Option (ResourceItems α) := do
  let resource ← messageField (repeatedField KeyValue.decode 1) 1 fields
  let scopes ← repeatedField (ScopeItems.decode item) 2 fields
  some ⟨resource, scopes⟩

/-- `TracesData`, `LogsData` and `MetricsData`. -/
def decodeData {α : Type} (item : List Field → Option α) (bytes : Bytes) :
    Option (List (ResourceItems α)) :=
  (decode bytes).bind (repeatedField (ResourceItems.decode item) 1)

/-! ## Traces -/

structure Event where
  timeUnixNano : UInt64
  name : String
  attributes : List KeyValue

def Event.decode (fields : List Field) : Option Event := do
  let name ← stringField 2 fields
  let attributes ← repeatedField KeyValue.decode 3 fields
  some ⟨fixed64Field 1 fields, name, attributes⟩

structure Link where
  traceId : Bytes
  spanId : Bytes
  attributes : List KeyValue

def Link.decode (fields : List Field) : Option Link := do
  let attributes ← repeatedField KeyValue.decode 4 fields
  some ⟨bytesField 1 fields, bytesField 2 fields, attributes⟩

structure Status where
  message : String
  code : Nat

def Status.decode (fields : List Field) : Option Status := do
  let message ← stringField 2 fields
  some ⟨message, (varintField 3 fields).toNat⟩

structure Span where
  traceId : Bytes
  spanId : Bytes
  parentSpanId : Bytes
  name : String
  kind : Nat
  startTimeUnixNano : UInt64
  endTimeUnixNano : UInt64
  attributes : List KeyValue
  events : List Event
  links : List Link
  status : Status

def Span.decode (fields : List Field) : Option Span := do
  let name ← stringField 5 fields
  let attributes ← repeatedField KeyValue.decode 9 fields
  let events ← repeatedField Event.decode 11 fields
  let links ← repeatedField Link.decode 13 fields
  let status ← messageField Status.decode 15 fields
  some ⟨bytesField 1 fields, bytesField 2 fields, bytesField 4 fields, name,
    (varintField 6 fields).toNat, fixed64Field 7 fields, fixed64Field 8 fields,
    attributes, events, links, status⟩

/-! ## Logs -/

structure LogRecord where
  timeUnixNano : UInt64
  observedTimeUnixNano : UInt64
  severityNumber : Nat
  severityText : String
  body : AnyValue
  attributes : List KeyValue
  traceId : Bytes
  spanId : Bytes

def LogRecord.decode (fields : List Field) : Option LogRecord := do
  let severityText ← stringField 3 fields
  let body ← messageField AnyValue.decode 5 fields
  let attributes ← repeatedField KeyValue.decode 6 fields
  some ⟨fixed64Field 1 fields, fixed64Field 11 fields, (varintField 2 fields).toNat,
    severityText, body, attributes, bytesField 9 fields, bytesField 10 fields⟩

/-! ## Metrics -/

structure Exemplar where
  filteredAttributes : List KeyValue
  timeUnixNano : UInt64
  asDouble : Option Double
  spanId : Bytes
  traceId : Bytes

def Exemplar.decode (fields : List Field) : Option Exemplar := do
  let filteredAttributes ← repeatedField KeyValue.decode 7 fields
  some ⟨filteredAttributes, fixed64Field 2 fields, optionalFixed64 3 fields,
    bytesField 4 fields, bytesField 5 fields⟩

structure NumberDataPoint where
  attributes : List KeyValue
  startTimeUnixNano : UInt64
  timeUnixNano : UInt64
  asDouble : Option Double
  exemplars : List Exemplar

def NumberDataPoint.decode (fields : List Field) : Option NumberDataPoint := do
  let attributes ← repeatedField KeyValue.decode 7 fields
  let exemplars ← repeatedField Exemplar.decode 5 fields
  some ⟨attributes, fixed64Field 2 fields, fixed64Field 3 fields, optionalFixed64 4 fields,
    exemplars⟩

structure HistogramDataPoint where
  attributes : List KeyValue
  startTimeUnixNano : UInt64
  timeUnixNano : UInt64
  count : UInt64
  sum : Option Double
  bucketCounts : List UInt64
  explicitBounds : List Double
  exemplars : List Exemplar

def HistogramDataPoint.decode (fields : List Field) : Option HistogramDataPoint := do
  let attributes ← repeatedField KeyValue.decode 9 fields
  let bucketCounts ← fixed64sField 6 fields
  let explicitBounds ← fixed64sField 7 fields
  let exemplars ← repeatedField Exemplar.decode 8 fields
  some ⟨attributes, fixed64Field 2 fields, fixed64Field 3 fields, fixed64Field 4 fields,
    optionalFixed64 5 fields, bucketCounts, explicitBounds, exemplars⟩

/-- The data of a metric, with its aggregation temporality. -/
inductive MetricData where
  | unset
  | sum (points : List NumberDataPoint) (temporality : Nat) (monotonic : Bool)
  | histogram (points : List HistogramDataPoint) (temporality : Nat)

def MetricData.decodeSum (fields : List Field) : Option MetricData := do
  let points ← repeatedField NumberDataPoint.decode 1 fields
  some (.sum points (varintField 2 fields).toNat (varintField 3 fields != 0))

def MetricData.decodeHistogram (fields : List Field) : Option MetricData := do
  let points ← repeatedField HistogramDataPoint.decode 1 fields
  some (.histogram points (varintField 2 fields).toNat)

def MetricData.decode (fields : List Field) : Option MetricData :=
  let member := oneof [(7, 2), (9, 2)] fields
  match member.head? with
  | none => some .unset
  | some f =>
    if f.number = 7 then messageField decodeSum 7 member
    else messageField decodeHistogram 9 member

structure Metric where
  name : String
  description : String
  unit : String
  data : MetricData

def Metric.decode (fields : List Field) : Option Metric := do
  let name ← stringField 1 fields
  let description ← stringField 2 fields
  let unit ← stringField 3 fields
  let data ← MetricData.decode fields
  some ⟨name, description, unit, data⟩

end CommercePlayground.Otlp
