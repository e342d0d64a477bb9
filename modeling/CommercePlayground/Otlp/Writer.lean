/-
CommercePlayground.Otlp.Writer — the OTLP writer of the macOS app.

`ProtoWriter` and the builders of `OtlpProto.swift`. A `Data` is a list of bytes,
a `Double` its 64-bit pattern, and an `Int` that is never negative (`UInt64(_:)`
stops the app on a negative one) a number below 2 ^ 63. A closure that fills a
nested message is a function from writer to writer.
-/
import CommercePlayground.Lib.Wire

namespace CommercePlayground.Otlp

open Lib.Wire (Bytes textBytes)

/-- A Swift `Int` that is not negative. -/
abbrev NonNegative := Fin (2 ^ 63)

/-- The 64-bit pattern of a `Double`. -/
abbrev Double := UInt64

/-! ## ProtoWriter -/

structure ProtoWriter where
  bytes : Bytes

namespace ProtoWriter

/-- The `repeat` loop of `varint`, `tag` and `appendLenDelimited`. -/
def appendVarint (bytes : Bytes) (v : UInt64) : Bytes :=
  let b := (v &&& 0x7F).toUInt8
  let next := v >>> 7
  if _h : next ≠ 0 then appendVarint (bytes ++ [b ||| 0x80]) next else bytes ++ [b]
termination_by v.toNat
decreasing_by
  have hnext : (v >>> 7).toNat = v.toNat / 128 := by
    rw [UInt64.toNat_shiftRight]
    exact Nat.shiftRight_eq_div_pow _ 7
  have hpos : (v >>> 7).toNat ≠ 0 := fun h0 => _h (UInt64.toNat_inj.mp h0)
  show (v >>> 7).toNat < v.toNat
  omega

/-- `tag`. -/
def tag (w : ProtoWriter) (field wire : Nat) : ProtoWriter :=
  ⟨appendVarint w.bytes (UInt64.ofNat (field <<< 3 ||| wire))⟩

/-- `appendLenDelimited`. -/
def appendLenDelimited (w : ProtoWriter) (value : Bytes) : ProtoWriter :=
  ⟨appendVarint w.bytes (UInt64.ofNat value.length) ++ value⟩

/-- `varint`. -/
def varint (w : ProtoWriter) (field : Nat) (value : UInt64) : ProtoWriter :=
  ⟨appendVarint (w.tag field 0).bytes value⟩

/-- The bytes of `value.littleEndian` in memory. -/
def littleEndian (value : UInt64) : Bytes :=
  [value.toUInt8, (value >>> 8).toUInt8, (value >>> 16).toUInt8, (value >>> 24).toUInt8,
    (value >>> 32).toUInt8, (value >>> 40).toUInt8, (value >>> 48).toUInt8,
    (value >>> 56).toUInt8]

/-- `fixed64`. -/
def fixed64 (w : ProtoWriter) (field : Nat) (value : UInt64) : ProtoWriter :=
  ⟨(w.tag field 1).bytes ++ littleEndian value⟩

/-- `double`. -/
def double (w : ProtoWriter) (field : Nat) (value : Double) : ProtoWriter :=
  w.fixed64 field value

/-- `rawBytes`. -/
def rawBytes (w : ProtoWriter) (field : Nat) (value : Bytes) : ProtoWriter :=
  (w.tag field 2).appendLenDelimited value

/-- `string`. -/
def string (w : ProtoWriter) (field : Nat) (value : String) : ProtoWriter :=
  w.rawBytes field (textBytes value)

/-- `message`. -/
def message (w : ProtoWriter) (field : Nat) (build : ProtoWriter → ProtoWriter) : ProtoWriter :=
  w.rawBytes field (build ⟨[]⟩).bytes

/-- `for item in items`, with a body that writes. -/
def forEach {α : Type} (w : ProtoWriter) (items : List α)
    (body : ProtoWriter → α → ProtoWriter) : ProtoWriter :=
  items.foldl body w

end ProtoWriter

/-! ## OTLP common -/

/-- `writeIntAttr`. -/
def writeIntAttr (w : ProtoWriter) (field : Nat) (key : String) (value : Int64) : ProtoWriter :=
  w.message field fun kv =>
    (kv.string 1 key).message 2 fun v => v.varint 3 value.toUInt64

/-- `writeStringAttr`. -/
def writeStringAttr (w : ProtoWriter) (field : Nat) (key value : String) : ProtoWriter :=
  w.message field fun kv =>
    (kv.string 1 key).message 2 fun v => v.string 1 value

/-- The loop over `stringAttrs` of every message that has them. -/
def writeStringAttrs (w : ProtoWriter) (field : Nat) (attrs : List (String × String)) :
    ProtoWriter :=
  w.forEach attrs fun w (k, v) => writeStringAttr w field k v

/-- `writeResource`. -/
def writeResource (w : ProtoWriter) (attrs : List (String × String)) : ProtoWriter :=
  w.message 1 fun res => writeStringAttrs res 1 attrs

/-- `writeScope`. -/
def writeScope (w : ProtoWriter) (name version : String) : ProtoWriter :=
  w.message 1 fun s => (s.string 1 name).string 2 version

/-! ## OTLP traces -/

structure OtlpEvent where
  timeNanos : UInt64
  name : String
  stringAttrs : List (String × String)

structure OtlpLink where
  traceId : Bytes
  spanId : Bytes
  stringAttrs : List (String × String)

structure OtlpSpan where
  traceId : Bytes
  spanId : Bytes
  parentSpanId : Option Bytes
  name : String
  kind : NonNegative
  startNanos : UInt64
  endNanos : UInt64
  stringAttrs : List (String × String)
  intAttrs : List (String × Int64)
  events : List OtlpEvent
  statusCode : NonNegative
  statusMessage : String
  links : List OtlpLink

structure OtlpExemplar where
  timeNanos : UInt64
  value : Double
  traceId : Bytes
  spanId : Bytes
  stringAttrs : List (String × String)

/-- `if let value { w.rawBytes(field:, value) }`. -/
def writeOptional (w : ProtoWriter) (field : Nat) : Option Bytes → ProtoWriter
  | some value => w.rawBytes field value
  | none => w

/-- `writeExemplar`. -/
def writeExemplar (w : ProtoWriter) (e : OtlpExemplar) : ProtoWriter :=
  let w := writeStringAttrs w 7 e.stringAttrs
  let w := w.fixed64 2 e.timeNanos
  let w := w.double 3 e.value
  let w := w.rawBytes 4 e.spanId
  w.rawBytes 5 e.traceId

/-- The event of a span. -/
def writeEvent (ev : ProtoWriter) (e : OtlpEvent) : ProtoWriter :=
  let ev := ev.fixed64 1 e.timeNanos
  let ev := ev.string 2 e.name
  writeStringAttrs ev 3 e.stringAttrs

/-- The link of a span. -/
def writeLink (ln : ProtoWriter) (link : OtlpLink) : ProtoWriter :=
  let ln := ln.rawBytes 1 link.traceId
  let ln := ln.rawBytes 2 link.spanId
  writeStringAttrs ln 4 link.stringAttrs

/-- The status of a span, left out where it is unset and has no message. -/
def writeStatus (sp : ProtoWriter) (s : OtlpSpan) : ProtoWriter :=
  if s.statusCode.val ≠ 0 || !s.statusMessage.isEmpty then
    sp.message 15 fun st =>
      let st := if !s.statusMessage.isEmpty then st.string 2 s.statusMessage else st
      st.varint 3 (UInt64.ofNat s.statusCode)
  else sp

/-- The body of the loop over `spans`. -/
def writeSpan (sp : ProtoWriter) (s : OtlpSpan) : ProtoWriter :=
  let sp := sp.rawBytes 1 s.traceId
  let sp := sp.rawBytes 2 s.spanId
  let sp := writeOptional sp 4 s.parentSpanId
  let sp := sp.string 5 s.name
  let sp := sp.varint 6 (UInt64.ofNat s.kind)
  let sp := sp.fixed64 7 s.startNanos
  let sp := sp.fixed64 8 s.endNanos
  let sp := writeStringAttrs sp 9 s.stringAttrs
  let sp := sp.forEach s.intAttrs fun sp (k, v) => writeIntAttr sp 9 k v
  let sp := sp.forEach s.events fun sp e => sp.message 11 fun ev => writeEvent ev e
  let sp := sp.forEach s.links fun sp link => sp.message 13 fun ln => writeLink ln link
  writeStatus sp s

/-- `buildTracesData`. -/
def buildTracesData (resourceAttrs : List (String × String)) (scopeName scopeVersion : String)
    (spans : List OtlpSpan) : Bytes :=
  let w := (ProtoWriter.mk []).message 1 fun rs =>
    let rs := writeResource rs resourceAttrs
    rs.message 2 fun ss =>
      let ss := writeScope ss scopeName scopeVersion
      ss.forEach spans fun ss s => ss.message 2 fun sp => writeSpan sp s
  w.bytes

/-! ## OTLP logs -/

structure OtlpLog where
  timeNanos : UInt64
  observedNanos : UInt64
  severityNumber : NonNegative
  severityText : String
  body : String
  stringAttrs : List (String × String)
  traceId : Option Bytes
  spanId : Option Bytes

/-- The body of the loop over `logs`. -/
def writeLog (lr : ProtoWriter) (l : OtlpLog) : ProtoWriter :=
  let lr := lr.fixed64 1 l.timeNanos
  let lr := lr.varint 2 (UInt64.ofNat l.severityNumber)
  let lr := lr.string 3 l.severityText
  let lr := lr.message 5 fun b => b.string 1 l.body
  let lr := writeStringAttrs lr 6 l.stringAttrs
  let lr := writeOptional lr 9 l.traceId
  let lr := writeOptional lr 10 l.spanId
  lr.fixed64 11 l.observedNanos

/-- `buildLogsData`. -/
def buildLogsData (resourceAttrs : List (String × String)) (scopeName scopeVersion : String)
    (logs : List OtlpLog) : Bytes :=
  let w := (ProtoWriter.mk []).message 1 fun rl =>
    let rl := writeResource rl resourceAttrs
    rl.message 2 fun sl =>
      let sl := writeScope sl scopeName scopeVersion
      sl.forEach logs fun sl l => sl.message 2 fun lr => writeLog lr l
  w.bytes

/-! ## OTLP metrics -/

structure OtlpSumPoint where
  timeNanos : UInt64
  startNanos : UInt64
  value : Double
  stringAttrs : List (String × String)
  exemplars : List OtlpExemplar

structure OtlpHistogramPoint where
  timeNanos : UInt64
  startNanos : UInt64
  count : UInt64
  sum : Double
  bounds : List Double
  bucketCounts : List UInt64
  stringAttrs : List (String × String)
  exemplars : List OtlpExemplar

/-- An element of `sums`. -/
structure OtlpSum where
  name : String
  description : String
  unit : String
  monotonic : Bool
  points : List OtlpSumPoint

/-- An element of `histograms`. -/
structure OtlpHistogram where
  name : String
  description : String
  unit : String
  points : List OtlpHistogramPoint

/-- The body of the loop over the points of a sum. -/
def writeSumPoint (dp : ProtoWriter) (p : OtlpSumPoint) : ProtoWriter :=
  let dp := dp.fixed64 2 p.startNanos
  let dp := dp.fixed64 3 p.timeNanos
  let dp := dp.double 4 p.value
  let dp := dp.forEach p.exemplars fun dp e => dp.message 5 fun w => writeExemplar w e
  writeStringAttrs dp 7 p.stringAttrs

/-- The body of the loop over `sums`. -/
def writeSum (m : ProtoWriter) (s : OtlpSum) : ProtoWriter :=
  let m := m.string 1 s.name
  let m := m.string 2 s.description
  let m := m.string 3 s.unit
  m.message 7 fun sum =>
    let sum := sum.forEach s.points fun sum p => sum.message 1 fun dp => writeSumPoint dp p
    let sum := sum.varint 2 2
    sum.varint 3 (if s.monotonic then 1 else 0)

/-- The body of the loop over the points of a histogram. -/
def writeHistogramPoint (dp : ProtoWriter) (p : OtlpHistogramPoint) : ProtoWriter :=
  let dp := dp.fixed64 2 p.startNanos
  let dp := dp.fixed64 3 p.timeNanos
  let dp := dp.fixed64 4 p.count
  let dp := dp.double 5 p.sum
  let dp := dp.forEach p.bucketCounts fun dp c => dp.fixed64 6 c
  let dp := dp.forEach p.bounds fun dp b => dp.double 7 b
  let dp := dp.forEach p.exemplars fun dp e => dp.message 8 fun w => writeExemplar w e
  writeStringAttrs dp 9 p.stringAttrs

/-- The body of the loop over `histograms`. -/
def writeHistogram (m : ProtoWriter) (h : OtlpHistogram) : ProtoWriter :=
  let m := m.string 1 h.name
  let m := m.string 2 h.description
  let m := m.string 3 h.unit
  m.message 9 fun hist =>
    let hist := hist.forEach h.points fun hist p =>
      hist.message 1 fun dp => writeHistogramPoint dp p
    hist.varint 2 2

/-- `buildMetricsData`. -/
def buildMetricsData (resourceAttrs : List (String × String)) (scopeName scopeVersion : String)
    (sums : List OtlpSum) (histograms : List OtlpHistogram) : Bytes :=
  let w := (ProtoWriter.mk []).message 1 fun rm =>
    let rm := writeResource rm resourceAttrs
    rm.message 2 fun sm =>
      let sm := writeScope sm scopeName scopeVersion
      let sm := sm.forEach sums fun sm s => sm.message 2 fun m => writeSum m s
      sm.forEach histograms fun sm h => sm.message 2 fun m => writeHistogram m h
  w.bytes

end CommercePlayground.Otlp
