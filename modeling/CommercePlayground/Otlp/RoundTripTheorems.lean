/-
CommercePlayground.Otlp.RoundTripTheorems — a collector reads what the macOS app
wrote.

For each message there is the list of fields that the app writes, the message that
the input stands for, and two facts: the builder of `Otlp.Writer` writes these
fields, and the decoder of `Otlp.Reader` makes that message of them. The three
payloads are assembled from these, from the innermost message outwards.
-/
import CommercePlayground.Otlp.WriterTheorems

namespace CommercePlayground.Otlp

open Lib.Wire

attribute [local simp] Value.bytes? Value.varint? Value.fixed64? select_map_same
  select_map_other

/-! ## Common -/

def stringAttributes (attrs : List (String × String)) : List KeyValue :=
  attrs.map fun a => ⟨a.1, .string a.2⟩

def intAttributes (attrs : List (String × Int64)) : List KeyValue :=
  attrs.map fun a => ⟨a.1, .int a.2⟩

def AnyValue.fields : AnyValue → List Field
  | .unset => []
  | .string value => [⟨1, .bytes (textBytes value)⟩]
  | .int value => [⟨3, .varint value.toUInt64⟩]

def KeyValue.fields (kv : KeyValue) : List Field :=
  [⟨1, .bytes (textBytes kv.key)⟩] ++ [⟨2, .bytes (encode kv.value.fields)⟩]

/-- An attribute, as the field of a message. -/
def KeyValue.field (number : Nat) (kv : KeyValue) : Field := ⟨number, .bytes (encode kv.fields)⟩

@[simp] theorem select_attributes (number : Nat) (attributes : List KeyValue) :
    select Value.bytes? number (attributes.map (KeyValue.field number)) =
      attributes.map fun kv => encode kv.fields :=
  select_map_same _ _ (fun kv : KeyValue => .bytes (encode kv.fields))
    (fun kv => encode kv.fields) (fun _ => rfl) attributes

@[simp] theorem select_attributes_other {α : Type} (read : Value → Option α) {number other : Nat}
    (h : other ≠ number) (attributes : List KeyValue) :
    select read number (attributes.map (KeyValue.field other)) = [] :=
  select_map_other _ _ _ h attributes

theorem AnyValue.legal (v : AnyValue) : ∀ f ∈ v.fields, LegalNumber f.number := by
  cases v <;> simp [AnyValue.fields, LegalNumber]

theorem KeyValue.legal (kv : KeyValue) : ∀ f ∈ kv.fields, LegalNumber f.number := by
  simp [KeyValue.fields, LegalNumber]

theorem AnyValue.decode_fields (v : AnyValue) : AnyValue.decode v.fields = some v := by
  cases v with
  | unset => rfl
  | string value =>
    have hstring : stringField 1 [⟨1, .bytes (textBytes value)⟩] = some value :=
      stringField_eq (by simp)
    simp [AnyValue.decode, AnyValue.fields, oneof, Value.wireType, hstring]
  | int value =>
    simp [AnyValue.decode, AnyValue.fields, oneof, Value.wireType, varintField]

theorem KeyValue.decode_fields (kv : KeyValue) (h : (encode kv.fields).length < 2 ^ 63) :
    KeyValue.decode kv.fields = some kv := by
  have hkey : stringField 1 kv.fields = some kv.key :=
    stringField_eq (by simp [KeyValue.fields])
  have hvalue : messageField AnyValue.decode 2 kv.fields = some kv.value :=
    messageField_eq (by simp [KeyValue.fields]) h kv.value.legal fun _ => kv.value.decode_fields
  simp [KeyValue.decode, hkey, hvalue]

/-- Attributes are read back, wherever they stand in a message. -/
theorem attributes_eq {number : Nat} {fields : List Field} {attributes : List KeyValue}
    (h : select Value.bytes? number fields = attributes.map fun kv => encode kv.fields)
    (hfields : (encode fields).length < 2 ^ 63) :
    repeatedField KeyValue.decode number fields = some attributes := by
  have hread : repeatedField KeyValue.decode number fields = some (attributes.map id) :=
    repeatedField_eq h hfields KeyValue.legal KeyValue.decode_fields
  rw [hread, List.map_id]

theorem Writes.stringAttr (number : Nat) (hnumber : LegalNumber number) (key value : String) :
    Writes (fun w => writeStringAttr w number key value)
      [KeyValue.field number ⟨key, .string value⟩] :=
  .message number hnumber (.comp (.string 1 (by decide) key)
    (.message 2 (by decide) (.string 1 (by decide) value)))

theorem Writes.intAttr (number : Nat) (hnumber : LegalNumber number) (key : String)
    (value : Int64) :
    Writes (fun w => writeIntAttr w number key value) [KeyValue.field number ⟨key, .int value⟩] :=
  .message number hnumber (.comp (.string 1 (by decide) key)
    (.message 2 (by decide) (.varint 3 (by decide) value.toUInt64)))

theorem Writes.stringAttrs (number : Nat) (hnumber : LegalNumber number)
    (attrs : List (String × String)) :
    Writes (fun w => writeStringAttrs w number attrs)
      ((stringAttributes attrs).map (KeyValue.field number)) := by
  unfold stringAttributes writeStringAttrs
  rw [List.map_map]
  apply Writes.forEach
  rintro ⟨k, v⟩
  exact .stringAttr number hnumber k v

theorem Writes.optional (number : Nat) (hnumber : LegalNumber number) (value : Option Bytes) :
    Writes (fun w => writeOptional w number value)
      (value.toList.map fun v => ⟨number, .bytes v⟩) := by
  cases value with
  | none => exact .nothing
  | some value => exact .rawBytes number hnumber value

/-! ## Traces -/

def OtlpEvent.message (e : OtlpEvent) : Event :=
  ⟨e.timeNanos, e.name, stringAttributes e.stringAttrs⟩

def OtlpLink.message (link : OtlpLink) : Link :=
  ⟨link.traceId, link.spanId, stringAttributes link.stringAttrs⟩

/-- A span that has no parent id has the empty one, and an unset status is the
default one. -/
def OtlpSpan.message (s : OtlpSpan) : Span where
  traceId := s.traceId
  spanId := s.spanId
  parentSpanId := s.parentSpanId.getD []
  name := s.name
  kind := s.kind
  startTimeUnixNano := s.startNanos
  endTimeUnixNano := s.endNanos
  attributes := stringAttributes s.stringAttrs ++ intAttributes s.intAttrs
  events := s.events.map OtlpEvent.message
  links := s.links.map OtlpLink.message
  status := ⟨s.statusMessage, s.statusCode⟩

def OtlpEvent.fields (e : OtlpEvent) : List Field :=
  [⟨1, .fixed64 e.timeNanos⟩] ++ [⟨2, .bytes (textBytes e.name)⟩] ++
    (stringAttributes e.stringAttrs).map (KeyValue.field 3)

def OtlpLink.fields (link : OtlpLink) : List Field :=
  [⟨1, .bytes link.traceId⟩] ++ [⟨2, .bytes link.spanId⟩] ++
    (stringAttributes link.stringAttrs).map (KeyValue.field 4)

def OtlpSpan.statusFields (s : OtlpSpan) : List Field :=
  (if !s.statusMessage.isEmpty then [⟨2, .bytes (textBytes s.statusMessage)⟩] else []) ++
    [⟨3, .varint (UInt64.ofNat s.statusCode)⟩]

/-- Whether the status is written at all. -/
def OtlpSpan.hasStatus (s : OtlpSpan) : Bool :=
  s.statusCode.val ≠ 0 || !s.statusMessage.isEmpty

def OtlpSpan.fields (s : OtlpSpan) : List Field :=
  [⟨1, .bytes s.traceId⟩] ++ [⟨2, .bytes s.spanId⟩] ++
    (s.parentSpanId.toList.map fun v => ⟨4, .bytes v⟩) ++ [⟨5, .bytes (textBytes s.name)⟩] ++
    [⟨6, .varint (UInt64.ofNat s.kind)⟩] ++ [⟨7, .fixed64 s.startNanos⟩] ++
    [⟨8, .fixed64 s.endNanos⟩] ++ (stringAttributes s.stringAttrs).map (KeyValue.field 9) ++
    (intAttributes s.intAttrs).map (KeyValue.field 9) ++
    (s.events.map fun e => ⟨11, .bytes (encode e.fields)⟩) ++
    (s.links.map fun link => ⟨13, .bytes (encode link.fields)⟩) ++
    if s.hasStatus then [⟨15, .bytes (encode s.statusFields)⟩] else []

theorem writes_event (e : OtlpEvent) : Writes (fun ev => writeEvent ev e) e.fields :=
  .comp (.comp (.fixed64 1 (by decide) _) (.string 2 (by decide) _))
    (.stringAttrs 3 (by decide) _)

theorem writes_link (link : OtlpLink) : Writes (fun ln => writeLink ln link) link.fields :=
  .comp (.comp (.rawBytes 1 (by decide) _) (.rawBytes 2 (by decide) _))
    (.stringAttrs 4 (by decide) _)

theorem writes_status (s : OtlpSpan) : Writes (fun sp => writeStatus sp s)
    (if s.hasStatus then [⟨15, .bytes (encode s.statusFields)⟩] else []) := by
  unfold writeStatus OtlpSpan.hasStatus
  by_cases hstatus : (s.statusCode.val ≠ 0 || !s.statusMessage.isEmpty) = true
  · simp only [if_pos hstatus]
    apply Writes.message 15 (by decide)
    apply Writes.comp _ (.varint 3 (by decide) _)
    by_cases hmessage : (!s.statusMessage.isEmpty) = true
    · simp only [if_pos hmessage]
      exact .string 2 (by decide) _
    · simp only [if_neg hmessage]
      exact .nothing
  · simp only [if_neg hstatus]
    exact .nothing

theorem writes_span (s : OtlpSpan) : Writes (fun sp => writeSpan sp s) s.fields := by
  have hints : Writes (fun sp => sp.forEach s.intAttrs fun sp a => writeIntAttr sp 9 a.1 a.2)
      ((intAttributes s.intAttrs).map (KeyValue.field 9)) := by
    unfold intAttributes
    rw [List.map_map]
    apply Writes.forEach
    rintro ⟨k, v⟩
    exact .intAttr 9 (by decide) k v
  have hevents : Writes
      (fun sp => sp.forEach s.events fun sp e => sp.message 11 fun ev => writeEvent ev e)
      (s.events.map fun e => ⟨11, .bytes (encode e.fields)⟩) :=
    .forEach (fun e => .message 11 (by decide) (writes_event e)) _
  have hlinks : Writes
      (fun sp => sp.forEach s.links fun sp link => sp.message 13 fun ln => writeLink ln link)
      (s.links.map fun link => ⟨13, .bytes (encode link.fields)⟩) :=
    .forEach (fun link => .message 13 (by decide) (writes_link link)) _
  have hids := (Writes.rawBytes 1 (by decide) s.traceId).comp
    (.rawBytes 2 (by decide) s.spanId)
  have hhead := ((hids.comp (.optional 4 (by decide) s.parentSpanId)).comp
    (.string 5 (by decide) s.name)).comp
    (.varint 6 (by decide) (UInt64.ofNat s.kind))
  have htimes := (hhead.comp (.fixed64 7 (by decide) s.startNanos)).comp
    (.fixed64 8 (by decide) s.endNanos)
  have hattributes := (htimes.comp (.stringAttrs 9 (by decide) s.stringAttrs)).comp
    hints
  exact ((hattributes.comp hevents).comp hlinks).comp (writes_status s)

theorem OtlpEvent.decode_fields (e : OtlpEvent) (h : (encode e.fields).length < 2 ^ 63) :
    Event.decode e.fields = some e.message := by
  have hname : stringField 2 e.fields = some e.name :=
    stringField_eq (by simp [OtlpEvent.fields])
  have hattributes : repeatedField KeyValue.decode 3 e.fields =
      some (stringAttributes e.stringAttrs) := attributes_eq (by simp [OtlpEvent.fields]) h
  have htime : fixed64Field 1 e.fields = e.timeNanos := by
    simp [fixed64Field, OtlpEvent.fields]
  simp [Event.decode, OtlpEvent.message, hname, hattributes, htime]

theorem OtlpLink.decode_fields (link : OtlpLink) (h : (encode link.fields).length < 2 ^ 63) :
    Link.decode link.fields = some link.message := by
  have hattributes : repeatedField KeyValue.decode 4 link.fields =
      some (stringAttributes link.stringAttrs) := attributes_eq (by simp [OtlpLink.fields]) h
  have htrace : bytesField 1 link.fields = link.traceId := by
    simp [bytesField, OtlpLink.fields]
  have hspan : bytesField 2 link.fields = link.spanId := by
    simp [bytesField, OtlpLink.fields]
  simp [Link.decode, OtlpLink.message, hattributes, htrace, hspan]

theorem toNat_nonNegative (n : NonNegative) : (UInt64.ofNat n).toNat = n :=
  UInt64.toNat_ofNat_of_lt' (n.isLt.trans (by decide))

theorem OtlpSpan.decode_statusFields (s : OtlpSpan) :
    Status.decode s.statusFields = some ⟨s.statusMessage, s.statusCode⟩ := by
  have hcode : (varintField 3 s.statusFields).toNat = s.statusCode := by
    have hfield : varintField 3 s.statusFields = UInt64.ofNat s.statusCode := by
      unfold varintField OtlpSpan.statusFields
      split <;> simp
    rw [hfield, toNat_nonNegative]
  have hmessage : stringField 2 s.statusFields = some s.statusMessage := by
    by_cases hempty : s.statusMessage = ""
    · rw [hempty]
      exact stringField_absent (by simp [OtlpSpan.statusFields, hempty])
    · exact stringField_eq (by simp [OtlpSpan.statusFields, hempty])
  simp [Status.decode, hcode, hmessage]

theorem OtlpSpan.legal_statusFields (s : OtlpSpan) :
    ∀ f ∈ s.statusFields, LegalNumber f.number := by
  unfold OtlpSpan.statusFields
  split <;> simp [LegalNumber]

/-- A status that was not written is the default one. -/
theorem OtlpSpan.decode_status (s : OtlpSpan) (h : (encode s.fields).length < 2 ^ 63) :
    messageField Status.decode 15 s.fields = some ⟨s.statusMessage, s.statusCode⟩ := by
  by_cases hstatus : s.hasStatus = true
  · exact messageField_eq (by simp [OtlpSpan.fields, hstatus]) h s.legal_statusFields fun _ =>
      s.decode_statusFields
  · have hunset : s.statusCode.val = 0 ∧ s.statusMessage = "" := by
      simpa [OtlpSpan.hasStatus] using hstatus
    rw [messageField_absent (by simp [OtlpSpan.fields, hstatus]), hunset.1, hunset.2]
    rfl

theorem OtlpSpan.decode_fields (s : OtlpSpan) (h : (encode s.fields).length < 2 ^ 63) :
    Span.decode s.fields = some s.message := by
  have hname : stringField 5 s.fields = some s.name :=
    stringField_eq (by unfold OtlpSpan.fields; split <;> simp)
  have hattributes : repeatedField KeyValue.decode 9 s.fields =
      some (stringAttributes s.stringAttrs ++ intAttributes s.intAttrs) :=
    attributes_eq (by unfold OtlpSpan.fields; split <;> simp) h
  have hevents : repeatedField Event.decode 11 s.fields = some (s.events.map OtlpEvent.message) :=
    repeatedField_eq (by unfold OtlpSpan.fields; split <;> simp) h
      (fun e => (writes_event e).legal) OtlpEvent.decode_fields
  have hlinks : repeatedField Link.decode 13 s.fields = some (s.links.map OtlpLink.message) :=
    repeatedField_eq (by unfold OtlpSpan.fields; split <;> simp) h
      (fun link => (writes_link link).legal) OtlpLink.decode_fields
  have hparent : bytesField 4 s.fields = s.parentSpanId.getD [] := by
    unfold bytesField OtlpSpan.fields
    cases s.parentSpanId <;> split <;> simp
  have hstatus := s.decode_status h
  have htrace : bytesField 1 s.fields = s.traceId := by
    unfold bytesField OtlpSpan.fields
    split <;> simp
  have hspan : bytesField 2 s.fields = s.spanId := by
    unfold bytesField OtlpSpan.fields
    split <;> simp
  have hkind : (varintField 6 s.fields).toNat = s.kind := by
    have hfield : varintField 6 s.fields = UInt64.ofNat s.kind := by
      unfold varintField OtlpSpan.fields
      split <;> simp
    rw [hfield, toNat_nonNegative]
  have hstart : fixed64Field 7 s.fields = s.startNanos := by
    unfold fixed64Field OtlpSpan.fields
    split <;> simp
  have hend : fixed64Field 8 s.fields = s.endNanos := by
    unfold fixed64Field OtlpSpan.fields
    split <;> simp
  simp [Span.decode, OtlpSpan.message, hname, hattributes, hevents, hlinks, hstatus, htrace, hspan,
    hparent, hkind, hstart, hend]

/-! ## Logs -/

def OtlpLog.message (l : OtlpLog) : LogRecord where
  timeUnixNano := l.timeNanos
  observedTimeUnixNano := l.observedNanos
  severityNumber := l.severityNumber
  severityText := l.severityText
  body := .string l.body
  attributes := stringAttributes l.stringAttrs
  traceId := l.traceId.getD []
  spanId := l.spanId.getD []

def OtlpLog.fields (l : OtlpLog) : List Field :=
  [⟨1, .fixed64 l.timeNanos⟩] ++ [⟨2, .varint (UInt64.ofNat l.severityNumber)⟩] ++
    [⟨3, .bytes (textBytes l.severityText)⟩] ++
    [⟨5, .bytes (encode (AnyValue.string l.body).fields)⟩] ++
    (stringAttributes l.stringAttrs).map (KeyValue.field 6) ++
    (l.traceId.toList.map fun v => ⟨9, .bytes v⟩) ++
    (l.spanId.toList.map fun v => ⟨10, .bytes v⟩) ++ [⟨11, .fixed64 l.observedNanos⟩]

theorem writes_log (l : OtlpLog) : Writes (fun lr => writeLog lr l) l.fields := by
  have hbody : Writes (fun lr => lr.message 5 fun b => b.string 1 l.body)
      [⟨5, .bytes (encode (AnyValue.string l.body).fields)⟩] :=
    .message 5 (by decide) (.string 1 (by decide) l.body)
  have hhead := ((Writes.fixed64 1 (by decide) l.timeNanos).comp
    (.varint 2 (by decide) (UInt64.ofNat l.severityNumber))).comp
    (.string 3 (by decide) l.severityText)
  have hattributes := (hhead.comp hbody).comp (.stringAttrs 6 (by decide) l.stringAttrs)
  have hids := (hattributes.comp (.optional 9 (by decide) l.traceId)).comp
    (.optional 10 (by decide) l.spanId)
  exact hids.comp (.fixed64 11 (by decide) l.observedNanos)

theorem OtlpLog.decode_fields (l : OtlpLog) (h : (encode l.fields).length < 2 ^ 63) :
    LogRecord.decode l.fields = some l.message := by
  have htext : stringField 3 l.fields = some l.severityText :=
    stringField_eq (by simp [OtlpLog.fields])
  have hbody : messageField AnyValue.decode 5 l.fields = some (.string l.body) :=
    messageField_eq (by simp [OtlpLog.fields]) h (AnyValue.legal _) fun _ =>
      AnyValue.decode_fields _
  have hattributes : repeatedField KeyValue.decode 6 l.fields =
      some (stringAttributes l.stringAttrs) := attributes_eq (by simp [OtlpLog.fields]) h
  have htime : fixed64Field 1 l.fields = l.timeNanos := by
    simp [fixed64Field, OtlpLog.fields]
  have hobserved : fixed64Field 11 l.fields = l.observedNanos := by
    simp [fixed64Field, OtlpLog.fields]
  have hseverity : (varintField 2 l.fields).toNat = l.severityNumber := by
    have hfield : varintField 2 l.fields = UInt64.ofNat l.severityNumber := by
      simp [varintField, OtlpLog.fields]
    rw [hfield, toNat_nonNegative]
  have htrace : bytesField 9 l.fields = l.traceId.getD [] := by
    unfold bytesField OtlpLog.fields
    cases l.traceId <;> simp
  have hspan : bytesField 10 l.fields = l.spanId.getD [] := by
    unfold bytesField OtlpLog.fields
    cases l.spanId <;> simp
  simp [LogRecord.decode, OtlpLog.message, htext, hbody, hattributes, htime, hobserved, hseverity,
    htrace, hspan]

/-! ## Metrics -/

def OtlpExemplar.message (e : OtlpExemplar) : Exemplar :=
  ⟨stringAttributes e.stringAttrs, e.timeNanos, some e.value, e.spanId, e.traceId⟩

def OtlpSumPoint.message (p : OtlpSumPoint) : NumberDataPoint :=
  ⟨stringAttributes p.stringAttrs, p.startNanos, p.timeNanos, some p.value,
    p.exemplars.map OtlpExemplar.message⟩

def OtlpHistogramPoint.message (p : OtlpHistogramPoint) : HistogramDataPoint :=
  ⟨stringAttributes p.stringAttrs, p.startNanos, p.timeNanos, p.count, some p.sum,
    p.bucketCounts, p.bounds, p.exemplars.map OtlpExemplar.message⟩

/-- Sums and histograms are cumulative. -/
def OtlpSum.message (s : OtlpSum) : Metric :=
  ⟨s.name, s.description, s.unit, .sum (s.points.map OtlpSumPoint.message) 2 s.monotonic⟩

def OtlpHistogram.message (h : OtlpHistogram) : Metric :=
  ⟨h.name, h.description, h.unit, .histogram (h.points.map OtlpHistogramPoint.message) 2⟩

def OtlpExemplar.fields (e : OtlpExemplar) : List Field :=
  (stringAttributes e.stringAttrs).map (KeyValue.field 7) ++ [⟨2, .fixed64 e.timeNanos⟩] ++
    [⟨3, .fixed64 e.value⟩] ++ [⟨4, .bytes e.spanId⟩] ++ [⟨5, .bytes e.traceId⟩]

def OtlpSumPoint.fields (p : OtlpSumPoint) : List Field :=
  [⟨2, .fixed64 p.startNanos⟩] ++ [⟨3, .fixed64 p.timeNanos⟩] ++ [⟨4, .fixed64 p.value⟩] ++
    (p.exemplars.map fun e => ⟨5, .bytes (encode e.fields)⟩) ++
    (stringAttributes p.stringAttrs).map (KeyValue.field 7)

def OtlpHistogramPoint.fields (p : OtlpHistogramPoint) : List Field :=
  [⟨2, .fixed64 p.startNanos⟩] ++ [⟨3, .fixed64 p.timeNanos⟩] ++ [⟨4, .fixed64 p.count⟩] ++
    [⟨5, .fixed64 p.sum⟩] ++ (p.bucketCounts.map fun c => ⟨6, .fixed64 c⟩) ++
    (p.bounds.map fun b => ⟨7, .fixed64 b⟩) ++
    (p.exemplars.map fun e => ⟨8, .bytes (encode e.fields)⟩) ++
    (stringAttributes p.stringAttrs).map (KeyValue.field 9)

def OtlpSum.dataFields (s : OtlpSum) : List Field :=
  (s.points.map fun p => ⟨1, .bytes (encode p.fields)⟩) ++ [⟨2, .varint 2⟩] ++
    [⟨3, .varint (if s.monotonic then 1 else 0)⟩]

def OtlpHistogram.dataFields (h : OtlpHistogram) : List Field :=
  (h.points.map fun p => ⟨1, .bytes (encode p.fields)⟩) ++ [⟨2, .varint 2⟩]

/-- The fields of a metric whose data is the given field. -/
def metricFields (name description unit : String) (data : Field) : List Field :=
  [⟨1, .bytes (textBytes name)⟩] ++ [⟨2, .bytes (textBytes description)⟩] ++
    [⟨3, .bytes (textBytes unit)⟩] ++ [data]

def OtlpSum.fields (s : OtlpSum) : List Field :=
  metricFields s.name s.description s.unit ⟨7, .bytes (encode s.dataFields)⟩

def OtlpHistogram.fields (h : OtlpHistogram) : List Field :=
  metricFields h.name h.description h.unit ⟨9, .bytes (encode h.dataFields)⟩

theorem writes_exemplar (e : OtlpExemplar) : Writes (fun w => writeExemplar w e) e.fields :=
  (((Writes.stringAttrs 7 (by decide) e.stringAttrs).comp
    (.fixed64 2 (by decide) e.timeNanos)).comp (.fixed64 3 (by decide) e.value)).comp
    (.rawBytes 4 (by decide) e.spanId) |>.comp (.rawBytes 5 (by decide) e.traceId)

theorem writes_sumPoint (p : OtlpSumPoint) : Writes (fun dp => writeSumPoint dp p) p.fields := by
  have hexemplars : Writes
      (fun dp => dp.forEach p.exemplars fun dp e => dp.message 5 fun w => writeExemplar w e)
      (p.exemplars.map fun e => ⟨5, .bytes (encode e.fields)⟩) :=
    .forEach (fun e => .message 5 (by decide) (writes_exemplar e)) _
  have hhead := ((Writes.fixed64 2 (by decide) p.startNanos).comp
    (.fixed64 3 (by decide) p.timeNanos)).comp (.fixed64 4 (by decide) p.value)
  exact (hhead.comp hexemplars).comp (.stringAttrs 7 (by decide) p.stringAttrs)

theorem writes_histogramPoint (p : OtlpHistogramPoint) :
    Writes (fun dp => writeHistogramPoint dp p) p.fields := by
  have hcounts : Writes (fun dp => dp.forEach p.bucketCounts fun dp c => dp.fixed64 6 c)
      (p.bucketCounts.map fun c => ⟨6, .fixed64 c⟩) :=
    .forEach (fun c => .fixed64 6 (by decide) c) _
  have hbounds : Writes (fun dp => dp.forEach p.bounds fun dp b => dp.double 7 b)
      (p.bounds.map fun b => ⟨7, .fixed64 b⟩) :=
    .forEach (fun b => .fixed64 7 (by decide) b) _
  have hexemplars : Writes
      (fun dp => dp.forEach p.exemplars fun dp e => dp.message 8 fun w => writeExemplar w e)
      (p.exemplars.map fun e => ⟨8, .bytes (encode e.fields)⟩) :=
    .forEach (fun e => .message 8 (by decide) (writes_exemplar e)) _
  have hhead := (((Writes.fixed64 2 (by decide) p.startNanos).comp
    (.fixed64 3 (by decide) p.timeNanos)).comp (.fixed64 4 (by decide) p.count)).comp
    (.fixed64 5 (by decide) p.sum)
  exact (((hhead.comp hcounts).comp hbounds).comp hexemplars).comp
    (.stringAttrs 9 (by decide) p.stringAttrs)

theorem writes_sumData (s : OtlpSum) : Writes
    (fun sum => ((sum.forEach s.points fun sum p =>
      sum.message 1 fun dp => writeSumPoint dp p).varint 2 2).varint 3 (if s.monotonic then 1 else 0))
    s.dataFields := by
  have hpoints : Writes
      (fun sum => sum.forEach s.points fun sum p => sum.message 1 fun dp => writeSumPoint dp p)
      (s.points.map fun p => ⟨1, .bytes (encode p.fields)⟩) :=
    .forEach (fun p => .message 1 (by decide) (writes_sumPoint p)) _
  exact (hpoints.comp (.varint 2 (by decide) 2)).comp
    (.varint 3 (by decide) (if s.monotonic then 1 else 0))

theorem writes_sum (s : OtlpSum) : Writes (fun m => writeSum m s) s.fields := by
  have hhead := ((Writes.string 1 (by decide) s.name).comp
    (.string 2 (by decide) s.description)).comp (.string 3 (by decide) s.unit)
  exact hhead.comp (.message 7 (by decide) (writes_sumData s))

theorem writes_histogramData (h : OtlpHistogram) : Writes
    (fun hist => (hist.forEach h.points fun hist p =>
      hist.message 1 fun dp => writeHistogramPoint dp p).varint 2 2) h.dataFields := by
  have hpoints : Writes
      (fun hist => hist.forEach h.points fun hist p =>
        hist.message 1 fun dp => writeHistogramPoint dp p)
      (h.points.map fun p => ⟨1, .bytes (encode p.fields)⟩) :=
    .forEach (fun p => .message 1 (by decide) (writes_histogramPoint p)) _
  exact hpoints.comp (.varint 2 (by decide) 2)

theorem writes_histogram (h : OtlpHistogram) : Writes (fun m => writeHistogram m h) h.fields := by
  have hhead := ((Writes.string 1 (by decide) h.name).comp
    (.string 2 (by decide) h.description)).comp (.string 3 (by decide) h.unit)
  exact hhead.comp (.message 9 (by decide) (writes_histogramData h))

theorem OtlpExemplar.decode_fields (e : OtlpExemplar) (h : (encode e.fields).length < 2 ^ 63) :
    Exemplar.decode e.fields = some e.message := by
  have hattributes : repeatedField KeyValue.decode 7 e.fields =
      some (stringAttributes e.stringAttrs) := attributes_eq (by simp [OtlpExemplar.fields]) h
  have htime : fixed64Field 2 e.fields = e.timeNanos := by
    simp [fixed64Field, OtlpExemplar.fields]
  have hvalue : optionalFixed64 3 e.fields = some e.value := by
    simp [optionalFixed64, OtlpExemplar.fields]
  have hspan : bytesField 4 e.fields = e.spanId := by
    simp [bytesField, OtlpExemplar.fields]
  have htrace : bytesField 5 e.fields = e.traceId := by
    simp [bytesField, OtlpExemplar.fields]
  simp [Exemplar.decode, OtlpExemplar.message, hattributes, htime, hvalue, hspan, htrace]

/-- Exemplars are read back, wherever they stand in a message. -/
theorem exemplars_eq {number : Nat} {fields : List Field} {exemplars : List OtlpExemplar}
    (h : select Value.bytes? number fields = exemplars.map fun e => encode e.fields)
    (hfields : (encode fields).length < 2 ^ 63) :
    repeatedField Exemplar.decode number fields = some (exemplars.map OtlpExemplar.message) :=
  repeatedField_eq h hfields (fun e => (writes_exemplar e).legal) OtlpExemplar.decode_fields

theorem OtlpSumPoint.decode_fields (p : OtlpSumPoint) (h : (encode p.fields).length < 2 ^ 63) :
    NumberDataPoint.decode p.fields = some p.message := by
  have hattributes : repeatedField KeyValue.decode 7 p.fields =
      some (stringAttributes p.stringAttrs) := attributes_eq (by simp [OtlpSumPoint.fields]) h
  have hexemplars : repeatedField Exemplar.decode 5 p.fields =
      some (p.exemplars.map OtlpExemplar.message) := exemplars_eq (by simp [OtlpSumPoint.fields]) h
  have hstart : fixed64Field 2 p.fields = p.startNanos := by
    simp [fixed64Field, OtlpSumPoint.fields]
  have htime : fixed64Field 3 p.fields = p.timeNanos := by
    simp [fixed64Field, OtlpSumPoint.fields]
  have hvalue : optionalFixed64 4 p.fields = some p.value := by
    simp [optionalFixed64, OtlpSumPoint.fields]
  simp [NumberDataPoint.decode, OtlpSumPoint.message, hattributes, hexemplars, hstart, htime,
    hvalue]

theorem OtlpHistogramPoint.decode_fields (p : OtlpHistogramPoint)
    (h : (encode p.fields).length < 2 ^ 63) :
    HistogramDataPoint.decode p.fields = some p.message := by
  have hattributes : repeatedField KeyValue.decode 9 p.fields =
      some (stringAttributes p.stringAttrs) := attributes_eq (by simp [OtlpHistogramPoint.fields]) h
  have hexemplars : repeatedField Exemplar.decode 8 p.fields =
      some (p.exemplars.map OtlpExemplar.message) :=
    exemplars_eq (by simp [OtlpHistogramPoint.fields]) h
  have hcounts : fixed64sField 6 p.fields = some p.bucketCounts :=
    fixed64sField_eq (by simp [OtlpHistogramPoint.fields])
  have hbounds : fixed64sField 7 p.fields = some p.bounds :=
    fixed64sField_eq (by simp [OtlpHistogramPoint.fields])
  have hstart : fixed64Field 2 p.fields = p.startNanos := by
    simp [fixed64Field, OtlpHistogramPoint.fields]
  have htime : fixed64Field 3 p.fields = p.timeNanos := by
    simp [fixed64Field, OtlpHistogramPoint.fields]
  have hcount : fixed64Field 4 p.fields = p.count := by
    simp [fixed64Field, OtlpHistogramPoint.fields]
  have hsum : optionalFixed64 5 p.fields = some p.sum := by
    simp [optionalFixed64, OtlpHistogramPoint.fields]
  simp [HistogramDataPoint.decode, OtlpHistogramPoint.message, hattributes, hexemplars, hcounts,
    hbounds, hstart, htime, hcount, hsum]

/-- The texts of a metric. -/
theorem decode_metricFields {name description unit : String} {f : Field} {data : MetricData}
    (hnumber : 3 < f.number)
    (hdata : MetricData.decode (metricFields name description unit f) = some data) :
    Metric.decode (metricFields name description unit f) =
      some ⟨name, description, unit, data⟩ := by
  have h1 : f.number ≠ 1 := by omega
  have h2 : f.number ≠ 2 := by omega
  have h3 : f.number ≠ 3 := by omega
  have hname : stringField 1 (metricFields name description unit f) = some name :=
    stringField_eq (by simp [metricFields, h1])
  have hdescription : stringField 2 (metricFields name description unit f) = some description :=
    stringField_eq (by simp [metricFields, h2])
  have hunit : stringField 3 (metricFields name description unit f) = some unit :=
    stringField_eq (by simp [metricFields, h3])
  simp [Metric.decode, hname, hdescription, hunit, hdata]

theorem OtlpSum.decode_dataFields (s : OtlpSum) (h : (encode s.dataFields).length < 2 ^ 63) :
    MetricData.decodeSum s.dataFields =
      some (.sum (s.points.map OtlpSumPoint.message) 2 s.monotonic) := by
  have hpoints : repeatedField NumberDataPoint.decode 1 s.dataFields =
      some (s.points.map OtlpSumPoint.message) :=
    repeatedField_eq (by simp [OtlpSum.dataFields]) h (fun p => (writes_sumPoint p).legal)
      OtlpSumPoint.decode_fields
  have htemporality : varintField 2 s.dataFields = 2 := by
    simp [varintField, OtlpSum.dataFields]
  have hmonotonic : (varintField 3 s.dataFields != 0) = s.monotonic := by
    cases hm : s.monotonic <;> simp [varintField, OtlpSum.dataFields, hm]
  simp [MetricData.decodeSum, hpoints, htemporality, hmonotonic]

theorem OtlpHistogram.decode_dataFields (g : OtlpHistogram)
    (h : (encode g.dataFields).length < 2 ^ 63) :
    MetricData.decodeHistogram g.dataFields =
      some (.histogram (g.points.map OtlpHistogramPoint.message) 2) := by
  have hpoints : repeatedField HistogramDataPoint.decode 1 g.dataFields =
      some (g.points.map OtlpHistogramPoint.message) :=
    repeatedField_eq (by simp [OtlpHistogram.dataFields]) h
      (fun p => (writes_histogramPoint p).legal) OtlpHistogramPoint.decode_fields
  have htemporality : varintField 2 g.dataFields = 2 := by
    simp [varintField, OtlpHistogram.dataFields]
  simp [MetricData.decodeHistogram, hpoints, htemporality]

/-- The field that holds the data is short enough, as the metric is. -/
theorem length_data {name description unit : String} {number : Nat} {payload : Bytes}
    (h : (encode (metricFields name description unit ⟨number, .bytes payload⟩)).length < 2 ^ 63) :
    (encode [⟨number, .bytes payload⟩]).length < 2 ^ 63 := by
  have hsplit : encode (metricFields name description unit ⟨number, .bytes payload⟩) =
      encode (metricFields name description unit ⟨number, .bytes payload⟩ |>.take 3) ++
        encode [⟨number, .bytes payload⟩] := by
    simp [metricFields, encode]
  rw [hsplit, List.length_append] at h
  omega

theorem OtlpSum.decode_fields (s : OtlpSum) (h : (encode s.fields).length < 2 ^ 63) :
    Metric.decode s.fields = some s.message := by
  apply decode_metricFields (by simp)
  have honeof : oneof [(7, 2), (9, 2)] (metricFields s.name s.description s.unit
      ⟨7, .bytes (encode s.dataFields)⟩) = [⟨7, .bytes (encode s.dataFields)⟩] := by
    simp [oneof, metricFields, Value.wireType]
  have hdata : messageField MetricData.decodeSum 7 [⟨7, .bytes (encode s.dataFields)⟩] =
      some (.sum (s.points.map OtlpSumPoint.message) 2 s.monotonic) :=
    messageField_eq (by simp) (length_data h) (writes_sumData s).legal
      s.decode_dataFields
  simp [MetricData.decode, honeof, hdata]

theorem OtlpHistogram.decode_fields (g : OtlpHistogram) (h : (encode g.fields).length < 2 ^ 63) :
    Metric.decode g.fields = some g.message := by
  apply decode_metricFields (by simp)
  have honeof : oneof [(7, 2), (9, 2)] (metricFields g.name g.description g.unit
      ⟨9, .bytes (encode g.dataFields)⟩) = [⟨9, .bytes (encode g.dataFields)⟩] := by
    simp [oneof, metricFields, Value.wireType]
  have hdata : messageField MetricData.decodeHistogram 9 [⟨9, .bytes (encode g.dataFields)⟩] =
      some (.histogram (g.points.map OtlpHistogramPoint.message) 2) :=
    messageField_eq (by simp) (length_data h) (writes_histogramData g).legal
      g.decode_dataFields
  simp [MetricData.decode, honeof, hdata]

/-! ## The payloads -/

/-- What a payload with one resource and one scope is read as. -/
def payload {α : Type} (resourceAttrs : List (String × String)) (scopeName scopeVersion : String)
    (items : List α) : List (ResourceItems α) :=
  [⟨stringAttributes resourceAttrs, [⟨⟨scopeName, scopeVersion⟩, items⟩]⟩]

/-- What `writeScope` and `writeResource` write, and what stands after it. -/
def scopeFields (scopeName scopeVersion : String) : List Field :=
  [⟨1, .bytes (textBytes scopeName)⟩] ++ [⟨2, .bytes (textBytes scopeVersion)⟩]

def scopeItemsFields (scopeName scopeVersion : String) (items : List Field) : List Field :=
  [⟨1, .bytes (encode (scopeFields scopeName scopeVersion))⟩] ++ items

def resourceFields (resourceAttrs : List (String × String)) (scope : List Field) : List Field :=
  [⟨1, .bytes (encode ((stringAttributes resourceAttrs).map (KeyValue.field 1)))⟩] ++
    [⟨2, .bytes (encode scope)⟩]

theorem writes_scope (scopeName scopeVersion : String) :
    Writes (fun s => (s.string 1 scopeName).string 2 scopeVersion)
      (scopeFields scopeName scopeVersion) :=
  .comp (.string 1 (by decide) scopeName) (.string 2 (by decide) scopeVersion)

theorem decode_scopeFields (scopeName scopeVersion : String) :
    Scope.decode (scopeFields scopeName scopeVersion) = some ⟨scopeName, scopeVersion⟩ := by
  have hname : stringField 1 (scopeFields scopeName scopeVersion) = some scopeName :=
    stringField_eq (by simp [scopeFields])
  have hversion : stringField 2 (scopeFields scopeName scopeVersion) = some scopeVersion :=
    stringField_eq (by simp [scopeFields])
  simp [Scope.decode, hname, hversion]

section Payload

variable {α β : Type} {decodeItem : List Field → Option β} {inner : α → List Field}
  {view : α → β} {items : List α} (resourceAttrs : List (String × String))
  (scopeName scopeVersion : String)

/-- The items of a scope, each as a field. -/
def itemFields (inner : α → List Field) (items : List α) : List Field :=
  items.map fun x => ⟨2, .bytes (encode (inner x))⟩

theorem decode_scopeItems (hlegal : ∀ x, ∀ f ∈ inner x, LegalNumber f.number)
    (hview : ∀ x, (encode (inner x)).length < 2 ^ 63 → decodeItem (inner x) = some (view x))
    (hlength : (encode (scopeItemsFields scopeName scopeVersion
      (itemFields inner items))).length < 2 ^ 63) :
    ScopeItems.decode decodeItem
        (scopeItemsFields scopeName scopeVersion (itemFields inner items)) =
      some ⟨⟨scopeName, scopeVersion⟩, items.map view⟩ := by
  have hscope : messageField Scope.decode 1
      (scopeItemsFields scopeName scopeVersion (itemFields inner items)) =
        some ⟨scopeName, scopeVersion⟩ :=
    messageField_eq (by simp [scopeItemsFields, itemFields]) hlength
      (writes_scope scopeName scopeVersion).legal fun _ => decode_scopeFields _ _
  have hitems : repeatedField decodeItem 2
      (scopeItemsFields scopeName scopeVersion (itemFields inner items)) =
        some (items.map view) :=
    repeatedField_eq (by simp [scopeItemsFields, itemFields]) hlength hlegal hview
  simp [ScopeItems.decode, hscope, hitems]

/-- A payload is read back if its items are. The three payloads differ in their
items only. -/
theorem decodeData_build {buildItems : ProtoWriter → ProtoWriter}
    (hitems : Writes buildItems (itemFields inner items))
    (hlegal : ∀ x, ∀ f ∈ inner x, LegalNumber f.number)
    (hview : ∀ x, (encode (inner x)).length < 2 ^ 63 → decodeItem (inner x) = some (view x))
    (hlength : ((ProtoWriter.mk []).message 1 fun r => (writeResource r resourceAttrs).message 2
      fun s => buildItems (writeScope s scopeName scopeVersion)).bytes.length < 2 ^ 63) :
    decodeData decodeItem ((ProtoWriter.mk []).message 1 fun r =>
      (writeResource r resourceAttrs).message 2 fun s =>
        buildItems (writeScope s scopeName scopeVersion)).bytes =
      some (payload resourceAttrs scopeName scopeVersion (items.map view)) := by
  have hscope : Writes (fun s => buildItems (writeScope s scopeName scopeVersion))
      (scopeItemsFields scopeName scopeVersion (itemFields inner items)) :=
    .comp (.message 1 (by decide) (writes_scope scopeName scopeVersion)) hitems
  have hattributes := Writes.stringAttrs 1 (by decide) resourceAttrs
  have hresource : Writes (fun r => (writeResource r resourceAttrs).message 2
      fun s => buildItems (writeScope s scopeName scopeVersion))
      (resourceFields resourceAttrs
        (scopeItemsFields scopeName scopeVersion (itemFields inner items))) :=
    .comp (.message 1 (by decide) hattributes) (.message 2 (by decide) hscope)
  obtain ⟨hbytes, hdecode⟩ := (hresource.message 1 (by decide)).decode_build hlength
  rw [hbytes] at hlength
  unfold decodeData payload
  rw [hdecode, Option.bind_some]
  apply repeatedField_one (by simp) hlength hresource.legal
  intro hinner
  have hattrs : messageField (repeatedField KeyValue.decode 1) 1 (resourceFields resourceAttrs
      (scopeItemsFields scopeName scopeVersion (itemFields inner items))) =
        some (stringAttributes resourceAttrs) :=
    messageField_eq (by simp [resourceFields]) hinner hattributes.legal
      (attributes_eq (by simp))
  have hscopes : repeatedField (ScopeItems.decode decodeItem) 2 (resourceFields resourceAttrs
      (scopeItemsFields scopeName scopeVersion (itemFields inner items))) =
        some [⟨⟨scopeName, scopeVersion⟩, items.map view⟩] :=
    repeatedField_one (by simp [resourceFields]) hinner hscope.legal
      (decode_scopeItems scopeName scopeVersion hlegal hview)
  simp [ResourceItems.decode, hattrs, hscopes]

end Payload

theorem traces_read_back (resourceAttrs : List (String × String)) (scopeName scopeVersion : String)
    (spans : List OtlpSpan)
    (h : (buildTracesData resourceAttrs scopeName scopeVersion spans).length < 2 ^ 63) :
    decodeData Span.decode (buildTracesData resourceAttrs scopeName scopeVersion spans) =
      some (payload resourceAttrs scopeName scopeVersion (spans.map OtlpSpan.message)) := by
  have hitems : Writes
      (fun ss => ss.forEach spans fun ss s => ss.message 2 fun sp => writeSpan sp s)
      (itemFields OtlpSpan.fields spans) :=
    .forEach (fun s => .message 2 (by decide) (writes_span s)) spans
  have hread := decodeData_build resourceAttrs scopeName scopeVersion hitems
    (fun s => (writes_span s).legal) OtlpSpan.decode_fields
  exact hread h

theorem logs_read_back (resourceAttrs : List (String × String)) (scopeName scopeVersion : String)
    (logs : List OtlpLog)
    (h : (buildLogsData resourceAttrs scopeName scopeVersion logs).length < 2 ^ 63) :
    decodeData LogRecord.decode (buildLogsData resourceAttrs scopeName scopeVersion logs) =
      some (payload resourceAttrs scopeName scopeVersion (logs.map OtlpLog.message)) := by
  have hitems : Writes
      (fun sl => sl.forEach logs fun sl l => sl.message 2 fun lr => writeLog lr l)
      (itemFields OtlpLog.fields logs) :=
    .forEach (fun l => .message 2 (by decide) (writes_log l)) logs
  have hread := decodeData_build resourceAttrs scopeName scopeVersion hitems
    (fun l => (writes_log l).legal) OtlpLog.decode_fields
  exact hread h

/-- The metrics are the sums followed by the histograms. -/
theorem writes_metrics (sums : List OtlpSum) (histograms : List OtlpHistogram) : Writes
    (fun sm => (sm.forEach sums fun sm s => sm.message 2 fun m => writeSum m s).forEach histograms
      fun sm h => sm.message 2 fun m => writeHistogram m h)
    (itemFields (Sum.elim OtlpSum.fields OtlpHistogram.fields)
      (sums.map Sum.inl ++ histograms.map Sum.inr)) := by
  have hfields : itemFields (Sum.elim OtlpSum.fields OtlpHistogram.fields)
      (sums.map Sum.inl ++ histograms.map Sum.inr) =
      itemFields OtlpSum.fields sums ++ itemFields OtlpHistogram.fields histograms := by
    unfold itemFields
    rw [List.map_append, List.map_map, List.map_map]
    rfl
  have hsums : Writes (fun sm => sm.forEach sums fun sm s => sm.message 2 fun m => writeSum m s)
      (itemFields OtlpSum.fields sums) :=
    .forEach (fun s => .message 2 (by decide) (writes_sum s)) sums
  have hhistograms : Writes
      (fun sm => sm.forEach histograms fun sm h => sm.message 2 fun m => writeHistogram m h)
      (itemFields OtlpHistogram.fields histograms) :=
    .forEach (fun h => .message 2 (by decide) (writes_histogram h)) histograms
  rw [hfields]
  exact hsums.comp hhistograms

theorem metrics_read_back (resourceAttrs : List (String × String))
    (scopeName scopeVersion : String) (sums : List OtlpSum) (histograms : List OtlpHistogram)
    (h : (buildMetricsData resourceAttrs scopeName scopeVersion sums histograms).length < 2 ^ 63) :
    decodeData Metric.decode
        (buildMetricsData resourceAttrs scopeName scopeVersion sums histograms) =
      some (payload resourceAttrs scopeName scopeVersion
        (sums.map OtlpSum.message ++ histograms.map OtlpHistogram.message)) := by
  have hlegal : ∀ x, ∀ f ∈ Sum.elim OtlpSum.fields OtlpHistogram.fields x,
      LegalNumber f.number := by
    intro x
    cases x with
    | inl s => exact (writes_sum s).legal
    | inr g => exact (writes_histogram g).legal
  have hview : ∀ x, (encode (Sum.elim OtlpSum.fields OtlpHistogram.fields x)).length < 2 ^ 63 →
      Metric.decode (Sum.elim OtlpSum.fields OtlpHistogram.fields x) =
        some (Sum.elim OtlpSum.message OtlpHistogram.message x) := by
    intro x
    cases x with
    | inl s => exact s.decode_fields
    | inr g => exact g.decode_fields
  have hread := decodeData_build resourceAttrs scopeName scopeVersion
    (writes_metrics sums histograms) hlegal hview
  rw [List.map_append, List.map_map, List.map_map] at hread
  exact hread h

/-- **The OTLP writer is a protobuf encoder.** Whatever the app reports, a collector
that reads the bytes of a payload reads every one of them and finds the resource,
the scope and each span, log record or metric with the values it was given. -/
theorem otlp_payloads_read_back (resourceAttrs : List (String × String))
    (scopeName scopeVersion : String) (spans : List OtlpSpan) (logs : List OtlpLog)
    (sums : List OtlpSum) (histograms : List OtlpHistogram)
    (htraces : (buildTracesData resourceAttrs scopeName scopeVersion spans).length < 2 ^ 63)
    (hlogs : (buildLogsData resourceAttrs scopeName scopeVersion logs).length < 2 ^ 63)
    (hmetrics :
      (buildMetricsData resourceAttrs scopeName scopeVersion sums histograms).length < 2 ^ 63) :
    decodeData Span.decode (buildTracesData resourceAttrs scopeName scopeVersion spans) =
        some (payload resourceAttrs scopeName scopeVersion (spans.map OtlpSpan.message)) ∧
      decodeData LogRecord.decode (buildLogsData resourceAttrs scopeName scopeVersion logs) =
        some (payload resourceAttrs scopeName scopeVersion (logs.map OtlpLog.message)) ∧
      decodeData Metric.decode
          (buildMetricsData resourceAttrs scopeName scopeVersion sums histograms) =
        some (payload resourceAttrs scopeName scopeVersion
          (sums.map OtlpSum.message ++ histograms.map OtlpHistogram.message)) :=
  ⟨traces_read_back _ _ _ spans htraces, logs_read_back _ _ _ logs hlogs,
    metrics_read_back _ _ _ sums histograms hmetrics⟩

/-! A span without a parent and with a negative attribute, a log record of it, a sum
with an exemplar and a histogram of three buckets. -/

def sampleSpan : OtlpSpan where
  traceId := List.replicate 16 1
  spanId := List.replicate 8 2
  parentSpanId := none
  name := "checkout"
  kind := 3
  startNanos := 1700000000000000000
  endNanos := 1700000000000000300
  stringAttrs := [("tenant.id", "tenant-acme")]
  intAttrs := [("retry.offset", -1)]
  events := [⟨1700000000000000100, "sent", []⟩]
  statusCode := 0
  statusMessage := ""
  links := [⟨List.replicate 16 3, List.replicate 8 4, []⟩]

def sampleLog : OtlpLog where
  timeNanos := 1700000000000000100
  observedNanos := 1700000000000000200
  severityNumber := 17
  severityText := "ERROR"
  body := "checkout failed"
  stringAttrs := []
  traceId := some (List.replicate 16 1)
  spanId := none

def sampleSum : OtlpSum where
  name := "checkouts"
  description := ""
  unit := "1"
  monotonic := true
  points := [⟨2, 1, 0x3FF0000000000000, [],
    [⟨2, 0x3FF0000000000000, List.replicate 16 1, List.replicate 8 2, []⟩]⟩]

def sampleHistogram : OtlpHistogram where
  name := "latency"
  description := ""
  unit := "ms"
  points := [⟨2, 1, 3, 0x4024000000000000, [0, 0x4024000000000000], [1, 0, 300], [], []⟩]

theorem otlp_payloads_read_back_sample :
    let attrs := [("service.name", "macos")]
    decodeData Span.decode (buildTracesData attrs "scope" "1" [sampleSpan]) =
        some (payload attrs "scope" "1" ([sampleSpan].map OtlpSpan.message)) ∧
      decodeData LogRecord.decode (buildLogsData attrs "scope" "1" [sampleLog]) =
        some (payload attrs "scope" "1" ([sampleLog].map OtlpLog.message)) ∧
      decodeData Metric.decode
          (buildMetricsData attrs "scope" "1" [sampleSum] [sampleHistogram]) =
        some (payload attrs "scope" "1"
          ([sampleSum].map OtlpSum.message ++ [sampleHistogram].map OtlpHistogram.message)) :=
  otlp_payloads_read_back [("service.name", "macos")] "scope" "1" [sampleSpan] [sampleLog]
    [sampleSum] [sampleHistogram] (by decide +kernel) (by decide +kernel) (by decide +kernel)

end CommercePlayground.Otlp
