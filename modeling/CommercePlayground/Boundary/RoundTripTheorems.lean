/-
CommercePlayground.Boundary.RoundTripTheorems — which events survive the store.

An event that was read comes back as it was, but for a blank session and for
numbers that have no JSON text. The events that fulfillment builds of it carry a
customer, a currency and an amount that their payload does not repeat, and these
do not come back.
-/
import CommercePlayground.Boundary.EventTheorems

namespace CommercePlayground.Boundary

open Lib

section
variable {instants : InstantFormat}

/-! ## What an event that was read is like -/

theorem orderIdOf_trimmed {eventType aggregateType aggregateId : Text} {payload : Members}
    {payloadOrderId : Option Text} {orderId : Text} (ha : javaTrim aggregateId = aggregateId)
    (hp : optionalText payload "order_id" = .ok payloadOrderId)
    (h : orderIdOf eventType aggregateType aggregateId payload payloadOrderId = .ok orderId) :
    javaTrim orderId = orderId := by
  have hread : javaTrim (payloadOrderId.getD []) = payloadOrderId.getD [] := by
    cases payloadOrderId with
    | none => rfl
    | some value => exact optionalText_trimmed hp
  unfold orderIdOf at h
  split at h
  · split at h
    · cases h
    · split at h
      · cases h
        exact ha
      · split at h
        · cases h
        · split at h
          · cases h
          · cases h
            exact ha
  · split at h
    · split at h
      · cases h
      · split at h
        · cases h
        · obtain ⟨paymentId, -, h⟩ := bind_ok h
          split at h
          · cases h
          · cases h
            exact hread
    · simp only at h
      split at h
      · cases h
      · cases h
        exact hread

theorem longField_range {node : Members} {field : String} {value : Int}
    (h : longField node field = .ok (some value)) : -2 ^ 63 ≤ value ∧ value < 2 ^ 63 := by
  unfold longField at h
  split at h
  · cases h
  · split at h
    · rename_i hrange
      cases h
      exact hrange
    · cases h
  · cases h

theorem optionalLong_range {node : Members} {fields : List String} {value : Int}
    (h : optionalLong node fields = .ok value) : -2 ^ 63 ≤ value ∧ value < 2 ^ 63 := by
  induction fields with
  | nil =>
    cases h
    decide
  | cons field fields ih =>
    obtain ⟨read, hread, h⟩ := bind_ok h
    cases read with
    | none => exact ih h
    | some v =>
      cases h
      exact longField_range hread

theorem agreedLong_range {node : Members} {fields : List String} {found : Option (Int × String)}
    {value : Int} (hfound : ∀ n f, found = some (n, f) → -2 ^ 63 ≤ n ∧ n < 2 ^ 63)
    (h : agreedLong node found fields = .ok (some value)) : -2 ^ 63 ≤ value ∧ value < 2 ^ 63 := by
  induction fields generalizing found with
  | nil =>
    obtain ⟨p, hp, rfl⟩ := Option.map_eq_some_iff.mp (Except.ok.inj h)
    exact hfound p.1 p.2 hp
  | cons field fields ih =>
    obtain ⟨read, hread, h⟩ := bind_ok h
    cases read with
    | none => exact ih hfound h
    | some v =>
      cases found with
      | none =>
        refine ih (fun n f hnf => ?_) h
        cases hnf
        exact longField_range hread
      | some first =>
        simp only at h
        split at h
        · cases h
        · exact ih hfound h

theorem totalMinorOf_range {eventType : Text} {payload : Members} {value : Int}
    (h : totalMinorOf eventType payload = .ok value) : -2 ^ 63 ≤ value ∧ value < 2 ^ 63 := by
  unfold totalMinorOf at h
  split at h
  · obtain ⟨read, hread, h⟩ := bind_ok h
    cases read with
    | none => cases h
    | some v =>
      cases h
      refine agreedLong_range (fun n f hnf => ?_) hread
      cases hnf
  · exact optionalLong_range h

/-- What a downstream event takes from the event it was built of. -/
structure Sound (event : CommerceEvent instants) : Prop where
  tenantId : Clean event.tenantId
  orderId : javaTrim event.orderId = event.orderId
  paymentStatus : javaTrim event.paymentStatus = event.paymentStatus
  totalMinor : -2 ^ 63 ≤ event.totalMinor ∧ event.totalMinor < 2 ^ 63
  sessionId : ∀ value, event.sessionId = some value → javaTrim value = value

theorem Decodes.sound {root : Members} {event : CommerceEvent instants}
    (h : Decodes root event) : Sound event := by
  refine ⟨requiredText_clean h.tenantId, ?_, ?_, totalMinorOf_range h.reads.amount,
    fun value hvalue => ?_⟩
  · obtain ⟨payloadOrderId, hread, horder⟩ := h.reads.order
    exact orderIdOf_trimmed (requiredText_clean h.aggregateId).1 hread horder
  · obtain ⟨ownStatus, status, hown, hnested, hstatus, -⟩ := h.reads.payment
    rw [← hstatus]
    cases status with
    | none => rfl
    | some value =>
      unfold nestedStatus at hnested
      split at hnested
      · exact optionalText_trimmed hnested
      · rw [Except.ok.inj hnested] at hown
        exact optionalText_trimmed hown
  · have hsession := h.sessionId
    rw [hvalue] at hsession
    exact optionalText_trimmed hsession

/-! ## Payloads of downstream events -/

/-- The members of a downstream payload before the session. -/
structure Base (source : CommerceEvent instants) (base : Members) : Prop where
  order : Json.get base "order_id" = some (.text source.orderId)
  payment : Json.get base "payment_status" = some (.text source.paymentStatus)
  absent : ∀ name ∈ ["customer_id", "currency", "entity_type", "aggregate_type", "entity_id",
    "aggregate_id", "context", "session_id"], Json.get base name = none
  names : (base.map Prod.fst ++ ["session_id"]).Nodup
  distinct : Json.DistinctMembers base
  quoted : Json.quotedMembers base = base

section
variable {source : CommerceEvent instants} {base : Members}

theorem get_payload_other (base : Members) (sessionId : Option Text) {name : String}
    (h : name ≠ "session_id") :
    Json.get (base ++ sessionMember sessionId) name = Json.get base name := by
  rw [get_append, get_sessionMember_other sessionId h, Option.or_none]

theorem Base.get_session (h : Base source base) (sessionId : Option Text) :
    Json.get (base ++ sessionMember sessionId) "session_id" =
      (writtenSession sessionId).map Json.text := by
  rw [get_append, h.absent _ (by decide), Option.none_or, get_sessionMember]

theorem Base.textOf_none (h : Base source base) (sessionId : Option Text) {name : String}
    (hname : name ∈ ["entity_type", "aggregate_type", "entity_id", "aggregate_id"]) :
    textOf (base ++ sessionMember sessionId) name = [] := by
  have hother : ∀ n ∈ ["entity_type", "aggregate_type", "entity_id", "aggregate_id"],
      n ≠ "session_id" ∧ n ∈ ["customer_id", "currency", "entity_type", "aggregate_type",
        "entity_id", "aggregate_id", "context", "session_id"] := by decide
  unfold textOf
  rw [get_payload_other base sessionId (hother name hname).1, h.absent name (hother name hname).2]

/-- The session that a downstream event infers is the one that was written. -/
theorem Base.inferredSession (h : Base source base) (hs : Sound source) :
    inferredSessionId (base ++ sessionMember source.sessionId) =
      writtenSession source.sessionId := by
  unfold inferredSessionId textOf
  rw [h.get_session]
  cases hw : writtenSession source.sessionId with
  | none => rfl
  | some value =>
    obtain ⟨hvalue, hblank⟩ := Option.filter_eq_some_iff.mp hw
    have htrim := hs.sessionId value hvalue
    simp only [Option.map_some, htrim]
    rw [if_neg (by simpa using hblank)]

theorem Base.payload_distinct (h : Base source base) (sessionId : Option Text) :
    (Json.object (base ++ sessionMember sessionId)).Distinct := by
  unfold sessionMember
  cases sessionId.filter fun value => !isBlank value with
  | none =>
    rw [Option.toList_none, List.map_nil, List.append_nil]
    exact ⟨(List.nodup_append.mp h.names).1, h.distinct⟩
  | some value =>
    refine ⟨?_, Json.distinctMembers_append h.distinct ⟨trivial, trivial⟩⟩
    rw [List.map_append]
    exact h.names

theorem Base.payload_quoted (h : Base source base) (sessionId : Option Text) :
    Json.quotedMembers (base ++ sessionMember sessionId) = base ++ sessionMember sessionId := by
  rw [Json.quotedMembers_append, h.quoted]
  unfold sessionMember
  cases sessionId.filter fun value => !isBlank value with
  | none => rfl
  | some value => rfl

/-! ## Downstream events -/

theorem Base.downstream_entity (h : Base source base) (horder : isBlank source.orderId = false)
    (key eventType : Text) (now : instants.Instant) :
    (downstream source key eventType now (base ++ sessionMember source.sessionId)).entityType =
        "order".toList ∧
      (downstream source key eventType now (base ++ sessionMember source.sessionId)).entityId =
        source.orderId := by
  have hnil : isBlank ([] : Text) = true := rfl
  constructor
  · show inferredEntityType _ _ = _
    unfold inferredEntityType
    simp only [h.textOf_none source.sessionId (by decide : "entity_type" ∈ _),
      h.textOf_none source.sessionId (by decide : "aggregate_type" ∈ _), hnil, horder, if_true,
      Bool.false_eq_true, if_false]
  · show inferredEntityId _ _ _ = _
    unfold inferredEntityId
    simp only [h.textOf_none source.sessionId (by decide : "entity_id" ∈ _),
      h.textOf_none source.sessionId (by decide : "aggregate_id" ∈ _), hnil, horder, if_true,
      Bool.false_eq_true, if_false, Bool.not_true]

theorem Base.downstream_context (h : Base source base) (key eventType : Text)
    (now : instants.Instant) :
    (downstream source key eventType now (base ++ sessionMember source.sessionId)).context =
      [] := by
  show inferredContext _ = _
  unfold inferredContext
  rw [get_payload_other base source.sessionId (by decide), h.absent _ (by decide)]

theorem Base.encodable (h : Base source base) (hs : Sound source)
    (horder : isBlank source.orderId = false) {key eventType : Text} (now : instants.Instant)
    (hkey : Clean key) (htype : Clean eventType) :
    Encodable (downstream source key eventType now (base ++ sessionMember source.sessionId)) := by
  obtain ⟨hetype, heid⟩ := h.downstream_entity horder key eventType now
  refine ⟨hkey, hkey, rfl, hs.tenantId, htype, ?_, ?_, ?_, h.payload_distinct _, ?_⟩
  · rw [hetype]
    exact ⟨by decide, by decide⟩
  · rw [heid]
    exact ⟨hs.orderId, horder⟩
  · intro value hvalue
    have hwritten : writtenSession source.sessionId = some value :=
      (h.inferredSession hs).symm.trans hvalue
    exact hs.sessionId value (Option.filter_eq_some_iff.mp hwritten).1
  · rw [h.downstream_context]
    exact ⟨List.nodup_nil, trivial⟩

theorem optionalText_payload (base : Members) (sessionId : Option Text) {name : String}
    (h : name ≠ "session_id") :
    optionalText (base ++ sessionMember sessionId) name = optionalText base name := by
  unfold optionalText
  rw [get_payload_other base sessionId h]

theorem optionalText_absent {node : Members} {name : String} (h : Json.get node name = none) :
    optionalText node name = .ok none := by
  unfold optionalText
  rw [h]

theorem optionalText_present {node : Members} {name : String} {value : Text}
    (h : Json.get node name = some (.text value)) (htrim : javaTrim value = value) :
    optionalText node name = .ok (some value) := by
  unfold optionalText
  rw [h]
  exact congrArg (fun v => Except.ok (some v)) htrim

/-- What is read of a downstream payload: no customer and no currency. -/
theorem Base.reads (h : Base source base) (hs : Sound source)
    (horder : isBlank source.orderId = false) {eventType : Text} {total : Int}
    (horderType : isOneOf orderAggregateEventTypes eventType = false)
    (hpaymentType : isOneOf paymentEventTypes eventType = false)
    (htotal : optionalLong (base ++ sessionMember source.sessionId)
      ["total_minor", "amount_minor"] = .ok total) :
    PayloadReads eventType "order".toList source.orderId
      (base ++ sessionMember source.sessionId) source.orderId none none source.paymentStatus
      total := by
  have horderId : optionalText (base ++ sessionMember source.sessionId) "order_id" =
      .ok (some source.orderId) := by
    rw [optionalText_payload _ _ (by decide)]
    exact optionalText_present h.order hs.orderId
  have hstatus : optionalText (base ++ sessionMember source.sessionId) "payment_status" =
      .ok (some source.paymentStatus) := by
    rw [optionalText_payload _ _ (by decide)]
    exact optionalText_present h.payment hs.paymentStatus
  refine ⟨⟨some source.orderId, horderId, ?_⟩, ?_, ?_, ?_, ?_⟩
  · unfold orderIdOf
    rw [horderType, hpaymentType]
    simp [horder]
  · rw [optionalText_payload _ _ (by decide)]
    exact optionalText_absent (h.absent _ (by decide))
  · rw [optionalText_payload _ _ (by decide)]
    exact optionalText_absent (h.absent _ (by decide))
  · refine ⟨some source.paymentStatus, some source.paymentStatus, hstatus, rfl, rfl, ?_⟩
    unfold checkPayment
    rw [hpaymentType]
    rfl
  · unfold totalMinorOf
    rw [hpaymentType]
    exact htotal

/-- A downstream event comes back without its customer and its currency, and with
the amount of its payload. -/
theorem Base.round_trip (h : Base source base) (hs : Sound source)
    (horder : isBlank source.orderId = false) (mapper : ObjectMapper) {key eventType : Text}
    (now : instants.Instant) (hkey : Clean key) (htype : Clean eventType)
    (horderType : isOneOf orderAggregateEventTypes eventType = false)
    (hpaymentType : isOneOf paymentEventTypes eventType = false) {total : Int}
    (htotal : optionalLong (base ++ sessionMember source.sessionId)
      ["total_minor", "amount_minor"] = .ok total) :
    parse mapper instants (toJson mapper
        (downstream source key eventType now (base ++ sessionMember source.sessionId))) [] none =
        .ok (downstream source key eventType now (base ++ sessionMember source.sessionId)) ↔
      source.customerId = none ∧ source.currency = none ∧ source.totalMinor = total := by
  obtain ⟨hetype, heid⟩ := h.downstream_entity horder key eventType now
  have hreads := h.reads hs horder horderType hpaymentType htotal
  rw [← hetype, ← heid] at hreads
  rw [parse_toJson mapper (h.encodable hs horder now hkey htype) hreads, Except.ok.injEq,
    reread_eq_iff, h.downstream_context]
  have hsession : writtenSession
      (downstream source key eventType now (base ++ sessionMember source.sessionId)).sessionId =
      (downstream source key eventType now (base ++ sessionMember source.sessionId)).sessionId := by
    show writtenSession (inferredSessionId _) = inferredSessionId _
    rw [h.inferredSession hs, writtenSession_eq_iff]
    intro value hvalue
    simpa using (Option.filter_eq_some_iff.mp hvalue).2
  have hpayload := h.payload_quoted source.sessionId
  constructor
  · rintro ⟨-, hcustomer, hcurrency, hamount, -⟩
    exact ⟨hcustomer.symm, hcurrency.symm, hamount.symm⟩
  · rintro ⟨hcustomer, hcurrency, hamount⟩
    exact ⟨heid.symm ▸ rfl, hcustomer.symm, hcurrency.symm, hamount.symm, rfl, hpayload, rfl,
      hsession⟩

end

/-! ## The two downstream events -/

theorem clean_of_ends {s : Text} {c d : Char} (hhead : s.head? = some c)
    (hlast : s.getLast? = some d) (hc : isTrimmed c = false) (hd : isTrimmed d = false)
    (hblank : isJavaWhitespace c = false) : Clean s := by
  refine ⟨trimMatches_of_ends ⟨fun c' hc' => ?_, fun d' hd' => ?_⟩, ?_⟩
  · cases hhead.symm.trans hc'
    exact hc
  · cases hlast.symm.trans hd'
    exact hd
  · refine List.all_eq_false.mpr ⟨c, List.mem_of_mem_head? hhead, ?_⟩
    rw [hblank]
    exact Bool.false_ne_true

theorem head?_append_of {a b : Text} {c : Char} (h : a.head? = some c) :
    (a ++ b).head? = some c := by
  rw [List.head?_append, h]
  rfl

theorem getLast?_append_of {a b : Text} {c : Char} (h : b.getLast? = some c) :
    (a ++ b).getLast? = some c := by
  rw [List.getLast?_append, h]
  rfl

theorem shipmentKey_clean (tenantId orderId : Text) :
    Clean ("fulfillment:".toList ++ tenantId ++ ':' :: orderId ++ ":shipment".toList) := by
  have hhead : "fulfillment:".toList.head? = some 'f' := by decide
  have hlast : ":shipment".toList.getLast? = some 't' := by decide
  exact clean_of_ends (head?_append_of (head?_append_of (head?_append_of hhead)))
    (getLast?_append_of hlast) (by decide) (by decide) (by decide)

theorem cancellationKey_clean (tenantId orderId : Text) :
    Clean ("cancellation:".toList ++ tenantId ++ ':' :: orderId ++ ":event".toList) := by
  have hhead : "cancellation:".toList.head? = some 'c' := by decide
  have hlast : ":event".toList.getLast? = some 't' := by decide
  exact clean_of_ends (head?_append_of (head?_append_of (head?_append_of hhead)))
    (getLast?_append_of hlast) (by decide) (by decide) (by decide)

theorem requireOrderId_ok {event : CommerceEvent instants} (h : requireOrderId event = .ok ()) :
    isBlank event.orderId = false := by
  unfold requireOrderId at h
  split at h
  · cases h
  · rename_i hblank
    simpa using hblank

/-- A name that is not among the members. -/
theorem get_absent {node : Members} {name : String} (h : name ∉ node.map Prod.fst) :
    Json.get node name = none := by
  refine List.lookup_eq_none_iff.mpr fun member hmem => ?_
  rw [bne_iff_ne]
  exact fun heq => h (heq ▸ List.mem_map_of_mem hmem)

theorem shipmentMembers_base (event : CommerceEvent instants) (shipmentId shipmentStatus : Text) :
    Base event (shipmentMembers event shipmentId shipmentStatus) := by
  have hkeys : (shipmentMembers event shipmentId shipmentStatus).map Prod.fst =
      ["order_id", "shipment_id", "status", "payment_status", "total_minor"] := rfl
  refine ⟨rfl, rfl, fun name hname => get_absent ?_, ?_, ?_, rfl⟩
  · rw [hkeys]
    revert name
    decide
  · rw [hkeys]
    decide
  · exact ⟨trivial, trivial, trivial, trivial, trivial, trivial⟩

theorem cancelledMembers_base (event : CommerceEvent instants) :
    Base event (cancelledMembers event) := by
  have hkeys : (cancelledMembers event).map Prod.fst =
      ["order_id", "status", "payment_status"] := rfl
  refine ⟨rfl, rfl, fun name hname => get_absent ?_, ?_, ?_, rfl⟩
  · rw [hkeys]
    revert name
    decide
  · rw [hkeys]
    decide
  · exact ⟨trivial, trivial, trivial, trivial⟩

/-- Nothing in the shipment event but the customer and the currency is lost. -/
theorem shipmentCreated_round_trip (mapper : ObjectMapper) {event created : CommerceEvent instants}
    (hs : Sound event) {now : instants.Instant} {shipmentId shipmentStatus : Text}
    (h : shipmentCreated event now shipmentId shipmentStatus = .ok created) :
    parse mapper instants (toJson mapper created) [] none = .ok created ↔
      event.customerId = none ∧ event.currency = none := by
  obtain ⟨u, horder, h⟩ := bind_ok h
  cases h
  have htotal : longField (shipmentMembers event shipmentId shipmentStatus ++
      sessionMember event.sessionId) "total_minor" = .ok (some event.totalMinor) := by
    unfold longField
    rw [get_payload_other _ _ (by decide)]
    exact if_pos hs.totalMinor
  have hamount : optionalLong (shipmentMembers event shipmentId shipmentStatus ++
      sessionMember event.sessionId) ["total_minor", "amount_minor"] = .ok event.totalMinor := by
    unfold optionalLong
    rw [htotal]
    rfl
  rw [(shipmentMembers_base event shipmentId shipmentStatus).round_trip hs
    (requireOrderId_ok horder) mapper now (shipmentKey_clean _ _)
    ⟨by decide, by decide⟩ (by rfl) (by decide) hamount]
  simp only [and_true]

/-- The cancellation event loses its amount too. -/
theorem orderCancelled_round_trip (mapper : ObjectMapper)
    {event cancelled : CommerceEvent instants} (hs : Sound event) {now : instants.Instant}
    (h : orderCancelled event now = .ok cancelled) :
    parse mapper instants (toJson mapper cancelled) [] none = .ok cancelled ↔
      event.customerId = none ∧ event.currency = none ∧ event.totalMinor = 0 := by
  obtain ⟨u, horder, h⟩ := bind_ok h
  cases h
  have hnone : ∀ name ∈ ["total_minor", "amount_minor"],
      longField (cancelledMembers event ++ sessionMember event.sessionId) name = .ok none := by
    intro name hname
    have habsent : ∀ n ∈ ["total_minor", "amount_minor"], n ≠ "session_id" ∧
        n ∉ ["order_id", "status", "payment_status"] := by decide
    obtain ⟨hother, hnew⟩ := habsent name hname
    unfold longField
    rw [get_payload_other _ _ hother, get_absent hnew]
  have hamount : optionalLong (cancelledMembers event ++ sessionMember event.sessionId)
      ["total_minor", "amount_minor"] = .ok 0 := by
    unfold optionalLong
    rw [hnone _ List.mem_cons_self]
    show optionalLong _ ["amount_minor"] = _
    unfold optionalLong
    rw [hnone _ (List.mem_cons_of_mem _ List.mem_cons_self)]
    rfl
  exact (cancelledMembers_base event).round_trip hs (requireOrderId_ok horder) mapper now
    (cancellationKey_clean _ _) ⟨by decide, by decide⟩ (by decide)
    (by decide) hamount

end

def treeMapper : ObjectMapper where
  Body := Json
  writeValueAsString root := root
  readTree root := if root.Distinct then .value root.quoted else .malformed
  distinct body root h := by
    split at h
    · rename_i hd
      cases h
      exact Json.distinct_quoted body hd
    · cases h
  read_write root h := if_pos h

def textInstants : InstantFormat where
  Instant := { s : Text // s.all isInstantChar = true ∧ s ≠ [] }
  parse s := if h : s.all isInstantChar = true ∧ s ≠ [] then some ⟨s, h⟩ else none
  print instant := instant.1
  parse_print instant := dif_pos instant.2
  parse_millis t := ⟨_, dif_pos ⟨t.text_instantChars, t.text_ne_nil⟩⟩
  print_clean instant := instant.2

def sampleEnvelope (sessionId : Text) : Json :=
  .object [("event_id", .text "outbox-1".toList), ("event_key", .text "order-1:paid".toList),
    ("schema_version", .int 1), ("tenant_id", .text "tenant-acme".toList),
    ("event_type", .text "order.paid".toList),
    ("occurred_at", .text "2026-10-01T00:00:00Z".toList),
    ("aggregate_type", .text "order".toList), ("aggregate_id", .text "order-1".toList),
    ("session_id", .text sessionId),
    ("payload", .object [("order_id", .text "order-1".toList),
      ("customer_id", .text "customer-1".toList), ("currency", .text "USD".toList),
      ("total_minor", .int 1000), ("payment_status", .text "captured".toList)])]

def sampleInstant (s : String) (h : s.toList.all isInstantChar = true ∧ s.toList ≠ []) :
    textInstants.Instant := ⟨s.toList, h⟩

theorem sampleTime_text : "2026-10-01T00:00:00Z".toList.all isInstantChar = true ∧
    "2026-10-01T00:00:00Z".toList ≠ [] := by decide

def sampleEvent (sessionId : Text) : CommerceEvent textInstants where
  eventId := "outbox-1".toList
  eventKey := "order-1:paid".toList
  schemaVersion := 1
  tenantId := "tenant-acme".toList
  eventType := "order.paid".toList
  occurredAt := sampleInstant "2026-10-01T00:00:00Z" sampleTime_text
  orderId := "order-1".toList
  customerId := some "customer-1".toList
  currency := some "USD".toList
  totalMinor := 1000
  paymentStatus := "captured".toList
  payload := [("order_id", .text "order-1".toList), ("customer_id", .text "customer-1".toList),
    ("currency", .text "USD".toList), ("total_minor", .int 1000),
    ("payment_status", .text "captured".toList)]
  entityType := "order".toList
  entityId := "order-1".toList
  context := []
  sessionId := some sessionId

/-- What a reader of a stored event sees of its customer, money and session. -/
def storedView (event : EventResult (CommerceEvent textInstants)) :
    Option (Option Text × Option Text × Int × Option Text) :=
  match event with
  | .error _ => none
  | .ok event =>
    match parse treeMapper textInstants (toJson treeMapper event) [] none with
    | .error _ => none
    | .ok e => some (e.customerId, e.currency, e.totalMinor, e.sessionId)

/-- An event that is read as it was written. -/
def Survives (event : EventResult (CommerceEvent textInstants)) : Prop :=
  ∃ e, event = .ok e ∧ parse treeMapper textInstants (toJson treeMapper e) [] none = .ok e

theorem view_of_survives {event : EventResult (CommerceEvent textInstants)}
    {view : Option Text × Option Text × Int × Option Text} (h : storedView event = some view)
    (hs : Survives event) : (event.map fun e => e.customerId) = .ok view.1 ∧
      (event.map fun e => e.sessionId) = .ok view.2.2.2 := by
  obtain ⟨e, rfl, hparse⟩ := hs
  have hview : storedView (.ok e) =
      some (e.customerId, e.currency, e.totalMinor, e.sessionId) := by
    show (match parse treeMapper textInstants (toJson treeMapper e) [] none with
      | .error _ => none
      | .ok e => some (e.customerId, e.currency, e.totalMinor, e.sessionId)) = _
    rw [hparse]
  rw [hview, Option.some.injEq] at h
  rw [← h]
  exact ⟨rfl, rfl⟩

end CommercePlayground.Boundary
