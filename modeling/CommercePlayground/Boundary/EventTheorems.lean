/-
CommercePlayground.Boundary.EventTheorems — what comes back of an event that was
written as JSON.

`Decodes` says once what `fromRoot` reads of an envelope, and `PayloadReads` what
it reads of the payload. An event that is written and read again keeps what the
envelope carries; the order, the customer, the amounts and the payment come from
the payload, whatever the event said before.
-/
import CommercePlayground.Boundary.CommerceEvent
import CommercePlayground.Lib.Table

namespace CommercePlayground.Boundary

open Lib

/-! ## Texts -/

/-- A text that survives `trim` and is not blank. -/
def Clean (s : Text) : Prop := javaTrim s = s ∧ isBlank s = false

theorem javaTrim_idem (s : Text) : javaTrim (javaTrim s) = javaTrim s :=
  trimMatches_idem isTrimmed s

/-! ## Fields -/

theorem optionalText_quoted {node : Members} {field : String} {value : Option Text}
    (h : optionalText node field = .ok value) :
    optionalText (Json.quotedMembers node) field = .ok value := by
  unfold optionalText at h ⊢
  rw [Json.get_quotedMembers]
  split at h
  · rename_i hget
    rw [hget]
    exact h
  · rename_i hget
    rw [hget]
    exact h
  · cases h

theorem requiredText_ok {node : Members} {field : String} {value : Text}
    (h : requiredText node field = .ok value) :
    optionalText node field = .ok (some value) ∧ isBlank value = false := by
  obtain ⟨read, hread, h⟩ := bind_ok h
  split at h
  · cases h
  · split at h
    · cases h
    · rename_i hblank
      cases h
      exact ⟨hread, by simpa using hblank⟩

theorem requiredText_of_optional {node : Members} {field : String} {value : Text}
    (h : optionalText node field = .ok (some value)) (hblank : isBlank value = false) :
    requiredText node field = .ok value := by
  unfold requiredText
  rw [h]
  show (if isBlank value then _ else _) = _
  rw [hblank]
  rfl

theorem requiredText_quoted {node : Members} {field : String} {value : Text}
    (h : requiredText node field = .ok value) :
    requiredText (Json.quotedMembers node) field = .ok value := by
  obtain ⟨hread, hblank⟩ := requiredText_ok h
  exact requiredText_of_optional (optionalText_quoted hread) hblank

theorem longField_quoted {node : Members} {field : String} {value : Option Int}
    (h : longField node field = .ok value) :
    longField (Json.quotedMembers node) field = .ok value := by
  unfold longField at h ⊢
  rw [Json.get_quotedMembers]
  split at h
  · rename_i hget
    rw [hget]
    exact h
  · rename_i hget
    rw [hget]
    exact h
  · cases h

theorem optionalLong_quoted {node : Members} {fields : List String} {value : Int}
    (h : optionalLong node fields = .ok value) :
    optionalLong (Json.quotedMembers node) fields = .ok value := by
  induction fields with
  | nil => exact h
  | cons field fields ih =>
    obtain ⟨read, hread, h⟩ := bind_ok h
    unfold optionalLong
    rw [longField_quoted hread]
    cases read with
    | none => exact ih h
    | some v => exact h

theorem agreedLong_quoted {node : Members} {fields : List String}
    {found : Option (Int × String)} {value : Option Int}
    (h : agreedLong node found fields = .ok value) :
    agreedLong (Json.quotedMembers node) found fields = .ok value := by
  induction fields generalizing found with
  | nil => exact h
  | cons field fields ih =>
    obtain ⟨read, hread, h⟩ := bind_ok h
    unfold agreedLong
    rw [longField_quoted hread]
    cases read with
    | none => exact ih h
    | some v =>
      cases found with
      | none => exact ih h
      | some first =>
        simp only at h
        split at h
        · cases h
        · rename_i heq
          show (if first.1 ≠ v then _ else _) = _
          rw [if_neg heq]
          exact ih h

theorem totalMinorOf_quoted {eventType : Text} {payload : Members} {value : Int}
    (h : totalMinorOf eventType payload = .ok value) :
    totalMinorOf eventType (Json.quotedMembers payload) = .ok value := by
  unfold totalMinorOf at h ⊢
  split
  · rename_i hpayment
    rw [if_pos hpayment] at h
    obtain ⟨read, hread, h⟩ := bind_ok h
    unfold requiredLong
    rw [agreedLong_quoted hread]
    exact h
  · rename_i hother
    rw [if_neg hother] at h
    exact optionalLong_quoted h

/-! ## Payloads -/

/-- What `fromRoot` reads of a payload, for an event of a type and an aggregate. -/
structure PayloadReads (eventType aggregateType aggregateId : Text) (payload : Members)
    (orderId : Text) (customerId currency : Option Text) (paymentStatus : Text)
    (totalMinor : Int) : Prop where
  order : ∃ payloadOrderId, optionalText payload "order_id" = .ok payloadOrderId ∧
    orderIdOf eventType aggregateType aggregateId payload payloadOrderId = .ok orderId
  customer : optionalText payload "customer_id" = .ok customerId
  money : optionalText payload "currency" = .ok currency
  payment : ∃ ownStatus status, optionalText payload "payment_status" = .ok ownStatus ∧
    nestedStatus payload ownStatus = .ok status ∧ status.getD [] = paymentStatus ∧
    checkPayment eventType currency status = .ok ()
  amount : totalMinorOf eventType payload = .ok totalMinor

theorem orderIdOf_quoted {eventType aggregateType aggregateId : Text} {payload : Members}
    {payloadOrderId : Option Text} {orderId : Text}
    (h : orderIdOf eventType aggregateType aggregateId payload payloadOrderId = .ok orderId) :
    orderIdOf eventType aggregateType aggregateId (Json.quotedMembers payload) payloadOrderId =
      .ok orderId := by
  unfold orderIdOf at h ⊢
  split
  · rename_i horder
    rw [if_pos horder] at h
    exact h
  · rename_i horder
    rw [if_neg horder] at h
    split
    · rename_i hpayment
      rw [if_pos hpayment] at h
      split
      · rename_i htype
        rw [if_pos htype] at h
        cases h
      · rename_i htype
        rw [if_neg htype] at h
        split
        · rename_i hblank
          rw [if_pos hblank] at h
          cases h
        · rename_i hblank
          rw [if_neg hblank] at h
          obtain ⟨paymentId, hread, h⟩ := bind_ok h
          rw [requiredText_quoted hread]
          exact h
    · rename_i hpayment
      rw [if_neg hpayment] at h
      exact h

theorem nestedStatus_quoted {payload : Members} {ownStatus status : Option Text}
    (h : nestedStatus payload ownStatus = .ok status) :
    nestedStatus (Json.quotedMembers payload) ownStatus = .ok status := by
  unfold nestedStatus at h ⊢
  rw [Json.get_quotedMembers]
  cases ownStatus with
  | some own => exact h
  | none =>
    cases hget : Json.get payload "payment" with
    | none =>
      rw [hget] at h
      exact h
    | some payment =>
      rw [hget] at h
      cases payment with
      | object payment => exact optionalText_quoted h
      | double d => cases d <;> exact h
      | null => exact h
      | bool b => exact h
      | int n => exact h
      | text s => exact h
      | array items => exact h

/-- The same is read of the payload that comes back. -/
theorem PayloadReads.quoted {eventType aggregateType aggregateId : Text} {payload : Members}
    {orderId : Text} {customerId currency : Option Text} {paymentStatus : Text} {totalMinor : Int}
    (h : PayloadReads eventType aggregateType aggregateId payload orderId customerId currency
      paymentStatus totalMinor) :
    PayloadReads eventType aggregateType aggregateId (Json.quotedMembers payload) orderId
      customerId currency paymentStatus totalMinor := by
  obtain ⟨payloadOrderId, hread, horder⟩ := h.order
  obtain ⟨ownStatus, status, hown, hnested, hstatus, hcheck⟩ := h.payment
  exact ⟨⟨payloadOrderId, optionalText_quoted hread, orderIdOf_quoted horder⟩,
    optionalText_quoted h.customer, optionalText_quoted h.money,
    ⟨ownStatus, status, optionalText_quoted hown, nestedStatus_quoted hnested, hstatus, hcheck⟩,
    totalMinorOf_quoted h.amount⟩

/-! ## Envelopes -/

section
variable {instants : InstantFormat}

/-- What `fromRoot` reads of an envelope. -/
structure Decodes (root : Members) (event : CommerceEvent instants) : Prop where
  fields : checkEnvelopeFields root = .ok ()
  payload : payloadOf root = .ok event.payload
  eventId : requiredText root "event_id" = .ok event.eventId
  eventKey : requiredText root "event_key" = .ok event.eventKey
  schemaVersion : schemaVersionOf root = .ok event.schemaVersion
  tenantId : requiredText root "tenant_id" = .ok event.tenantId
  eventType : requiredText root "event_type" = .ok event.eventType
  occurredAt : requiredInstant instants root "occurred_at" = .ok event.occurredAt
  aggregateType : requiredText root "aggregate_type" = .ok event.entityType
  aggregateId : requiredText root "aggregate_id" = .ok event.entityId
  entity : ∃ entityType entityId, optionalText root "entity_type" = .ok entityType ∧
    optionalText root "entity_id" = .ok entityId ∧
    entityOf event.entityType event.entityId entityType entityId =
      .ok (event.entityType, event.entityId)
  context : contextOf root = .ok event.context
  sessionId : optionalText root "session_id" = .ok event.sessionId
  reads : PayloadReads event.eventType event.entityType event.entityId event.payload
    event.orderId event.customerId event.currency event.paymentStatus event.totalMinor

theorem entityOf_ok {aggregateType aggregateId : Text} {entityType entityId : Option Text}
    {entity : Text × Text}
    (h : entityOf aggregateType aggregateId entityType entityId = .ok entity) :
    entity = (aggregateType, aggregateId) := by
  unfold entityOf at h
  split at h
  · cases h
    rfl
  · split at h
    · cases h
    · rename_i hsame
      cases h
      rw [not_or, not_not, not_not] at hsame
      rw [hsame.1, hsame.2]
  · cases h

theorem fromRoot_decodes {root : Members} {event : CommerceEvent instants}
    (h : fromRoot instants root = .ok event) : Decodes root event := by
  obtain ⟨u, hfields, h⟩ := bind_ok h
  obtain ⟨payload, hpayload, h⟩ := bind_ok h
  obtain ⟨eventId, hid, h⟩ := bind_ok h
  obtain ⟨eventKey, hkey, h⟩ := bind_ok h
  obtain ⟨schemaVersion, hschema, h⟩ := bind_ok h
  obtain ⟨tenantId, htenant, h⟩ := bind_ok h
  obtain ⟨eventType, htype, h⟩ := bind_ok h
  obtain ⟨occurredAt, hinstant, h⟩ := bind_ok h
  obtain ⟨aggregateType, hatype, h⟩ := bind_ok h
  obtain ⟨aggregateId, haid, h⟩ := bind_ok h
  obtain ⟨entityType, hetype, h⟩ := bind_ok h
  obtain ⟨entityId, heid, h⟩ := bind_ok h
  obtain ⟨entity, hentity, h⟩ := bind_ok h
  obtain ⟨payloadOrderId, hpo, h⟩ := bind_ok h
  obtain ⟨orderId, horder, h⟩ := bind_ok h
  obtain ⟨context, hcontext, h⟩ := bind_ok h
  obtain ⟨sessionId, hsession, h⟩ := bind_ok h
  obtain ⟨customerId, hcustomer, h⟩ := bind_ok h
  obtain ⟨currency, hcurrency, h⟩ := bind_ok h
  obtain ⟨ownStatus, hown, h⟩ := bind_ok h
  obtain ⟨status, hstatus, h⟩ := bind_ok h
  obtain ⟨totalMinor, htotal, h⟩ := bind_ok h
  obtain ⟨u, hcheck, h⟩ := bind_ok h
  cases h
  obtain rfl := entityOf_ok hentity
  exact ⟨hfields, hpayload, hid, hkey, hschema, htenant, htype, hinstant, hatype, haid,
    ⟨entityType, entityId, hetype, heid, hentity⟩, hcontext, hsession,
    ⟨⟨payloadOrderId, hpo, horder⟩, hcustomer, hcurrency,
      ⟨ownStatus, status, hown, hstatus, rfl, hcheck⟩, htotal⟩⟩

theorem Decodes.fromRoot {root : Members} {event : CommerceEvent instants}
    (h : Decodes root event) : fromRoot instants root = .ok event := by
  obtain ⟨entityType, entityId, hetype, heid, hentity⟩ := h.entity
  obtain ⟨payloadOrderId, hpo, horder⟩ := h.reads.order
  obtain ⟨ownStatus, status, hown, hnested, hstatus, hcheck⟩ := h.reads.payment
  unfold Boundary.fromRoot
  rw [h.fields, h.payload, h.eventId, h.eventKey, h.schemaVersion, h.tenantId, h.eventType,
    h.occurredAt, h.aggregateType, h.aggregateId, hetype, heid]
  simp only [bind, Except.bind, pure, Except.pure]
  rw [hentity, hpo]
  simp only
  rw [horder, h.context, h.sessionId, h.reads.customer, h.reads.money, hown]
  simp only
  rw [hnested, h.reads.amount]
  simp only
  rw [hcheck, hstatus]

/-! ## Writing and reading -/

/-- What an event must be for its envelope to be read as it was written. -/
structure Encodable (event : CommerceEvent instants) : Prop where
  eventId : Clean event.eventId
  eventKey : Clean event.eventKey
  schemaVersion : event.schemaVersion = currentSchemaVersion
  tenantId : Clean event.tenantId
  eventType : Clean event.eventType
  entityType : Clean event.entityType
  entityId : Clean event.entityId
  sessionId : ∀ value, event.sessionId = some value → javaTrim value = value
  payload : (Json.object event.payload).Distinct
  context : (Json.object event.context).Distinct

/-- The session that is written. -/
def writtenSession (sessionId : Option Text) : Option Text :=
  sessionId.filter fun value => !isBlank value

theorem get_sessionMember (sessionId : Option Text) :
    Json.get (sessionMember sessionId) "session_id" =
      (writtenSession sessionId).map Json.text := by
  unfold sessionMember writtenSession
  cases sessionId.filter fun value => !isBlank value with
  | none => rfl
  | some value => rfl

theorem get_sessionMember_other (sessionId : Option Text) {name : String}
    (h : name ≠ "session_id") : Json.get (sessionMember sessionId) name = none := by
  unfold sessionMember
  cases sessionId.filter fun value => !isBlank value with
  | none => rfl
  | some value =>
    have hne : (name == "session_id") = false := by simpa using h
    simp [Json.get, List.lookup_cons, hne]

theorem get_append (a b : Members) (name : String) :
    Json.get (a ++ b) name = (Json.get a name).or (Json.get b name) := List.lookup_append

/-- The members that are always written before the session. -/
def headMembers (event : CommerceEvent instants) : Members :=
  (toMembers event).take 10

theorem toMembers_eq (event : CommerceEvent instants) :
    toMembers event = headMembers event ++ (sessionMember event.sessionId ++
      ((if event.context.isEmpty then [] else [("context", .object event.context)]) ++
        [("payload", .object event.payload)])) := by
  simp [toMembers, headMembers]

theorem get_toMembers_head (event : CommerceEvent instants) {name : String} {value : Json}
    (h : Json.get (headMembers event) name = some value) :
    Json.get (toMembers event) name = some value := by
  rw [toMembers_eq, get_append, h]
  rfl

/-- The texts of an envelope. -/
theorem get_headMembers (event : CommerceEvent instants) :
    Json.get (headMembers event) "event_id" = some (.text event.eventId) ∧
    Json.get (headMembers event) "event_key" = some (.text event.eventKey) ∧
    Json.get (headMembers event) "tenant_id" = some (.text event.tenantId) ∧
    Json.get (headMembers event) "event_type" = some (.text event.eventType) ∧
    Json.get (headMembers event) "entity_type" = some (.text event.entityType) ∧
    Json.get (headMembers event) "entity_id" = some (.text event.entityId) ∧
    Json.get (headMembers event) "aggregate_type" = some (.text event.entityType) ∧
    Json.get (headMembers event) "aggregate_id" = some (.text event.entityId) := by
  simp [headMembers, toMembers, Json.get, List.lookup_cons]

theorem get_toMembers_session (event : CommerceEvent instants) :
    Json.get (toMembers event) "session_id" = (writtenSession event.sessionId).map Json.text := by
  have hhead : Json.get (headMembers event) "session_id" = none := by
    simp [headMembers, toMembers, Json.get, List.lookup_cons]
  rw [toMembers_eq, get_append, hhead, Option.none_or, get_append, get_sessionMember]
  have hrest : Json.get ((if event.context.isEmpty then []
      else [("context", .object event.context)]) ++ [("payload", .object event.payload)])
      "session_id" = none := by
    split
    · simp [Json.get]
    · simp [Json.get, List.lookup_cons]
  rw [hrest, Option.or_none]

theorem get_toMembers_context (event : CommerceEvent instants) :
    Json.get (toMembers event) "context" =
      if event.context.isEmpty then none else some (.object event.context) := by
  have hhead : Json.get (headMembers event) "context" = none := by
    simp [headMembers, toMembers, Json.get, List.lookup_cons]
  rw [toMembers_eq, get_append, hhead, Option.none_or, get_append,
    get_sessionMember_other _ (by decide), Option.none_or, get_append]
  split
  · simp [Json.get]
  · simp [Json.get, List.lookup_cons]

theorem get_toMembers_payload (event : CommerceEvent instants) :
    Json.get (toMembers event) "payload" = some (.object event.payload) := by
  have hhead : Json.get (headMembers event) "payload" = none := by
    simp [headMembers, toMembers, Json.get, List.lookup_cons]
  rw [toMembers_eq, get_append, hhead, Option.none_or, get_append,
    get_sessionMember_other _ (by decide), Option.none_or, get_append]
  split
  · simp [Json.get]
  · simp [Json.get, List.lookup_cons]

/-- The names that are written, in their order. -/
theorem keys_toMembers (event : CommerceEvent instants) :
    ((toMembers event).map Prod.fst).Sublist
      ["event_id", "event_key", "schema_version", "tenant_id", "event_type", "occurred_at",
        "entity_type", "entity_id", "aggregate_type", "aggregate_id", "session_id", "context",
        "payload"] := by
  have hhead : (headMembers event).map Prod.fst =
      ["event_id", "event_key", "schema_version", "tenant_id", "event_type", "occurred_at",
        "entity_type", "entity_id", "aggregate_type", "aggregate_id"] := by
    simp [headMembers, toMembers]
  have hsession : ((sessionMember event.sessionId).map Prod.fst).Sublist ["session_id"] := by
    unfold sessionMember
    cases event.sessionId.filter fun value => !isBlank value with
    | none => exact List.nil_sublist _
    | some value => exact List.Sublist.refl _
  have hcontext : ((if event.context.isEmpty then []
      else [("context", Json.object event.context)]).map Prod.fst).Sublist ["context"] := by
    split
    · exact List.nil_sublist _
    · exact List.Sublist.refl _
  rw [toMembers_eq, List.map_append, List.map_append, List.map_append, hhead]
  exact (List.Sublist.refl _).append (hsession.append (hcontext.append (List.Sublist.refl _)))

theorem checkEnvelopeFields_of_keys {root : Members}
    (h : ∀ name ∈ root.map Prod.fst, name ∈ envelopeFields) :
    checkEnvelopeFields root = .ok () := by
  induction root with
  | nil => rfl
  | cons member root ih =>
    obtain ⟨name, value⟩ := member
    have hname : envelopeFields.contains name = true := by
      simpa using h name List.mem_cons_self
    rw [checkEnvelopeFields, if_pos hname]
    exact ih fun other ho => h other (List.mem_cons_of_mem _ ho)

theorem toMembers_distinct {event : CommerceEvent instants} (h : Encodable event) :
    (Json.object (toMembers event)).Distinct := by
  refine ⟨(keys_toMembers event).nodup (by decide), ?_⟩
  rw [toMembers_eq]
  refine Json.distinctMembers_append ?_ (Json.distinctMembers_append ?_
    (Json.distinctMembers_append ?_ ⟨h.payload, trivial⟩))
  · simp [headMembers, toMembers, Json.DistinctMembers, Json.DistinctMember, Json.Distinct]
  · unfold sessionMember
    cases event.sessionId.filter fun value => !isBlank value with
    | none => trivial
    | some value => exact ⟨trivial, trivial⟩
  · split
    · trivial
    · exact ⟨h.context, trivial⟩

/-- What comes back of an event, with what is read of its payload. -/
def reread (event : CommerceEvent instants) (orderId : Text) (customerId currency : Option Text)
    (paymentStatus : Text) (totalMinor : Int) : CommerceEvent instants :=
  { event with
    orderId := orderId
    customerId := customerId
    currency := currency
    paymentStatus := paymentStatus
    totalMinor := totalMinor
    payload := Json.quotedMembers event.payload
    context := Json.quotedMembers event.context
    sessionId := writtenSession event.sessionId }

theorem optionalText_written {event : CommerceEvent instants} {name : String} {value : Text}
    (h : Json.get (headMembers event) name = some (.text value)) (hclean : javaTrim value = value) :
    optionalText (Json.quotedMembers (toMembers event)) name = .ok (some value) := by
  unfold optionalText
  rw [Json.get_quotedMembers, get_toMembers_head event h]
  exact congrArg (fun v => Except.ok (some v)) hclean

theorem requiredText_written {event : CommerceEvent instants} {name : String} {value : Text}
    (h : Json.get (headMembers event) name = some (.text value)) (hclean : Clean value) :
    requiredText (Json.quotedMembers (toMembers event)) name = .ok value :=
  requiredText_of_optional (optionalText_written h hclean.1) hclean.2

/-- A text of an instant survives `trim`. -/
theorem clean_of_instantChars {s : Text} (hall : s.all isInstantChar = true) (hne : s ≠ []) :
    Clean s := by
  have hchar : ∀ c ∈ s, isTrimmed c = false ∧ isJavaWhitespace c = false := by
    intro c hc
    have := List.all_eq_true.mp hall c hc
    simpa [isInstantChar] using this
  refine ⟨trimMatches_of_ends ⟨fun c hc => ?_, fun c hc => ?_⟩, ?_⟩
  · exact (hchar c (List.mem_of_mem_head? hc)).1
  · exact (hchar c (List.mem_of_mem_getLast? hc)).1
  · obtain ⟨c, hc⟩ := List.exists_mem_of_ne_nil _ hne
    refine List.all_eq_false.mpr ⟨c, hc, ?_⟩
    rw [(hchar c hc).2]
    exact Bool.false_ne_true

theorem print_clean (instant : instants.Instant) : Clean (instants.print instant) :=
  clean_of_instantChars (instants.print_clean instant).1 (instants.print_clean instant).2

theorem padded_instantChars (width n : Nat) : (padded width n).all isInstantChar = true := by
  refine List.all_eq_true.mpr fun c hc => ?_
  have hdigit : 0x30 ≤ c.toNat ∧ c.toNat ≤ 0x39 := by
    rcases List.mem_append.mp hc with hc | hc
    · rw [List.eq_of_mem_replicate hc]
      decide
    · exact decimal_isDigit hc
  have htrim : isTrimmed c = false := by
    simp only [isTrimmed, decide_eq_false_iff_not]
    omega
  have hspace : isJavaWhitespace c = false := by
    simp only [isJavaWhitespace, Bool.or_eq_false_iff, decide_eq_false_iff_not]
    omega
  rw [isInstantChar, htrim, hspace]
  rfl

theorem UtcMillis.text_instantChars (t : UtcMillis) : t.text.all isInstantChar = true := by
  have hmarks : isInstantChar '-' = true ∧ isInstantChar 'T' = true ∧ isInstantChar ':' = true ∧
      isInstantChar '.' = true ∧ isInstantChar 'Z' = true := by decide
  simp only [UtcMillis.text, List.all_append, List.all_cons, List.all_nil, padded_instantChars,
    hmarks, Bool.and_self]

theorem UtcMillis.text_ne_nil (t : UtcMillis) : t.text ≠ [] := by
  unfold UtcMillis.text
  simp

/-- The envelope is read as it was written. -/
theorem Encodable.decodes {event : CommerceEvent instants} (h : Encodable event)
    {orderId : Text} {customerId currency : Option Text} {paymentStatus : Text}
    {totalMinor : Int} (hreads : PayloadReads event.eventType event.entityType event.entityId
      event.payload orderId customerId currency paymentStatus totalMinor) :
    Decodes (Json.quotedMembers (toMembers event))
      (reread event orderId customerId currency paymentStatus totalMinor) := by
  have hfields : checkEnvelopeFields (Json.quotedMembers (toMembers event)) = .ok () := by
    refine checkEnvelopeFields_of_keys fun name hname => ?_
    rw [Json.keys_quotedMembers] at hname
    have hnames : ∀ n ∈ ["event_id", "event_key", "schema_version", "tenant_id", "event_type",
        "occurred_at", "entity_type", "entity_id", "aggregate_type", "aggregate_id",
        "session_id", "context", "payload"], n ∈ envelopeFields := by decide
    exact hnames name ((keys_toMembers event).subset hname)
  have hschema : schemaVersionOf (Json.quotedMembers (toMembers event)) =
      .ok event.schemaVersion := by
    have hget : Json.get (headMembers event) "schema_version" = some (.int event.schemaVersion) :=
      by simp [headMembers, toMembers, Json.get, List.lookup_cons]
    unfold schemaVersionOf requiredInt
    rw [Json.get_quotedMembers, get_toMembers_head event hget, h.schemaVersion]
    rfl
  have hinstant : requiredInstant instants (Json.quotedMembers (toMembers event)) "occurred_at" =
      .ok event.occurredAt := by
    unfold requiredInstant
    rw [requiredText_written (by simp [headMembers, toMembers, Json.get, List.lookup_cons])
      (print_clean event.occurredAt)]
    simp only [bind, Except.bind, instants.parse_print]
    rfl
  have hcontext : contextOf (Json.quotedMembers (toMembers event)) =
      .ok (Json.quotedMembers event.context) := by
    unfold contextOf
    rw [Json.get_quotedMembers, get_toMembers_context]
    split
    · rename_i hempty
      split at hempty
      · rename_i hnil
        rw [List.isEmpty_iff.mp hnil]
        rfl
      · cases hempty
    · rename_i context hsome
      split at hsome
      · cases hsome
      · cases hsome
        rfl
    · rename_i other hnot hsome
      split at hsome
      · cases hsome
      · cases hsome
        exact absurd rfl (hnot _)
  have hsession : optionalText (Json.quotedMembers (toMembers event)) "session_id" =
      .ok (writtenSession event.sessionId) := by
    unfold optionalText
    rw [Json.get_quotedMembers, get_toMembers_session]
    cases hs : writtenSession event.sessionId with
    | none => rfl
    | some value =>
      obtain ⟨hvalue, -⟩ := Option.filter_eq_some_iff.mp hs
      exact congrArg (fun v => Except.ok (some v)) (h.sessionId value hvalue)
  have hpayload : payloadOf (Json.quotedMembers (toMembers event)) =
      .ok (Json.quotedMembers event.payload) := by
    unfold payloadOf
    rw [Json.get_quotedMembers, get_toMembers_payload]
    rfl
  have hentity : entityOf event.entityType event.entityId (some event.entityType)
      (some event.entityId) = .ok (event.entityType, event.entityId) := by
    simp [entityOf]
  obtain ⟨hid, hkey, htenant, htype, hetype, heid, hatype, haid⟩ := get_headMembers event
  exact ⟨hfields, hpayload, requiredText_written hid h.eventId,
    requiredText_written hkey h.eventKey, hschema, requiredText_written htenant h.tenantId,
    requiredText_written htype h.eventType, hinstant, requiredText_written hatype h.entityType,
    requiredText_written haid h.entityId,
    ⟨some event.entityType, some event.entityId, optionalText_written hetype h.entityType.1,
      optionalText_written heid h.entityId.1, hentity⟩, hcontext, hsession, hreads.quoted⟩

theorem parse_of_decodes {mapper : ObjectMapper} {body : mapper.Body} {root : Members}
    {event : CommerceEvent instants} (hread : mapper.readTree body = .value (.object root))
    (h : Decodes root event) : parse mapper instants body [] none = .ok event := by
  unfold parse
  rw [hread]
  show (fromRoot instants root >>= _) = _
  rw [h.fromRoot]
  rfl

/-- An event that is written and read again. -/
theorem parse_toJson (mapper : ObjectMapper) {event : CommerceEvent instants}
    (h : Encodable event) {orderId : Text} {customerId currency : Option Text}
    {paymentStatus : Text} {totalMinor : Int}
    (hreads : PayloadReads event.eventType event.entityType event.entityId event.payload orderId
      customerId currency paymentStatus totalMinor) :
    parse mapper instants (toJson mapper event) [] none =
      .ok (reread event orderId customerId currency paymentStatus totalMinor) :=
  parse_of_decodes (mapper.read_write _ (toMembers_distinct h)) (h.decodes hreads)

/-! ## Events that were read -/

theorem optionalText_trimmed {node : Members} {field : String} {value : Text}
    (h : optionalText node field = .ok (some value)) : javaTrim value = value := by
  unfold optionalText at h
  split at h
  · cases h
  · cases h
    exact javaTrim_idem _
  · cases h

theorem requiredText_clean {node : Members} {field : String} {value : Text}
    (h : requiredText node field = .ok value) : Clean value := by
  obtain ⟨hread, hblank⟩ := requiredText_ok h
  exact ⟨optionalText_trimmed hread, hblank⟩

theorem Decodes.encodable {root : Members} {event : CommerceEvent instants}
    (h : Decodes root event) (hroot : (Json.object root).Distinct) : Encodable event := by
  refine ⟨requiredText_clean h.eventId, requiredText_clean h.eventKey, ?_,
    requiredText_clean h.tenantId, requiredText_clean h.eventType,
    requiredText_clean h.aggregateType, requiredText_clean h.aggregateId, ?_, ?_, ?_⟩
  · obtain ⟨version, -, hversion⟩ := bind_ok h.schemaVersion
    split at hversion
    · cases hversion
    · rename_i heq
      rw [← Except.ok.inj hversion]
      exact not_not.mp heq
  · intro value hvalue
    have hsession := h.sessionId
    rw [hvalue] at hsession
    exact optionalText_trimmed hsession
  · have hpayload := h.payload
    unfold payloadOf at hpayload
    split at hpayload
    · rename_i payload hget
      rw [← Except.ok.inj hpayload]
      exact Json.distinct_of_get hroot.2 hget
    · cases hpayload
  · have hcontext := h.context
    unfold contextOf at hcontext
    split at hcontext
    · rw [← Except.ok.inj hcontext]
      exact ⟨List.nodup_nil, trivial⟩
    · rename_i context hget
      rw [← Except.ok.inj hcontext]
      exact Json.distinct_of_get hroot.2 hget
    · cases hcontext

theorem parse_decodes {mapper : ObjectMapper} {body : mapper.Body} {headers : List (String × Text)}
    {messageId : Option Text} {event : CommerceEvent instants}
    (h : parse mapper instants body headers messageId = .ok event) :
    ∃ root, (Json.object root).Distinct ∧ Decodes root event := by
  unfold parse at h
  split at h
  · cases h
  · cases h
  · rename_i root hread
    obtain ⟨read, hroot, h⟩ := bind_ok h
    obtain ⟨u, -, h⟩ := bind_ok h
    cases h
    exact ⟨root, mapper.distinct _ _ hread, fromRoot_decodes hroot⟩
  · cases h

/-- An event that was read, written and read again. -/
theorem Decodes.parse_toJson {root : Members} {event : CommerceEvent instants}
    (h : Decodes root event) (hroot : (Json.object root).Distinct) (mapper : ObjectMapper) :
    parse mapper instants (toJson mapper event) [] none =
      .ok (reread event event.orderId event.customerId event.currency event.paymentStatus
        event.totalMinor) :=
  Boundary.parse_toJson mapper (h.encodable hroot) h.reads

theorem reread_eq_iff (event : CommerceEvent instants) (orderId : Text)
    (customerId currency : Option Text) (paymentStatus : Text) (totalMinor : Int) :
    reread event orderId customerId currency paymentStatus totalMinor = event ↔
      orderId = event.orderId ∧ customerId = event.customerId ∧ currency = event.currency ∧
        totalMinor = event.totalMinor ∧ paymentStatus = event.paymentStatus ∧
        Json.quotedMembers event.payload = event.payload ∧
        Json.quotedMembers event.context = event.context ∧
        writtenSession event.sessionId = event.sessionId := by
  cases event
  simp only [reread, CommerceEvent.mk.injEq, true_and]

theorem writtenSession_eq_iff (sessionId : Option Text) :
    writtenSession sessionId = sessionId ↔
      ∀ value, sessionId = some value → isBlank value = false := by
  cases sessionId with
  | none => simp [writtenSession]
  | some value =>
    cases hblank : isBlank value with
    | false => simp [writtenSession, hblank]
    | true => simp [writtenSession, hblank]

end

end CommercePlayground.Boundary
