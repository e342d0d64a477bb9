/-
CommercePlayground.Boundary.PaidEventTheorems — fulfillment receives the paid
event that checkout wrote.

Fulfillment trims what it reads and refuses blank texts, so the event survives
only if checkout writes texts that trimming leaves alone. Its own ids have no
blanks at all; the tenant was trimmed at the door, and what Rust trims covers
what Java trims once control characters are out.
-/
import CommercePlayground.Boundary.PaidEvent
import CommercePlayground.Boundary.PaymentTheorems
import CommercePlayground.Boundary.RoundTripTheorems

namespace CommercePlayground.Boundary

open Lib Pricing

/-! ## Texts that survive -/

theorem isInstantChar_of_range {c : Char} (h : 0x21 ≤ c.toNat ∧ c.toNat ≤ 0x7e) :
    isInstantChar c = true := by
  have htrim : isTrimmed c = false := by
    simp only [isTrimmed, decide_eq_false_iff_not]
    omega
  have hspace : isJavaWhitespace c = false := by
    simp only [isJavaWhitespace, Bool.or_eq_false_iff, decide_eq_false_iff_not]
    omega
  rw [isInstantChar, htrim, hspace]
  rfl

theorem uuidChars_instantChars {s : Text} (h : s.all isUuidChar = true) :
    s.all isInstantChar = true := by
  refine List.all_eq_true.mpr fun c hc => isInstantChar_of_range ?_
  have := List.all_eq_true.mp h c hc
  simp only [isUuidChar, Bool.or_eq_true, decide_eq_true_eq] at this
  rcases this with (hdigit | hletter) | rfl
  · omega
  · omega
  · decide

theorem orderId_instantChars (uuid : Uuid) : (orderId uuid).all isInstantChar = true := by
  have hhead : "order-".toList.all isInstantChar = true := by decide
  exact (List.all_append).trans (by rw [hhead, uuidChars_instantChars uuid.chars]; rfl)

theorem orderId_ne_nil (uuid : Uuid) : orderId uuid ≠ [] := by
  intro h
  have := orderId_length uuid
  rw [h] at this
  cases this

theorem clean_append {a b : Text} (ha : a.all isInstantChar = true)
    (hb : b.all isInstantChar = true) (hne : a ≠ []) : Clean (a ++ b) := by
  refine clean_of_instantChars ?_ fun h => hne (List.append_eq_nil_iff.mp h).1
  rw [List.all_append, ha, hb]
  rfl

theorem PaymentId.clean (id : PaymentId) : Clean id.text :=
  clean_append (by decide) (uuidChars_instantChars id.chars) (by decide)

theorem currency_instantChars {code : Text} (h : isCurrency code = true) :
    code.all isInstantChar = true := by
  unfold isCurrency at h
  rw [Bool.and_eq_true, decide_eq_true_eq] at h
  obtain ⟨-, hletters⟩ := h
  have hascii : Ascii code := by
    refine ascii_of_utf16 fun n hn => ?_
    have := of_decide_eq_true (List.all_eq_true.mp hletters n hn)
    omega
  rw [utf16_of_ascii hascii] at hletters
  refine List.all_eq_true.mpr fun c hc => isInstantChar_of_range ?_
  have := of_decide_eq_true (List.all_eq_true.mp hletters c.toNat (List.mem_map_of_mem hc))
  omega

theorem currency_clean {code : Text} (h : isCurrency code = true) : Clean code := by
  refine clean_of_instantChars (currency_instantChars h) fun hnil => ?_
  rw [hnil] at h
  cases h

/-- A text that Rust trimmed and that has no control characters. -/
theorem clean_of_trimmed {s t : Text} (hs : s = trim t) (h : boundedIdentifier s = true) :
    Clean s := by
  simp only [boundedIdentifier, Bool.and_eq_true, decide_eq_true_eq, Bool.not_eq_true'] at h
  obtain ⟨⟨hblank, -⟩, hcontrol⟩ := h
  have hends : EndsOutside isWhitespace s := hs ▸ trimMatches_ends isWhitespace t
  have hkeep : ∀ c ∈ s, isWhitespace c = false → isTrimmed c = false := by
    intro c hc hspace
    have hctl := List.any_eq_false.mp hcontrol c hc
    simp only [isWhitespace, isControl, isTrimmed, Bool.or_eq_false_iff, Bool.or_eq_true,
      decide_eq_false_iff_not, decide_eq_true_eq] at hspace hctl ⊢
    omega
  refine ⟨trimMatches_of_ends ⟨fun c hc => ?_, fun c hc => ?_⟩, not_isBlank hblank hcontrol⟩
  · exact hkeep c (List.mem_of_mem_head? hc) (hends.1 c hc)
  · exact hkeep c (List.mem_of_mem_getLast? hc) (hends.2 c hc)

theorem resolveTenantId_trimmed {baggage : List (Text × Text)} {requested tenantId : Text}
    (hne : trimIsEmpty requested = false)
    (h : resolveTenantId baggage requested = .ok tenantId) : tenantId = trim requested := by
  unfold resolveTenantId at h
  rw [hne] at h
  simp only [Bool.false_eq_true, if_false] at h
  split at h
  · cases h
  · rw [Option.some_or] at h
    simp only at h
    split at h
    · cases h
    · cases h
      rfl

/-- The tenant of an order that came in through the endpoint. -/
theorem tenant_clean {baggage baggage' : List (Text × Text)} {uuid uuid' : Text}
    {tenant : ApiResult Text} {raw input accepted : CheckoutInput}
    (hdoor : normalizeCheckoutInput baggage uuid tenant raw = .ok input)
    (haccept : acceptCheckout baggage' uuid' input = .ok accepted) : Clean accepted.tenantId := by
  obtain ⟨tenantId, -, h⟩ := bind_ok hdoor
  obtain ⟨sessionId, -, h⟩ := bind_ok h
  simp only at h
  split at h
  · cases h
  · obtain ⟨u, hvalid, h⟩ := bind_ok h
    cases h
    have htenant := (validateInput_ok hvalid).tenantId
    simp only [boundedIdentifier, Bool.and_eq_true, Bool.not_eq_true'] at htenant
    have hspec := acceptCheckout_spec haccept
    exact clean_of_trimmed (resolveTenantId_trimmed htenant.1.1 hspec.tenantId)
      (validateInput_ok hspec.valid).tenantId

/-! ## The stored payload -/

theorem noNul_of_bounded {s : Text} (h : boundedIdentifier s = true) :
    Json.noNul s = true := by
  simp only [boundedIdentifier, Bool.and_eq_true, Bool.not_eq_true'] at h
  refine List.all_eq_true.mpr fun c hc => ?_
  have hctl := List.any_eq_false.mp h.2 c hc
  simp only [isControl, Bool.or_eq_true, decide_eq_true_eq, not_or] at hctl
  rw [decide_eq_true_eq]
  omega

theorem noNul_of_instantChars {s : Text} (h : s.all isInstantChar = true) :
    Json.noNul s = true := by
  refine List.all_eq_true.mpr fun c hc => ?_
  have := List.all_eq_true.mp h c hc
  simp only [isInstantChar, isTrimmed, Bool.and_eq_true, Bool.not_eq_true',
    decide_eq_false_iff_not] at this
  rw [decide_eq_true_eq]
  omega

theorem noNul_orderNumber {tenantId : Text} (h : boundedIdentifier tenantId = true)
    (uuid : Uuid) : Json.noNul (orderNumber tenantId uuid) = true := by
  have htenant := noNul_of_bounded h
  have huuid := noNul_of_instantChars (uuidChars_instantChars uuid.chars)
  refine List.all_eq_true.mpr fun c hc => ?_
  rcases List.mem_append.mp hc with hc | hc
  · exact List.all_eq_true.mp htenant c (mem_of_mem_removeFrom hc)
  · rcases List.mem_cons.mp hc with rfl | hc
    · decide
    · exact List.all_eq_true.mp huuid c hc

theorem InI32.inI64 {n : Int} (h : InI32 n) : -2 ^ 63 ≤ n ∧ n < 2 ^ 63 := by
  unfold InI32 at h
  omega

section
variable {catalogue : Catalogue} {uuid : Uuid} {input : CheckoutInput} {quote : QuoteResponse}
  {order : PendingOrder}

theorem paidItem_plain (h : OrderSpec catalogue uuid input quote order) {line : OrderLine}
    (hl : line ∈ order.lines) : (paidItem line).Plain := by
  obtain ⟨item, hi, hof⟩ := exists_item h.lines hl
  obtain ⟨hsku, -, hquantity⟩ := (validateInput_ok h.valid).items item hi
  refine ⟨?_, ?_, ?_, ?_, trivial⟩
  · show (["sku", "quantity", "unit_price_minor"] : List String).Nodup
    decide
  · show Json.noNul line.sku = true
    rw [hof.sku]
    exact noNul_of_bounded hsku
  · show -2 ^ 63 ≤ (line.quantity : Int) ∧ (line.quantity : Int) < 2 ^ 63
    rw [hof.quantity]
    omega
  · exact hof.unitPrice.inI64

/-- Every value of the payload is one that PostgreSQL and the JSON libraries keep. -/
theorem paidMembers_plain (h : OrderSpec catalogue uuid input quote order) (payment : PaymentId) :
    (Json.object (paidMembers order payment.text)).Plain := by
  have hvalid := validateInput_ok h.valid
  have hid : Json.noNul order.id = true := by
    rw [h.id]
    exact noNul_of_instantChars (orderId_instantChars uuid)
  have hnumber : Json.noNul order.orderNumber = true := by
    rw [h.number]
    exact noNul_orderNumber hvalid.tenantId uuid
  have htenant : Json.noNul order.tenantId = true := by
    rw [h.tenantId]
    exact noNul_of_bounded hvalid.tenantId
  have hcustomer : Json.noNul order.customerId = true := by
    rw [h.customerId]
    exact noNul_of_bounded hvalid.customerId
  have hsession : Json.noNul order.sessionId = true :=
    noNul_of_bounded (hvalid.sessionId _ h.sessionId.symm)
  have hcurrency : Json.noNul order.currency = true := by
    rw [h.currency]
    exact noNul_of_instantChars (currency_instantChars (isCurrency_of_code hvalid.currency))
  have hpayment : Json.noNul payment.text = true := by
    refine noNul_of_instantChars ((List.all_append).trans ?_)
    have hhead : "pay_".toList.all isInstantChar = true := by decide
    rw [hhead, uuidChars_instantChars payment.chars]
    rfl
  have hcaptured : Json.noNul "captured".toList = true := by decide
  have hitems : Json.PlainItems (order.lines.map paidItem) := by
    refine Json.plainItems_of_forall fun item hi => ?_
    obtain ⟨line, hl, rfl⟩ := List.mem_map.mp hi
    exact paidItem_plain h hl
  obtain ⟨hsubtotal, hdiscount, htax, htotal⟩ := h.amounts
  refine ⟨?_, hid, hnumber, htenant, hcustomer, hsession, hcurrency, hsubtotal.inI64,
    hdiscount.inI64, htax.inI64, ⟨by decide, by decide⟩, htotal.inI64, hpayment, hcaptured,
    hitems, trivial⟩
  show (["order_id", "order_number", "tenant_id", "customer_id", "session_id", "currency",
    "subtotal_minor", "discount_minor", "tax_minor", "shipping_minor", "total_minor",
    "payment_id", "payment_status", "items"] : List String).Nodup
  decide

/-- The envelope is such a value too, around the payload that was read back. -/
theorem envelope_plain (h : OrderSpec catalogue uuid input quote order)
    (payment : PaymentId) (occurredAt : UtcMillis) {payload : Json} (hp : payload.Plain) :
    (Json.object (envelope (paidRow order payment.text occurredAt) payload)).Plain := by
  have hchars := orderId_instantChars uuid
  rw [← h.id] at hchars
  have hid : Json.noNul order.id = true := noNul_of_instantChars hchars
  have houtbox : Json.noNul ("outbox-".toList ++ order.id) = true := by
    have hhead : Json.noNul "outbox-".toList = true := by decide
    exact (List.all_append).trans (congrArg₂ and hhead hid)
  have hkey : Json.noNul (order.id ++ ":paid".toList) = true := by
    have hlast : Json.noNul ":paid".toList = true := by decide
    exact (List.all_append).trans (congrArg₂ and hid hlast)
  have htenant : Json.noNul order.tenantId = true := by
    rw [h.tenantId]
    exact noNul_of_bounded (validateInput_ok h.valid).tenantId
  have htype : Json.noNul "order.paid".toList = true := by decide
  have haggregate : Json.noNul "order".toList = true := by decide
  have hversion : -2 ^ 63 ≤ (1 : Int) ∧ (1 : Int) < 2 ^ 63 := by decide
  refine ⟨?_, houtbox, hkey, hversion, htenant, htype,
    noNul_of_instantChars occurredAt.text_instantChars, haggregate, hid, hp, trivial⟩
  show (["event_id", "event_key", "schema_version", "tenant_id", "event_type", "occurred_at",
    "aggregate_type", "aggregate_id", "payload"] : List String).Nodup
  decide

end

/-! ## What arrives -/

/-- The scalars of one object are those of another. -/
structure Carries (members members' : Members) : Prop where
  absent : ∀ name, Json.get members name = none → Json.get members' name = none
  text : ∀ name s, Json.get members name = some (.text s) → Json.get members' name = some (.text s)
  int : ∀ name n, Json.get members name = some (.int n) → Json.get members' name = some (.int n)

theorem Carries.trans {a b c : Members} (hab : Carries a b) (hbc : Carries b c) : Carries a c :=
  ⟨fun name h => hbc.absent name (hab.absent name h),
    fun name s h => hbc.text name s (hab.text name s h),
    fun name n h => hbc.int name n (hab.int name n h)⟩

theorem carries_of_same {members : Members} {j : Json} (h : Json.Same (.object members) j) :
    ∃ members', j = .object members' ∧ Carries members members' ∧
      ∀ name inner, Json.get members name = some (.object inner) →
        ∃ value, Json.get members' name = some value ∧ Json.Same (.object inner) value := by
  obtain ⟨members', rfl, hnone, hsome⟩ := h.members
  refine ⟨members', rfl, ⟨hnone, fun name s hs => ?_, fun name n hn => ?_⟩,
    fun name inner hi => hsome name _ hi⟩
  · obtain ⟨value, hv, hsame⟩ := hsome name _ hs
    rw [hv, hsame.text]
  · obtain ⟨value, hv, hsame⟩ := hsome name _ hn
    rw [hv, hsame.int]

section
variable {members members' : Members}

theorem Carries.optionalText (h : Carries members members') {name : String} {value : Text}
    (hget : Json.get members name = some (.text value)) :
    optionalText members' name = .ok (some (javaTrim value)) := by
  unfold Boundary.optionalText
  rw [h.text name value hget]

theorem Carries.requiredText (h : Carries members members') {name : String} {value : Text}
    (hget : Json.get members name = some (.text value)) (hclean : Clean value) :
    requiredText members' name = .ok value := by
  have hread := h.optionalText hget
  rw [hclean.1] at hread
  exact requiredText_of_optional hread hclean.2

theorem Carries.optionalText_none (h : Carries members members') {name : String}
    (hget : Json.get members name = none) : Boundary.optionalText members' name = .ok none := by
  unfold Boundary.optionalText
  rw [h.absent name hget]

/-- No name is new. -/
theorem Carries.names (h : Carries members members') {name : String}
    (hname : name ∈ members'.map Prod.fst) : Json.get members name ≠ none := by
  intro hnone
  have habsent := h.absent name hnone
  obtain ⟨member, hmem, rfl⟩ := List.mem_map.mp hname
  have := List.lookup_eq_none_iff.mp habsent member hmem
  simp at this

end

/-! ## The decoded event -/

section
variable {instants : InstantFormat} {order : PendingOrder} {payment : PaymentId}
  {occurredAt : UtcMillis}

/-- The event of a paid order, as fulfillment decodes it. -/
def paidEvent (order : PendingOrder) (instant : instants.Instant) (payload : Members) :
    CommerceEvent instants where
  eventId := "outbox-".toList ++ order.id
  eventKey := order.id ++ ":paid".toList
  schemaVersion := currentSchemaVersion
  tenantId := order.tenantId
  eventType := "order.paid".toList
  occurredAt := instant
  orderId := order.id
  customerId := some (javaTrim order.customerId)
  currency := some order.currency
  totalMinor := order.totalMinor
  paymentStatus := "captured".toList
  payload := payload
  entityType := "order".toList
  entityId := order.id
  context := []
  sessionId := none

/-- The texts of a paid order that fulfillment compares or requires. -/
structure PaidTexts (order : PendingOrder) : Prop where
  id : order.id.all isInstantChar = true
  idNe : order.id ≠ []
  tenantId : Clean order.tenantId
  currency : javaTrim order.currency = order.currency
  total : -2 ^ 63 ≤ order.totalMinor ∧ order.totalMinor < 2 ^ 63

theorem PaidTexts.orderId (h : PaidTexts order) : Clean order.id := clean_of_instantChars h.id h.idNe

theorem PaidTexts.eventId (h : PaidTexts order) : Clean ("outbox-".toList ++ order.id) :=
  clean_append (by decide) h.id (by decide)

theorem PaidTexts.eventKey (h : PaidTexts order) : Clean (order.id ++ ":paid".toList) :=
  clean_append h.id (by decide) h.idNe

theorem paidType_clean : Clean "order.paid".toList := ⟨by decide, by decide⟩

theorem orderType_clean : Clean "order".toList := ⟨by decide, by decide⟩

/-- What is read of the payload. -/
theorem paid_payloadReads (h : PaidTexts order) {payload : Members}
    (hc : Carries (paidMembers order payment.text) payload) :
    PayloadReads "order.paid".toList "order".toList order.id payload order.id
      (some (javaTrim order.customerId)) (some order.currency) "captured".toList
      order.totalMinor := by
  have horderType : isOneOf orderAggregateEventTypes "order.paid".toList = true := by
    decide
  have hnotPayment : isOneOf paymentEventTypes "order.paid".toList = false := by decide
  have hcaptured : javaTrim "captured".toList = "captured".toList := by decide
  have horder := hc.optionalText (show Json.get _ "order_id" = _ from rfl)
  rw [h.orderId.1] at horder
  have hcurrency := hc.optionalText (show Json.get _ "currency" = _ from rfl)
  rw [h.currency] at hcurrency
  have hstatus := hc.optionalText (show Json.get _ "payment_status" = _ from rfl)
  rw [hcaptured] at hstatus
  have horderId : orderIdOf "order.paid".toList "order".toList order.id payload
      (some order.id) = .ok order.id := by
    unfold orderIdOf
    rw [if_pos horderType, if_neg (not_not.mpr rfl)]
    show (if isBlank order.id then _ else _) = _
    rw [h.orderId.2]
    exact if_neg (not_not.mpr rfl)
  have hamount : longField payload "total_minor" = .ok (some order.totalMinor) := by
    unfold longField
    rw [hc.int "total_minor" order.totalMinor rfl]
    exact if_pos h.total
  refine ⟨⟨_, horder, horderId⟩, hc.optionalText rfl, hcurrency,
    ⟨_, some "captured".toList, hstatus, rfl, rfl, ?_⟩, ?_⟩
  · unfold checkPayment
    rw [hnotPayment]
    rfl
  · unfold totalMinorOf
    rw [hnotPayment]
    show optionalLong payload ["total_minor", "amount_minor"] = _
    unfold optionalLong
    rw [hamount]
    rfl

/-- What is read of the envelope. -/
theorem paid_decodes (h : PaidTexts order) {stored : Json} {root payload : Members}
    (hroot : Carries (envelope (paidRow order payment.text occurredAt) stored) root)
    (hpayload : Json.get root "payload" = some (.object payload))
    (hc : Carries (paidMembers order payment.text) payload) {instant : instants.Instant}
    (hinstant : instants.parse occurredAt.text = some instant) :
    Decodes root (paidEvent order instant payload) := by
  have hfields : checkEnvelopeFields root = .ok () := by
    refine checkEnvelopeFields_of_keys fun name hname => ?_
    have hnames : ∀ n ∈ ["event_id", "event_key", "schema_version", "tenant_id", "event_type",
        "occurred_at", "aggregate_type", "aggregate_id", "payload"], n ∈ envelopeFields := by
      decide
    exact hnames name (by_contra fun hnot => hroot.names hname (get_absent hnot))
  have hschema : schemaVersionOf root = .ok currentSchemaVersion := by
    unfold schemaVersionOf requiredInt
    rw [hroot.int "schema_version" 1 rfl]
    rfl
  have hoccurred : requiredInstant instants root "occurred_at" = .ok instant := by
    unfold requiredInstant
    rw [hroot.requiredText rfl
      (clean_of_instantChars occurredAt.text_instantChars occurredAt.text_ne_nil)]
    simp only [bind, Except.bind, hinstant]
    rfl
  have hread : payloadOf root = .ok payload := by
    unfold payloadOf
    rw [hpayload]
  have hcontext : contextOf root = .ok [] := by
    unfold contextOf
    rw [hroot.absent "context" rfl]
  exact ⟨hfields, hread, hroot.requiredText rfl h.eventId, hroot.requiredText rfl h.eventKey,
    hschema, hroot.requiredText rfl h.tenantId, hroot.requiredText rfl paidType_clean, hoccurred,
    hroot.requiredText rfl orderType_clean, hroot.requiredText rfl h.orderId,
    ⟨none, none, hroot.optionalText_none rfl, hroot.optionalText_none rfl, rfl⟩, hcontext,
    hroot.optionalText_none rfl, paid_payloadReads h hc⟩

end

/-! ## The broker identity -/

theorem lookup_propagation (p : Propagation) {name : String}
    (h : name ∉ ["traceparent", "tracestate", "baggage"]) : p.headers.lookup name = none := by
  refine List.lookup_eq_none_iff.mpr fun header hmem => ?_
  have hname : header.1 ∈ ["traceparent", "tracestate", "baggage"] := by
    simp only [Propagation.headers, List.mem_append, List.mem_map] at hmem
    rcases hmem with (⟨v, -, rfl⟩ | ⟨v, -, rfl⟩) | ⟨v, -, rfl⟩ <;> simp
  rw [bne_iff_ne]
  exact fun heq => h (heq ▸ hname)

theorem headerText_append (p : Propagation) {headers : List (String × Text)} {name : String}
    (h : name ∉ ["traceparent", "tracestate", "baggage"]) :
    headerText (p.headers ++ headers) name = headerText headers name := by
  unfold headerText
  rw [List.lookup_append, lookup_propagation p h, Option.none_or]

theorem requireHeader_of {value : Text} (h : isBlank value = false) (name : String) :
    requireHeader value name = .ok () := by
  unfold requireHeader
  rw [h]
  rfl

theorem assertIdentity_of {value : Text} (h : javaTrim value = value) (name : String) :
    assertIdentity name value value = .ok () := by
  unfold assertIdentity
  rw [h]
  exact if_neg (not_not.mpr rfl)

section
variable {instants : InstantFormat} {event : CommerceEvent instants}
  {headers : List (String × Text)}

theorem checkIdentityHeaders_of (hkey : headerText headers "event-key" = event.eventKey)
    (htype : headerText headers "event-type" = event.eventType)
    (htenant : headerText headers "tenant-id" = event.tenantId) (hk : Clean event.eventKey)
    (ht : Clean event.eventType) (hn : Clean event.tenantId) :
    checkIdentityHeaders event headers = .ok () := by
  unfold checkIdentityHeaders
  split
  · rw [hkey, htype, htenant, requireHeader_of hk.2, requireHeader_of ht.2, requireHeader_of hn.2,
      assertIdentity_of hk.1, assertIdentity_of ht.1, assertIdentity_of hn.1]
    rfl
  · rfl

/-- Headers that say what the event says, with the event id as message id. -/
theorem validateHeaders_of (hkey : headerText headers "event-key" = event.eventKey)
    (htype : headerText headers "event-type" = event.eventType)
    (htenant : headerText headers "tenant-id" = event.tenantId) (hk : Clean event.eventKey)
    (ht : Clean event.eventType) (hn : Clean event.tenantId) (hid : Clean event.eventId)
    (hnone : headers.lookup "message-id" = none) :
    validateHeaders event headers (some event.eventId) = .ok () := by
  have hheader : checkMessageIdHeader event headers = .ok () := by
    unfold checkMessageIdHeader
    rw [hnone]
    rfl
  have hproperty : checkMessageId event headers (some event.eventId) = .ok () := by
    unfold checkMessageId
    simp only
    rw [hid.1, requireHeader_of hid.2, assertIdentity_of hid.1, hnone]
    rfl
  unfold validateHeaders
  rw [checkIdentityHeaders_of hkey htype htenant hk ht hn, hheader]
  exact hproperty

end

/-! ## From checkout to fulfillment -/

theorem paidTexts_of_spec {catalogue : Catalogue} {uuid : Uuid} {input : CheckoutInput}
    {quote : QuoteResponse} {order : PendingOrder}
    (h : OrderSpec catalogue uuid input quote order) (htenant : Clean input.tenantId) :
    PaidTexts order := by
  have hcurrency := isCurrency_of_code (validateInput_ok h.valid).currency
  refine ⟨?_, ?_, ?_, ?_, h.amounts.2.2.2.inI64⟩
  · rw [h.id]
    exact orderId_instantChars uuid
  · rw [h.id]
    exact orderId_ne_nil uuid
  · rw [h.tenantId]
    exact htenant
  · rw [h.currency]
    exact (currency_clean hcurrency).1

/-- The message that is sent, and the values fulfillment reads in it. -/
theorem paid_arrives {mapper : ObjectMapper} (wire : Wire mapper) (propagation : Propagation)
    {catalogue : Catalogue} {uuid : Uuid} {input : CheckoutInput} {quote : QuoteResponse}
    {order : PendingOrder} (h : OrderSpec catalogue uuid input quote order) (payment : PaymentId)
    (occurredAt : UtcMillis) :
    ∃ delivery stored root payload,
      publishOutboxMessage wire propagation (paidRow order payment.text occurredAt) =
        some delivery ∧
      delivery.exchange = exchange ∧ delivery.routingKey = "order.paid".toList ∧
      delivery.messageId = "outbox-".toList ++ order.id ∧
      delivery.headers = propagation.headers ++ [("event-key", order.id ++ ":paid".toList),
        ("event-type", "order.paid".toList), ("tenant-id", order.tenantId)] ∧
      mapper.readTree delivery.body = .value (.object root) ∧
      Carries (envelope (paidRow order payment.text occurredAt) stored) root ∧
      Json.get root "payload" = some (.object payload) ∧
      Carries (paidMembers order payment.text) payload := by
  obtain ⟨stored, hstored, hsame, hplain⟩ := wire.stored_same _ (paidMembers_plain h payment)
  obtain ⟨members, rfl, hcarries, -⟩ := carries_of_same hsame
  obtain ⟨read, hread, hsent⟩ := wire.read_toVec _ (envelope_plain h payment occurredAt hplain)
  obtain ⟨root, rfl, hroot, hinner⟩ := carries_of_same hsent
  obtain ⟨value, hvalue, hpayload⟩ := hinner "payload" members rfl
  obtain ⟨payload, rfl, hagain, -⟩ := carries_of_same hpayload
  have hsend : publishOutboxMessage wire propagation (paidRow order payment.text occurredAt) =
      some ⟨exchange, "order.paid".toList, "outbox-".toList ++ order.id,
        propagation.headers ++ [("event-key", order.id ++ ":paid".toList),
          ("event-type", "order.paid".toList), ("tenant-id", order.tenantId)],
        wire.toVec (.object (envelope (paidRow order payment.text occurredAt)
          (.object members)))⟩ := by
    unfold publishOutboxMessage
    show (wire.stored (.object (paidMembers order payment.text)) >>= _) = _
    rw [hstored]
    rfl
  exact ⟨_, .object members, root, payload, hsend, rfl, rfl, rfl, rfl, hread, hroot, hvalue,
    hcarries.trans hagain⟩

theorem validateRetryRoute_of {instants : InstantFormat} {event : CommerceEvent instants}
    {route : RabbitDeliveryRoute} (hexchange : route.receivedExchange = eventsExchange)
    (horiginal : isBlank route.originalExchange = true ∧ isBlank route.originalRoutingKey = true)
    (hkey : route.receivedRoutingKey = event.eventType) (ht : isBlank event.eventType = false)
    (retryRoutingKey : Text) : validateRetryRoute route event retryRoutingKey = .ok () := by
  unfold validateRetryRoute
  rw [if_pos hexchange, horiginal.1, horiginal.2, hkey, ht]
  simp

/-- A paid order reaches fulfillment: the message of its outbox row is decoded and
its route accepted, on every queue, and what fulfillment reads is what checkout
wrote. -/
theorem paid_event_received (mapper : ObjectMapper) (instants : InstantFormat)
    (wire : Wire mapper) (propagation : Propagation) (catalogue : Catalogue)
    (baggage baggage' : List (Text × Text)) (requestUuid acceptUuid : Text)
    (tenant : ApiResult Text) (request input accepted : CheckoutInput) (quote : QuoteResponse)
    (uuid : Uuid) (order : PendingOrder) (payment : PaymentId) (occurredAt : UtcMillis)
    (retryRoutingKey : Text)
    (hdoor : normalizeCheckoutInput baggage requestUuid tenant request = .ok input)
    (haccept : acceptCheckout baggage' acceptUuid input = .ok accepted)
    (horder : createPendingOrder catalogue uuid accepted quote = .ok order) :
    ∃ delivery event,
      publishOutboxMessage wire propagation (paidRow order payment.text occurredAt) =
        some delivery ∧
      parse mapper instants delivery.body delivery.headers (some delivery.messageId) =
        .ok event ∧
      validateRetryRoute (routeFrom delivery) event retryRoutingKey = .ok () ∧
      event.eventKey = (paidRow order payment.text occurredAt).eventKey ∧
      event.eventId = delivery.messageId ∧
      delivery.messageId = (paidRow order payment.text occurredAt).id ∧
      event.tenantId = order.tenantId ∧ event.orderId = order.id ∧
      event.totalMinor = order.totalMinor ∧ event.currency = some order.currency ∧
      event.paymentStatus = "captured".toList ∧ event.paymentId = .ok (some payment.text) := by
  have hspec := createPendingOrder_spec horder
  have htexts := paidTexts_of_spec hspec (tenant_clean hdoor haccept)
  obtain ⟨instant, hinstant⟩ := instants.parse_millis occurredAt
  obtain ⟨delivery, stored, root, payload, hpublish, hexchange, hkey, hid, hheaders, hread, hroot,
    hpayload, hcarries⟩ := paid_arrives wire propagation hspec payment occurredAt
  have hdecodes : Decodes root (paidEvent order instant payload) :=
    paid_decodes htexts hroot hpayload hcarries hinstant
  refine ⟨delivery, paidEvent order instant payload, hpublish, ?_, ?_, rfl, hid.symm, hid, rfl,
    rfl, rfl, rfl, rfl, ?_⟩
  · have hnames : "event-key" ∉ ["traceparent", "tracestate", "baggage"] ∧
        "event-type" ∉ ["traceparent", "tracestate", "baggage"] ∧
        "tenant-id" ∉ ["traceparent", "tracestate", "baggage"] ∧
        "message-id" ∉ ["traceparent", "tracestate", "baggage"] := by decide
    have hheader : validateHeaders (paidEvent order instant payload) delivery.headers
        (some ("outbox-".toList ++ order.id)) = .ok () := by
      rw [hheaders]
      refine validateHeaders_of ?_ ?_ ?_ htexts.eventKey paidType_clean htexts.tenantId
        htexts.eventId ?_
      · exact (headerText_append propagation hnames.1).trans htexts.eventKey.1
      · exact (headerText_append propagation hnames.2.1).trans paidType_clean.1
      · exact (headerText_append propagation hnames.2.2.1).trans htexts.tenantId.1
      · rw [List.lookup_append, lookup_propagation propagation hnames.2.2.2]
        rfl
    unfold parse
    rw [hread, hid]
    show (fromRoot instants root >>= fun event => validateHeaders event delivery.headers
      (some ("outbox-".toList ++ order.id)) >>= fun _ => pure event) = _
    rw [hdecodes.fromRoot]
    show (validateHeaders (paidEvent order instant payload) _ _ >>= fun _ => _) = _
    rw [hheader]
    rfl
  · have htrim : javaTrim exchange = eventsExchange := by decide
    have hnames : "x-commerce-original-exchange" ∉ ["traceparent", "tracestate", "baggage"] ∧
        "x-commerce-original-routing-key" ∉ ["traceparent", "tracestate", "baggage"] := by decide
    refine validateRetryRoute_of ?_ ⟨?_, ?_⟩ ?_ paidType_clean.2 retryRoutingKey
    · show javaTrim delivery.exchange = _
      rw [hexchange]
      exact htrim
    · show isBlank (headerText delivery.headers _) = true
      rw [hheaders, headerText_append propagation hnames.1]
      rfl
    · show isBlank (headerText delivery.headers _) = true
      rw [hheaders, headerText_append propagation hnames.2]
      rfl
    · show javaTrim delivery.routingKey = _
      rw [hkey]
      exact paidType_clean.1
  · have hread := hcarries.optionalText (show Json.get _ "payment_id" = _ from rfl)
    rw [payment.clean.1] at hread
    exact hread

/-! An order of one line, over a wire that carries the tree itself. -/

def treeWire : Wire treeMapper where
  stored j := some j
  toVec j := j
  stored_same j h := ⟨j, rfl, .refl j, h⟩
  read_toVec j h := by
    refine ⟨j, ?_, .refl j⟩
    show (if j.Distinct then ReadTree.value j.quoted else .malformed) = _
    rw [if_pos (Json.Plain.distinct j h), Json.Plain.quoted j h]

def samplePayment : PaymentId where
  digest := List.replicate 64 'a'
  length := List.length_replicate
  chars := by decide

def sampleTime : UtcMillis where
  year := 2026
  month := 10
  day := 1
  hour := 0
  minute := 0
  second := 0
  milli := 0
  valid := by decide

theorem paid_event_received_sample : ∃ delivery event,
    publishOutboxMessage treeWire ⟨none, none, none⟩
        (paidRow (sampleOrder 1000) samplePayment.text sampleTime) = some delivery ∧
      parse treeMapper textInstants delivery.body delivery.headers (some delivery.messageId) =
        .ok event ∧
      event.orderId = (sampleOrder 1000).id ∧ event.totalMinor = 1000 := by
  obtain ⟨delivery, event, hpublish, hparse, -, -, -, -, -, horder, htotal, -⟩ :=
    paid_event_received treeMapper textInstants treeWire ⟨none, none, none⟩ sampleCatalogue [] []
      sampleUuid.text sampleUuid.text (.ok "tenant-acme".toList) (sampleCheckout "request-1")
      (sampleCheckout "request-1") (sampleCheckout "request-1") (sampleQuote 1000) sampleUuid
      (sampleOrder 1000) samplePayment sampleTime "fulfillment.orders.retry".toList
      (by decide) (by decide) (by decide)
  exact ⟨delivery, event, hpublish, hparse, horder, htotal⟩

end CommercePlayground.Boundary
