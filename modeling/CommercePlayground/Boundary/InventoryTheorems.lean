/-
CommercePlayground.Boundary.InventoryTheorems — when inventory accepts what
checkout accepted.

Both services bound an identifier to 128 bytes, but checkout lets every text
without control characters through and inventory only its own alphabet. Each
check of inventory is stated once as a condition on the texts; what an accepted
checkout already guarantees drops out, and what is left is the alphabet and the
length of the reservation ids.
-/
import CommercePlayground.Boundary.Inventory

namespace CommercePlayground.Boundary

open Lib Pricing

/-! ## The checks, as conditions -/

theorem seq_ok {x y : Validation} : (x >>= fun _ => y) = .ok () ↔ x = .ok () ∧ y = .ok () := by
  cases x with
  | error e =>
    constructor
    · intro h
      cases h
    · intro h
      cases h.1
  | ok u => exact ⟨fun h => ⟨rfl, h⟩, fun h => h.2⟩

/-- What `validate_identifier` asks. -/
def IsIdentifier (value : Text) : Prop :=
  value ≠ [] ∧ (utf8 value).length ≤ 128 ∧ InAlphabet value

theorem validateIdentifier_iff {value : Text} {field : String} :
    validateIdentifier value field = .ok () ↔ IsIdentifier value := by
  unfold validateIdentifier IsIdentifier InAlphabet
  split
  · rename_i h
    simp [List.isEmpty_iff.mp h]
  · rename_i hne
    split
    · rename_i hlong
      constructor
      · intro h
        cases h
      · intro h
        omega
    · rename_i hshort
      split
      · rename_i hbad
        constructor
        · intro h
          cases h
        · intro h
          rw [h.2.2] at hbad
          cases hbad
      · rename_i hgood
        refine ⟨fun _ => ⟨fun h => hne (by simp [h]), Nat.not_lt.mp hshort, ?_⟩, fun _ => rfl⟩
        simpa using hgood

theorem validateQuantity_iff {quantity most : Nat} {excess : String} :
    validateQuantity quantity most excess = .ok () ↔ quantity ≠ 0 ∧ quantity ≤ most := by
  unfold validateQuantity
  split
  · rename_i hzero
    constructor
    · intro h
      cases h
    · intro h
      exact absurd hzero h.1
  · rename_i hpos
    split
    · constructor
      · intro h
        cases h
      · intro h
        omega
    · exact ⟨fun _ => ⟨hpos, by omega⟩, fun _ => rfl⟩

theorem validateFenceFields_iff {requestId token : Text} :
    validateFenceFields (some requestId) (some token) = .ok () ↔
      IsIdentifier requestId ∧ IsIdentifier token := by
  simp only [validateFenceFields, seq_ok, validateIdentifier_iff]

theorem validateReserve_iff {order : PendingOrder} {fence : Fence} {line : OrderLine} :
    validateReserve (reserveRequest order fence line) = .ok () ↔
      IsIdentifier order.tenantId ∧ IsIdentifier (reservationId order line) ∧
        IsIdentifier line.sku ∧ (line.quantity ≠ 0 ∧ line.quantity ≤ 1000000) ∧
        IsIdentifier fence.requestId ∧ IsIdentifier fence.token.text := by
  simp only [validateReserve, reserveRequest, seq_ok, validateIdentifier_iff,
    validateQuantity_iff, validateFenceFields_iff, maxReserveQuantity]

theorem validateRelease_iff {order : PendingOrder} {fence : Fence} {r : InventoryReservation} :
    validateRelease (releaseRequest order fence r) = .ok () ↔
      IsIdentifier order.tenantId ∧ IsIdentifier r.reservationId ∧ IsIdentifier r.sku ∧
        (r.quantity ≠ 0 ∧ r.quantity ≤ 1000000) ∧ validateLocation r.locationId = .ok () ∧
        IsIdentifier fence.requestId ∧ IsIdentifier fence.token.text := by
  simp only [validateRelease, releaseRequest, seq_ok, validateIdentifier_iff,
    validateQuantity_iff, validateFenceFields_iff, maxReleaseQuantity]

/-! ## Identifiers that checkout makes -/

theorem inAlphabet_append {a b : Text} :
    InAlphabet (a ++ b) ↔ InAlphabet a ∧ InAlphabet b := by
  unfold InAlphabet utf8
  rw [List.flatMap_append, List.all_append, Bool.and_eq_true]

theorem isUuidChar_spec {c : Char} (h : isUuidChar c = true) :
    c.toNat < 128 ∧ isIdentifierByte c.toNat = true := by
  simp only [isUuidChar, Bool.or_eq_true, decide_eq_true_eq] at h
  rcases h with (h | h) | rfl
  · refine ⟨by omega, ?_⟩
    simp [isIdentifierByte, h]
  · refine ⟨by omega, ?_⟩
    have hletter : isAsciiAlphabetic c.toNat = true := by
      simp only [isAsciiAlphabetic, Bool.or_eq_true, decide_eq_true_eq]
      omega
    simp [isIdentifierByte, hletter]
  · exact ⟨by decide, by decide⟩

theorem Uuid.ascii (uuid : Uuid) : Ascii uuid.text := fun c hc =>
  (isUuidChar_spec (List.all_eq_true.mp uuid.chars c hc)).1

theorem Uuid.utf8_length (uuid : Uuid) : (utf8 uuid.text).length = 36 := by
  rw [utf8_of_ascii uuid.ascii, codes, List.length_map, uuid.length]

theorem Uuid.inAlphabet (uuid : Uuid) : InAlphabet uuid.text := by
  unfold InAlphabet
  rw [utf8_of_ascii uuid.ascii, codes, List.all_map]
  refine List.all_eq_true.mpr fun c hc => ?_
  exact (isUuidChar_spec (List.all_eq_true.mp uuid.chars c hc)).2

theorem Uuid.isIdentifier (uuid : Uuid) : IsIdentifier uuid.text := by
  refine ⟨fun h => ?_, by rw [uuid.utf8_length]; decide, uuid.inAlphabet⟩
  have := uuid.length
  rw [h] at this
  cases this

/-- An identifier that begins with one. -/
theorem isIdentifier_append {head tail : Text} {n : Nat} (hne : head ≠ [])
    (hlen : (utf8 head).length = n) (halpha : InAlphabet head) :
    IsIdentifier (head ++ tail) ↔ InAlphabet tail ∧ (utf8 tail).length + n ≤ 128 := by
  unfold IsIdentifier
  rw [inAlphabet_append, utf8_length_append, hlen]
  constructor
  · rintro ⟨-, hle, -, htail⟩
    exact ⟨htail, by omega⟩
  · rintro ⟨htail, hle⟩
    exact ⟨by simp [hne], by omega, halpha, htail⟩

theorem orderId_length (uuid : Uuid) : (utf8 (orderId uuid)).length = 42 := by
  have hhead : (utf8 "order-".toList).length = 6 := by decide
  exact (utf8_length_append _ _).trans (congrArg₂ (· + ·) hhead uuid.utf8_length)

theorem orderId_inAlphabet (uuid : Uuid) : InAlphabet (orderId uuid) :=
  inAlphabet_append.mpr ⟨by decide, uuid.inAlphabet⟩

/-- A reservation id adds 55 bytes to the variant. -/
theorem isIdentifier_reservationId {order : PendingOrder} {uuid : Uuid} {line : OrderLine}
    (h : order.id = orderId uuid) : IsIdentifier (reservationId order line) ↔
      InAlphabet line.variantId ∧ (utf8 line.variantId).length + 55 ≤ 128 := by
  have hhead : (utf8 "reservation-".toList).length = 12 := by decide
  have hmark : (utf8 ['-']).length = 1 := by decide
  have hsplit : reservationId order line =
      ("reservation-".toList ++ order.id ++ ['-']) ++ line.variantId :=
    List.append_cons _ _ _
  rw [hsplit]
  refine isIdentifier_append (fun hnil => ?_) ?_ ?_
  · exact absurd (List.append_eq_nil_iff.mp hnil).2 (List.cons_ne_nil _ _)
  · have hid : (utf8 order.id).length = 42 := by rw [h, orderId_length]
    exact (utf8_length_append _ _).trans
      (congrArg₂ (· + ·) ((utf8_length_append _ _).trans (congrArg₂ (· + ·) hhead hid)) hmark)
  · have hid : InAlphabet order.id := h ▸ orderId_inAlphabet uuid
    exact inAlphabet_append.mpr ⟨inAlphabet_append.mpr ⟨by decide, hid⟩,
      by decide⟩

/-! ## What an accepted checkout guarantees -/

theorem isIdentifier_of_bounded {value : Text} (h : boundedIdentifier value = true) :
    IsIdentifier value ↔ InAlphabet value := by
  simp only [boundedIdentifier, Bool.and_eq_true, decide_eq_true_eq] at h
  obtain ⟨⟨hblank, hlen⟩, -⟩ := h
  refine ⟨fun hid => hid.2.2, fun halpha => ⟨fun hnil => ?_, hlen, halpha⟩⟩
  rw [hnil] at hblank
  cases hblank

/-- The items of a valid input. -/
theorem validateItems_ok {skus : List Text} {items : List CheckoutItemInput}
    (h : validateItems skus items = .ok ()) :
    (items.map CheckoutItemInput.sku).Nodup ∧ ∀ item ∈ items, item.sku ∉ skus ∧
      boundedIdentifier item.sku = true ∧ item.quantity ≠ 0 ∧ item.quantity ≤ 100 := by
  induction items generalizing skus with
  | nil => exact ⟨List.nodup_nil, fun _ hi => absurd hi List.not_mem_nil⟩
  | cons item items ih =>
    unfold validateItems at h
    split at h
    · cases h
    · rename_i hsku
      split at h
      · cases h
      · rename_i hquantity
        split at h
        · cases h
        · rename_i hnew
          obtain ⟨hnodup, hrest⟩ := ih h
          constructor
          · rw [List.map_cons, List.nodup_cons]
            refine ⟨fun hmem => ?_, hnodup⟩
            obtain ⟨i, hi, heq⟩ := List.mem_map.mp hmem
            exact (hrest i hi).1 (heq ▸ List.mem_cons_self)
          · intro i hi
            rcases List.mem_cons.mp hi with rfl | hi
            · unfold maxQuantity at hquantity
              exact ⟨by simpa using hnew, by simpa using hsku, by omega, by omega⟩
            · obtain ⟨hfresh, hfacts⟩ := hrest i hi
              exact ⟨fun hmem => hfresh (List.mem_cons_of_mem _ hmem), hfacts⟩

/-- What a valid input guarantees. -/
structure ValidInput (input : CheckoutInput) : Prop where
  tenantId : boundedIdentifier input.tenantId = true
  customerId : boundedIdentifier input.customerId = true
  sessionId : ∀ value, input.sessionId = some value → boundedIdentifier value = true
  requestId : ∀ value, input.requestId = some value → boundedIdentifier value = true
  currency : Pricing.isCurrencyCode input.currencyCode = true
  nonempty : input.items ≠ []
  count : input.items.length ≤ 50
  nodup : (input.items.map CheckoutItemInput.sku).Nodup
  items : ∀ item ∈ input.items,
    boundedIdentifier item.sku = true ∧ item.quantity ≠ 0 ∧ item.quantity ≤ 100

theorem validateInput_ok {input : CheckoutInput} (h : validateInput input = .ok ()) :
    ValidInput input := by
  unfold validateInput at h
  split at h
  · cases h
  · rename_i hidentity
    rw [Bool.not_eq_true, Bool.or_eq_false_iff, Bool.not_eq_false', Bool.not_eq_false'] at hidentity
    split at h
    · cases h
    · rename_i hsession
      split at h
      · cases h
      · split at h
        · cases h
        · rename_i hrequest
          split at h
          · cases h
          · split at h
            · cases h
            · rename_i hcurrency
              split at h
              · cases h
              · rename_i hitems
                rw [Bool.not_eq_true, Bool.or_eq_false_iff, decide_eq_false_iff_not] at hitems
                obtain ⟨hnodup, hfacts⟩ := validateItems_ok h
                unfold maxItems at hitems
                refine ⟨hidentity.1, hidentity.2, fun value hv => ?_, fun value hv => ?_,
                  by simpa using hcurrency, fun hnil => ?_, by omega, hnodup,
                  fun item hi => (hfacts item hi).2⟩
                · rw [hv] at hsession
                  simpa using hsession
                · rw [hv] at hrequest
                  simpa using hrequest
                · rw [hnil] at hitems
                  cases hitems.1

theorem exists_item {catalogue : Catalogue} {items : List CheckoutItemInput}
    {lines : List OrderLine} (h : List.Forall₂ (LineOf catalogue) items lines)
    {line : OrderLine} (hl : line ∈ lines) : ∃ item ∈ items, LineOf catalogue item line := by
  induction h with
  | nil => exact absurd hl List.not_mem_nil
  | cons hof _ ih =>
    rcases List.mem_cons.mp hl with rfl | hl
    · exact ⟨_, List.mem_cons_self, hof⟩
    · obtain ⟨item, hi, hof⟩ := ih hl
      exact ⟨item, List.mem_cons_of_mem _ hi, hof⟩

/-- The lines of an order are of different variants. -/
theorem variants_nodup {catalogue : Catalogue} {items : List CheckoutItemInput}
    {lines : List OrderLine} (h : List.Forall₂ (LineOf catalogue) items lines)
    (hnodup : (items.map CheckoutItemInput.sku).Nodup) :
    (lines.map OrderLine.variantId).Nodup := by
  induction h with
  | nil => exact List.nodup_nil
  | @cons item line items lines hof hrest ih =>
    rw [List.map_cons, List.nodup_cons] at hnodup ⊢
    refine ⟨fun hmem => ?_, ih hnodup.2⟩
    obtain ⟨other, hother, heq⟩ := List.mem_map.mp hmem
    obtain ⟨item', hitem', hof'⟩ := exists_item hrest hother
    obtain ⟨row, hrow, hsku, hid⟩ := hof.variant
    obtain ⟨row', hrow', hsku', hid'⟩ := hof'.variant
    -- the same variant is the same row, and so the same SKU
    have hsame : row = row' :=
      List.inj_on_of_nodup_map catalogue.ids hrow hrow' (hid.trans (heq.symm.trans hid'.symm))
    rw [← hsku, hsame, hsku'] at hnodup
    exact hnodup.1 (List.mem_map_of_mem hitem')

/-- What an accepted checkout guarantees of its lines. -/
structure SoundLines (order : PendingOrder) : Prop where
  nonempty : order.lines ≠ []
  count : order.lines.length ≤ 50
  nodup : (order.lines.map OrderLine.variantId).Nodup
  lines : ∀ line ∈ order.lines,
    boundedIdentifier line.sku = true ∧ line.quantity ≠ 0 ∧ line.quantity ≤ 1000000

theorem OrderSpec.soundLines {catalogue : Catalogue} {uuid : Uuid} {input : CheckoutInput}
    {quote : QuoteResponse} {order : PendingOrder}
    (h : OrderSpec catalogue uuid input quote order) : SoundLines order := by
  have hvalid := validateInput_ok h.valid
  have hlength := h.lines.length_eq
  refine ⟨fun hnil => ?_, by rw [← hlength]; exact hvalid.count,
    variants_nodup h.lines hvalid.nodup, fun line hl => ?_⟩
  · rw [hnil, List.length_nil, List.length_eq_zero_iff] at hlength
    exact hvalid.nonempty hlength
  · obtain ⟨item, hi, hof⟩ := exists_item h.lines hl
    obtain ⟨hsku, hpos, hle⟩ := hvalid.items item hi
    rw [hof.sku, hof.quantity]
    exact ⟨hsku, hpos, by omega⟩

/-! ## Reservations -/

theorem parse_some {order : PendingOrder} {line : OrderLine}
    {response : InventoryReserveResponse} {r : InventoryReservation}
    (h : parseInventoryReservation order line response = some r) :
    r = ⟨reservationId order line, line.sku, line.quantity, some response.locationId⟩ ∧
      trimIsEmpty response.locationId = false := by
  unfold parseInventoryReservation at h
  split at h
  · cases h
  · rename_i hok
    cases h
    simp only [ne_eq, not_or, not_not, Bool.not_eq_true] at hok
    obtain ⟨-, hid, hsku, hquantity, hlocation, -, -⟩ := hok
    exact ⟨by rw [hid, hsku, hquantity], hlocation⟩

/-- Inventory can confirm a line at every location that has a name. -/
theorem confirmed_at {order : PendingOrder} {locations : List Text} {location : Text}
    (hl : location ∈ locations) (hblank : trimIsEmpty location = false) (line : OrderLine) :
    Confirmed order locations line
      ⟨reservationId order line, line.sku, line.quantity, some location⟩ := by
  refine ⟨⟨order.tenantId, reservationId order line, line.sku, line.quantity, location, 0,
    .reserved⟩, hl, ?_⟩
  simp [parseInventoryReservation, hblank]

theorem validateLocation_of_confirmed {order : PendingOrder} {requestId : Text}
    {locations : List Text} (hnames : InventoryNames order requestId locations)
    {line : OrderLine} {r : InventoryReservation} (h : Confirmed order locations line r) :
    validateLocation r.locationId = .ok () := by
  obtain ⟨response, hmem, hparse⟩ := h
  obtain ⟨rfl, hblank⟩ := parse_some hparse
  obtain ⟨halpha, hlen⟩ := hnames.locations _ hmem hblank
  refine validateIdentifier_iff.mpr ⟨fun hnil => ?_, hlen, halpha⟩
  rw [hnil] at hblank
  cases hblank

/-- One reservation of a consume request. -/
theorem validateConsumeReservation_ok {r : ConsumeReservation}
    (hid : IsIdentifier r.reservationId) (hsku : IsIdentifier r.sku) (hpos : r.quantity ≠ 0)
    (hle : r.quantity ≤ 1000000) (hlocation : validateLocation r.locationId = .ok ()) :
    validateConsumeReservation r = .ok () := by
  unfold validateConsumeReservation
  rw [validateIdentifier_iff.mpr hid, validateIdentifier_iff.mpr hsku]
  show (if _ then _ else _) = _
  rw [if_neg (by unfold maxReleaseQuantity; omega), hlocation]

theorem reservationId_injective {order : PendingOrder} {a b : OrderLine}
    (h : reservationId order a = reservationId order b) : a.variantId = b.variantId := by
  unfold reservationId at h
  exact (List.cons.inj (List.append_cancel_left h)).2

/-- The reservation loop, from any point of the order on. -/
theorem validateConsumeReservations_ok {order : PendingOrder} {requestId : Text}
    {locations : List Text} {lines : List OrderLine} {reservations : List InventoryReservation}
    {seen : List Text} (hnames : InventoryNames order requestId locations)
    (hconfirmed : List.Forall₂ (Confirmed order locations) lines reservations)
    (hid : ∀ line ∈ lines, IsIdentifier (reservationId order line))
    (hsku : ∀ line ∈ lines, IsIdentifier line.sku)
    (hquantity : ∀ line ∈ lines, line.quantity ≠ 0 ∧ line.quantity ≤ 1000000)
    (hnodup : (lines.map OrderLine.variantId).Nodup)
    (hseen : ∀ line ∈ lines, reservationId order line ∉ seen) :
    validateConsumeReservations seen (reservations.map fun r =>
      ⟨r.reservationId, r.sku, r.quantity, r.locationId⟩) = .ok () := by
  induction hconfirmed generalizing seen with
  | nil => rfl
  | @cons line r lines reservations hconf _ ih =>
    have hlocation := validateLocation_of_confirmed hnames hconf
    obtain ⟨response, hmem, hparse⟩ := hconf
    obtain ⟨rfl, -⟩ := parse_some hparse
    obtain ⟨hpos, hle⟩ := hquantity line List.mem_cons_self
    rw [List.map_cons, List.nodup_cons] at hnodup
    have hseen' : ∀ l ∈ lines, reservationId order l ∉ reservationId order line :: seen := by
      intro l hl hin
      rcases List.mem_cons.mp hin with heq | hin
      · exact hnodup.1 (reservationId_injective heq ▸ List.mem_map_of_mem hl)
      · exact hseen l (List.mem_cons_of_mem _ hl) hin
    have hnew : seen.contains (reservationId order line) = false := by
      simpa using hseen line List.mem_cons_self
    rw [List.map_cons, validateConsumeReservations,
      validateConsumeReservation_ok (hid line List.mem_cons_self) (hsku line List.mem_cons_self)
        hpos hle hlocation]
    show (if seen.contains (reservationId order line) then _ else _) = _
    rw [hnew]
    exact ih (fun l hl => hid l (List.mem_cons_of_mem _ hl))
      (fun l hl => hsku l (List.mem_cons_of_mem _ hl))
      (fun l hl => hquantity l (List.mem_cons_of_mem _ hl)) hnodup.2 hseen'

/-! ## Acceptance -/

section
variable {catalogue : Catalogue} {uuid : Uuid} {input : CheckoutInput} {quote : QuoteResponse}
  {order : PendingOrder} {fence : Fence} {locations : List Text}

/-- The names decide: with them, every request of the order passes. -/
theorem acceptable_of_names (hspec : OrderSpec catalogue uuid input quote order)
    (hrequest : boundedIdentifier fence.requestId = true)
    (hnames : InventoryNames order fence.requestId locations) :
    AcceptableToInventory order fence locations := by
  have hvalid := validateInput_ok hspec.valid
  have hsound := hspec.soundLines
  have htenant : IsIdentifier order.tenantId :=
    (isIdentifier_of_bounded (hspec.tenantId ▸ hvalid.tenantId)).mpr hnames.tenantId
  have hrequestId := (isIdentifier_of_bounded hrequest).mpr hnames.requestId
  have htoken := fence.token.isIdentifier
  have hid : ∀ line ∈ order.lines, IsIdentifier (reservationId order line) := by
    intro line hl
    obtain ⟨halpha, hlen⟩ := hnames.variants line hl
    exact (isIdentifier_reservationId hspec.id).mpr ⟨halpha, by omega⟩
  have hsku : ∀ line ∈ order.lines, IsIdentifier line.sku := fun line hl =>
    (isIdentifier_of_bounded (hsound.lines line hl).1).mpr (hnames.skus line hl)
  have hquantity : ∀ line ∈ order.lines, line.quantity ≠ 0 ∧ line.quantity ≤ 1000000 :=
    fun line hl => (hsound.lines line hl).2
  constructor
  · intro line hl
    exact validateReserve_iff.mpr
      ⟨htenant, hid line hl, hsku line hl, hquantity line hl, hrequestId, htoken⟩
  · intro line hl
    exact validateRelease_iff.mpr
      ⟨htenant, hid line hl, hsku line hl, hquantity line hl, rfl, hrequestId, htoken⟩
  · intro line hl r hr
    have hlocation := validateLocation_of_confirmed hnames hr
    obtain ⟨response, -, hparse⟩ := hr
    obtain ⟨rfl, -⟩ := parse_some hparse
    exact validateRelease_iff.mpr
      ⟨htenant, hid line hl, hsku line hl, hquantity line hl, hlocation, hrequestId, htoken⟩
  · intro reservations hconfirmed
    have hlength := hconfirmed.length_eq
    have hcount : validateCount (consumeRequest order fence reservations).reservations =
        .ok () := by
      have hne : reservations ≠ [] := by
        intro hnil
        rw [hnil, List.length_nil, List.length_eq_zero_iff] at hlength
        exact hsound.nonempty hlength
      have hle : reservations.length ≤ 50 := hlength ▸ hsound.count
      unfold validateCount consumeRequest maxConsumeReservations
      rw [if_neg]
      simp [hne, hle]
    have hloop := validateConsumeReservations_ok hnames hconfirmed hid hsku hquantity
      hsound.nodup (fun _ _ => List.not_mem_nil)
    unfold validateConsume
    rw [seq_ok, seq_ok, seq_ok]
    exact ⟨validateIdentifier_iff.mpr htenant, hcount,
      validateFenceFields_iff.mpr ⟨hrequestId, htoken⟩, hloop⟩

/-- And they are what the requests need. -/
theorem names_of_acceptable (hspec : OrderSpec catalogue uuid input quote order)
    (h : AcceptableToInventory order fence locations) :
    InventoryNames order fence.requestId locations := by
  obtain ⟨first, hfirst⟩ := List.exists_mem_of_ne_nil _ hspec.soundLines.nonempty
  obtain ⟨htenant, -, -, -, hrequest, -⟩ := validateReserve_iff.mp (h.reserve first hfirst)
  refine ⟨htenant.2.2, hrequest.2.2, fun line hl => ?_, fun line hl => ?_,
    fun location hl hblank => ?_⟩
  · obtain ⟨-, -, hsku, -⟩ := validateReserve_iff.mp (h.reserve line hl)
    exact hsku.2.2
  · obtain ⟨-, hid, -⟩ := validateReserve_iff.mp (h.reserve line hl)
    obtain ⟨halpha, hlen⟩ := (isIdentifier_reservationId hspec.id).mp hid
    exact ⟨halpha, by omega⟩
  · have hrelease := h.release first hfirst _ (confirmed_at hl hblank first)
    obtain ⟨-, -, -, -, hlocation, -⟩ := validateRelease_iff.mp hrelease
    obtain ⟨-, hlen, halpha⟩ := validateIdentifier_iff.mp hlocation
    exact ⟨halpha, hlen⟩

end

/-- Inventory accepts every request that checkout builds for the order of an accepted
checkout if and only if the names in it are in inventory's alphabet and the variants
leave room for a reservation id. -/
theorem inventory_accepts_checkout_iff (baggage : List (Text × Text))
    (uuid orderUuid token : Uuid) (input accepted : CheckoutInput) (catalogue : Catalogue)
    (quote : QuoteResponse) (order : PendingOrder) (locations : List Text)
    (haccept : acceptCheckout baggage uuid.text input = .ok accepted)
    (horder : createPendingOrder catalogue orderUuid accepted quote = .ok order) :
    AcceptableToInventory order ⟨checkoutRequestId uuid.text input, token⟩ locations ↔
      InventoryNames order (checkoutRequestId uuid.text input) locations := by
  have hspec := createPendingOrder_spec horder
  have hrequest := (validateInput_ok hspec.valid).requestId _
    (acceptCheckout_spec haccept).requestId
  constructor
  · intro h
    exact names_of_acceptable hspec h
  · intro hnames
    exact acceptable_of_names hspec hrequest hnames

/-! A request id with a space in it. -/

def sampleUuid : Uuid where
  text := "67e55044-10b1-426f-9247-bb680e5fe0c8".toList
  length := by decide
  chars := by decide

def sampleCatalogue : Catalogue where
  rows := [⟨"variant-widget".toList, "WIDGET-1".toList, "Blue".toList, "product-widget".toList,
    "Widget".toList⟩]
  skus := by decide
  ids := by decide

def sampleCheckout (requestId : String) : CheckoutInput where
  tenantId := "tenant-acme".toList
  customerId := "customer-acme-ava".toList
  sessionId := some "session-1".toList
  cartId := none
  items := [⟨"WIDGET-1".toList, 2⟩]
  currencyCode := "USD".toList
  promotionCode := none
  paymentMethodToken := some "tok_visa".toList
  paymentMethodType := some "card".toList
  requestId := some requestId.toList

def usd (amountMinor : Int) : Option Money := some ⟨"USD".toList, amountMinor⟩

def sampleQuote (totalMinor : Int) : QuoteResponse where
  quoteId := "quote-1".toList
  status := .ready
  lines := [⟨"WIDGET-1".toList, 2, usd 500, usd 1000⟩]
  subtotal := usd 1000
  discountTotal := usd (1000 - totalMinor)
  taxTotal := usd 0
  grandTotal := usd totalMinor
  validForSeconds := 45
  pricingVersion := "price-change-7".toList

def sampleOrder (totalMinor : Int) : PendingOrder where
  id := orderId sampleUuid
  orderNumber := orderNumber "tenant-acme".toList sampleUuid
  tenantId := "tenant-acme".toList
  customerId := "customer-acme-ava".toList
  sessionId := "session-1".toList
  currency := "USD".toList
  lines := [⟨"product-widget".toList, "variant-widget".toList, "WIDGET-1".toList,
    "Widget / Blue".toList, 2, 500⟩]
  subtotalMinor := 1000
  discountMinor := 1000 - totalMinor
  taxMinor := 0
  totalMinor := totalMinor
  promotionCode := none

/-- Checkout accepts it, inventory refuses to reserve, and refuses the release too. -/
theorem inventory_refuses_accepted_checkout :
    acceptCheckout [] sampleUuid.text (sampleCheckout "request 1") =
        .ok (sampleCheckout "request 1") ∧
      createPendingOrder sampleCatalogue sampleUuid (sampleCheckout "request 1")
        (sampleQuote 1000) = .ok (sampleOrder 1000) ∧
      ((sampleOrder 1000).lines.map fun line =>
        validateReserve (reserveRequest (sampleOrder 1000)
          ⟨checkoutRequestId sampleUuid.text (sampleCheckout "request 1"), sampleUuid⟩ line)) =
        [.error ⟨"checkout_request_id", "contains unsupported characters"⟩] ∧
      ((sampleOrder 1000).lines.map fun line =>
        validateRelease (releaseRequest (sampleOrder 1000)
          ⟨checkoutRequestId sampleUuid.text (sampleCheckout "request 1"), sampleUuid⟩
          (unconfirmed (sampleOrder 1000) line))) =
        [.error ⟨"checkout_request_id", "contains unsupported characters"⟩] ∧
      ¬ AcceptableToInventory (sampleOrder 1000)
        ⟨checkoutRequestId sampleUuid.text (sampleCheckout "request 1"), sampleUuid⟩ [] := by
  refine ⟨by decide, by rfl, by decide, by decide,
    fun h => ?_⟩
  have hreserve := h.reserve ⟨"product-widget".toList, "variant-widget".toList,
    "WIDGET-1".toList, "Widget / Blue".toList, 2, 500⟩ (by decide)
  revert hreserve
  decide

/-- The same checkout under an ordinary request id. -/
theorem inventory_accepts_checkout_sample :
    AcceptableToInventory (sampleOrder 1000)
      ⟨checkoutRequestId sampleUuid.text (sampleCheckout "request-1"), sampleUuid⟩
      ["warehouse-east".toList] := by
  refine (inventory_accepts_checkout_iff [] sampleUuid sampleUuid sampleUuid
    (sampleCheckout "request-1") (sampleCheckout "request-1") sampleCatalogue (sampleQuote 1000)
    (sampleOrder 1000) _ (by decide) (by decide)).mpr ?_
  exact ⟨by decide, by decide, by decide, by decide,
    by decide⟩

end CommercePlayground.Boundary
