/-
CommercePlayground.Fulfillment.DeliveryTheorems — what a delivery can rely on.

`Spent`: what was processed once is not queued again. `LeaseFrame`: no step
wakes a lease or gives a claim an old token. `DeliveryOk` follows one delivery:
before it claims effects they have had fewer attempts than the claim (`fresh`);
from then on and as long as it holds the lease they are out or in its hand
(`covers`). `Ledger` is the same from the side of the tables. The lemmas say
that every move of somebody else keeps both.
-/
import CommercePlayground.Fulfillment.OrderTheorems

namespace CommercePlayground.Fulfillment

open Lib

/-! ## Where a delivery stands -/

/-- The lease token of a delivery. -/
def Phase.leaseToken : Phase → Option Nat
  | .process token | .failProcess token _ | .renew token | .claim token | .next token _
  | .dispatch token _ _ | .publish token _ _ | .close token | .release token _ _
  | .fail token _ => some token
  | _ => none

/-- The lease token of a delivery that has not claimed effects. -/
def Phase.unclaimed : Phase → Option Nat
  | .process token | .renew token | .claim token => some token
  | _ => none

/-- The effects a delivery has claimed and not published. -/
def Phase.inHand : Phase → List EffectRow
  | .next _ effects => effects
  | .dispatch _ effect rest | .publish _ effect rest => effect :: rest
  | .release _ effect _ => [effect]
  | _ => []

/-- The loop over the claimed effects. -/
def Phase.looping : Phase → Option (Nat × List EffectRow)
  | .next token effects => some (token, effects)
  | .dispatch token effect rest | .publish token effect rest => some (token, effect :: rest)
  | _ => none

/-- The event has been processed. -/
def Phase.processed : Phase → Bool
  | .renew _ | .claim _ | .next .. | .dispatch .. | .publish .. => true
  | _ => false

/-- The claim of an operation on an order. -/
def purposeClaim (p : TenantId × OrderId × Operation) : TenantId × Consumer × EventKey :=
  (p.1, .orders, .processing p.2.2 p.1 p.2.1)

/-- The effects of an operation that processing would queue are there. -/
def Keyed (s : Store) (p : TenantId × OrderId × Operation) (status : ShipmentStatus) : Prop :=
  (∃ e ∈ s.effects, effectKey e = (p.1, .downstream p.2.2 p.1 p.2.1)) ∧
    ∃ e ∈ s.effects, effectKey e = (p.1, .notification p.2.2 p.1 p.2.1 status)

/-- Processing queues no further effect of the operation. -/
def Spent (s : Store) (p : TenantId × OrderId × Operation) : Prop :=
  (∃ o ∈ s.orders, orderKey o = (p.1, p.2.1) ∧ isTerminalOrder o.status = true) ∨
    p.2.2 = .fulfillment ∧ ∃ sh ∈ s.shipments, shipmentKey sh = (p.1, p.2.1, 1) ∧
      (isTerminalShipment sh.status = true ∨ Keyed s p sh.status)

def EffectRow.Out (e : EffectRow) : Prop := e.status = .published ∨ e.status = .cancelled

/-- Every effect of the operation is out or in hand. -/
def Covered (s : Store) (p : TenantId × OrderId × Operation) (effects : List EffectRow) : Prop :=
  ∀ e ∈ s.effects, e.purpose = p → e.Out ∨ e.status = .publishing ∧
    ∃ f ∈ effects, effectKey f = effectKey e ∧ f.claimToken = e.claimToken

/-! ## Processing again -/

theorem Moved.terminal {s u : Store} (h : Moved s u) {o : OrderRow} (ho : o ∈ s.orders)
    (hst : isTerminalOrder o.status = true) : o ∈ u.orders := by
  cases h with
  | claims => exact ho
  | process hp =>
    cases hp with
    | terminal => exact ho
    | gone => exact ho
    | cancel =>
      rw [queueEffects_frame]
      exact mem_cancelOrder ho (.inr hst)
    | fulfill =>
      rw [queueEffects_frame]
      refine mem_updateWhere_of_not ho ?_
      by_contra hsel
      have hopen := (isFulfillable_key (by simpa using hsel)).2
      rw [hst] at hopen
      cases hopen
  | claimEffects => exact ho
  | publish hp =>
    obtain ⟨-, rfl⟩ := publishEffect_ok hp
    exact ho
  | release hr =>
    cases hr
    exact ho
  | environment he =>
    refine environment_order he ho fun hp => ?_
    rw [hp] at hst
    cases hst

/-- A shipment keeps its key, and its status unless it is cancelled. -/
def ShipmentMove (sh sh' : Shipment) : Prop :=
  shipmentKey sh' = shipmentKey sh ∧ (sh'.status = sh.status ∨ sh'.status = .cancelled)

theorem ShipmentMove.refl (sh : Shipment) : ShipmentMove sh sh := ⟨rfl, .inl rfl⟩

theorem Moved.shipment {s u : Store} (h : Moved s u) :
    Evolves ShipmentMove s.shipments u.shipments := by
  have hrefl := Evolves.refl ShipmentMove.refl s.shipments
  cases h with
  | claims => exact hrefl
  | process hp =>
    cases hp with
    | terminal => exact hrefl
    | gone => exact hrefl
    | cancel =>
      rw [queueEffects_frame]
      exact Evolves.update ShipmentMove.refl fun sh _ _ => ⟨rfl, .inr rfl⟩
    | fulfill _ _ _ _ _ hships =>
      rw [queueEffects_frame]
      cases hships with
      | touch => exact Evolves.update ShipmentMove.refl fun sh _ _ => ⟨rfl, .inl rfl⟩
      | insert => exact Evolves.insert ShipmentMove.refl _ _
  | claimEffects => exact hrefl
  | publish hp =>
    obtain ⟨-, rfl⟩ := publishEffect_ok hp
    exact hrefl
  | release hr =>
    cases hr
    exact hrefl
  | environment he =>
    rw [(environment_frame he).shipments]
    exact hrefl

/-- Effects are not deleted. -/
theorem Moved.effect {s u : Store} (h : Moved s u) :
    Evolves (fun e e' => effectKey e' = effectKey e) s.effects u.effects := by
  have hrefl := Evolves.refl (R := fun e e' => effectKey e' = effectKey e) (fun _ => rfl) s.effects
  cases h with
  | claims => exact hrefl
  | process hp =>
    cases hp with
    | terminal => exact hrefl
    | gone => exact hrefl
    | @cancel o =>
      have hcancel : Evolves (fun e e' => effectKey e' = effectKey e) s.effects
          (cancelOrder o s).effects := Evolves.update (fun _ => rfl) fun e _ _ => rfl
      intro e he
      obtain ⟨e', he', hk⟩ := hcancel e he
      exact ⟨e', queueEffects_mem he', hk⟩
    | fulfill => exact fun e he => ⟨e, queueEffects_mem he, rfl⟩
  | claimEffects => exact Evolves.update (fun _ => rfl) fun e _ _ => rfl
  | publish hp =>
    obtain ⟨-, rfl⟩ := publishEffect_ok hp
    exact Evolves.update (fun _ => rfl) fun e _ _ => rfl
  | release hr =>
    cases hr
    exact Evolves.update (fun _ => rfl) fun e _ _ => rfl
  | environment he =>
    rw [(environment_frame he).effects]
    exact hrefl

/-- What is spent stays spent. -/
theorem Spent.moved {s u : Store} {p : TenantId × OrderId × Operation} (h : Spent s p)
    (hm : Moved s u) : Spent u p := by
  rcases h with ⟨o, ho, hk, hst⟩ | ⟨hop, sh, hsh, hk, hsp⟩
  · exact .inl ⟨o, hm.terminal ho hst, hk, hst⟩
  · obtain ⟨sh', hsh', hk', hst'⟩ := hm.shipment sh hsh
    refine .inr ⟨hop, sh', hsh', hk'.trans hk, ?_⟩
    rcases hst' with hst' | hst'
    · rw [hst']
      refine hsp.imp_right fun hkeyed => ?_
      obtain ⟨⟨e, he, hek⟩, f, hf, hfk⟩ := hkeyed
      obtain ⟨e', he', hek'⟩ := hm.effect e he
      obtain ⟨f', hf', hfk'⟩ := hm.effect f hf
      exact ⟨⟨e', he', hek'.trans hek⟩, f', hf', hfk'.trans hfk⟩
    · rw [hst']
      exact .inl rfl

/-- What has been processed is spent. -/
theorem Processing.spent {event : CommerceEvent} {s u : Store} (h : Processing event s u) :
    Spent u event.purpose := by
  cases h with
  | terminal ho hk hst => exact .inl ⟨_, ho, hk, hst⟩
  | gone hop hsh hk hst => exact .inr ⟨hop, _, hsh, hk, .inl hst⟩
  | @cancel o hop ho hk hst =>
    rw [queueEffects_frame]
    refine .inl ⟨{ o with status := .cancelled, updatedAt := s.now }, ?_, hk, rfl⟩
    refine mem_updateWhere.mpr ⟨o, ho, ?_⟩
    rw [if_pos]
    rw [Bool.and_eq_true, isOpenOrder_eq, hst]
    exact ⟨isOrder_iff.mpr rfl, rfl⟩
  | @fulfill o sh shipments hop ho hk hst hidle hships hsh hshk =>
    have hids : o.tenantId = event.tenantId ∧ o.id = event.orderId := by
      simpa [orderKey] using hk
    have hkept : ∃ o' ∈ updateWhere (isFulfillable s o) (startProcessing s.now) s.orders,
        orderKey o' = (event.tenantId, event.orderId) :=
      ⟨_, mem_updateWhere_of_pos ho (isFulfillable_self hst hidle),
        (startProcessing_key _ _).trans hk⟩
    obtain ⟨o', ho', hk'⟩ := hkept
    have hhas := queueEffects_has event.shipmentCreated sh.status
      (s := { s with
        orders := updateWhere (isFulfillable s o) (startProcessing s.now) s.orders
        shipments := shipments }) ho' hk'
    refine .inr ⟨hop, sh, ?_, ?_, .inr ?_⟩
    · rw [queueEffects_frame]
      exact hsh
    · rw [hshk, hids.1, hids.2]
      rfl
    · refine ⟨?_, hhas.2⟩
      obtain ⟨e, he, hek⟩ := hhas.1
      refine ⟨e, he, ?_⟩
      rw [hek]
      simp [CommerceEvent.shipmentCreated, CommerceEvent.purpose, hop]

/-- Processing what is spent queues nothing. -/
theorem Processing.effects_spent {event : CommerceEvent} {s u : Store} (h : Processing event s u)
    (hi : StoreInv s) {p : TenantId × OrderId × Operation} (hs : Spent s p) {e : EffectRow}
    (he : e ∈ u.effects) (hp : e.purpose = p) : e ∈ s.effects ∨ e.status = .cancelled := by
  cases h with
  | terminal => exact .inl he
  | gone => exact .inl he
  | @cancel o hop ho hk hst =>
    rcases queueEffects_new he with he | ⟨o', -, -, key, kind, payload, status, rfl⟩
    · rcases cancelOrder_effect he with ⟨he, -⟩ | ⟨e₀, -, -, rfl⟩
      · exact .inl he
      · exact .inr rfl
    · -- a new cancellation effect: the order is open, so nothing was spent
      have hp : event.purpose = p := hp
      subst hp
      rcases hs with ⟨o', ho', hk', hst'⟩ | ⟨hop', -⟩
      · rw [hi.orders.eq_of_mem ho' ho (hk'.trans hk.symm), hst] at hst'
        cases hst'
      · have hop' : event.operation = .fulfillment := hop'
        rw [hop] at hop'
        cases hop'
  | @fulfill o sh shipments hop ho hk hst hidle hships hsh hshk =>
    have hids : o.tenantId = event.tenantId ∧ o.id = event.orderId := by
      simpa [orderKey] using hk
    by_cases hpur : event.purpose = p
    · subst hpur
      rcases hs with ⟨o', ho', hk', hst'⟩ | ⟨-, sh₀, hsh₀, hk₀, hsp⟩
      · rw [hi.orders.eq_of_mem ho' ho (hk'.trans hk.symm), hst] at hst'
        cases hst'
      · have hkey : shipmentKey sh₀ = shipmentKey sh := by
          rw [hk₀, hshk, hids.1, hids.2]
          rfl
        -- the shipment is the one that was there, with both its effects
        have hstatus : sh₀.status = sh.status := by
          rcases hships.status hsh with ⟨sh', hsh', hk', hst'⟩ | ⟨hnone, -⟩
          · rw [hi.shipments.eq_of_mem hsh₀ hsh' (hkey.trans hk'.symm), hst']
          · exact absurd hkey (hnone sh₀ hsh₀)
        rcases hsp with hterm | ⟨⟨e₁, he₁, hek₁⟩, e₂, he₂, hek₂⟩
        · rw [hidle sh₀ hsh₀ (hkey.trans hshk)] at hterm
          cases hterm
        · rw [hstatus] at hek₂
          have hek₁ : effectKey e₁ = (event.tenantId, event.shipmentCreated.eventKey) := by
            rw [hek₁]
            simp [CommerceEvent.shipmentCreated, CommerceEvent.purpose, hop]
          have hsame := queueEffects_present (s := { s with
            orders := updateWhere (isFulfillable s o) (startProcessing s.now) s.orders
            shipments := shipments }) he₁ hek₁ he₂ hek₂
          rw [hsame] at he
          exact .inl he
    · rcases queueEffects_new he with he | ⟨o', -, -, key, kind, payload, status, rfl⟩
      · exact .inl he
      · exact absurd hp hpur

/-- An effect after processing has the attempts it had, or none. -/
theorem Processing.attempts {event : CommerceEvent} {s u : Store} (h : Processing event s u)
    {e : EffectRow} (he : e ∈ u.effects) :
    (∃ e₀ ∈ s.effects, e₀.purpose = e.purpose ∧ e₀.attempts = e.attempts) ∨ e.attempts = 0 := by
  cases h with
  | terminal => exact .inl ⟨e, he, rfl, rfl⟩
  | gone => exact .inl ⟨e, he, rfl, rfl⟩
  | cancel =>
    rcases queueEffects_new he with he | ⟨o', -, -, key, kind, payload, status, rfl⟩
    · rcases cancelOrder_effect he with ⟨he, -⟩ | ⟨e₀, he₀, -, rfl⟩
      · exact .inl ⟨e, he, rfl, rfl⟩
      · exact .inl ⟨e₀, he₀, rfl, rfl⟩
    · exact .inr rfl
  | fulfill =>
    rcases queueEffects_new he with he | ⟨o', -, -, key, kind, payload, status, rfl⟩
    · exact .inl ⟨e, he, rfl, rfl⟩
    · exact .inr rfl

theorem Processing.claims {event : CommerceEvent} {s u : Store} (h : Processing event s u) :
    u.claims = s.claims ∧ u.nextToken = s.nextToken ∧ u.now = s.now := by
  cases h with
  | terminal => exact ⟨rfl, rfl, rfl⟩
  | gone => exact ⟨rfl, rfl, rfl⟩
  | cancel =>
    rw [queueEffects_frame]
    exact ⟨rfl, rfl, rfl⟩
  | fulfill =>
    rw [queueEffects_frame]
    exact ⟨rfl, rfl, rfl⟩

/-! ## Leases over a step -/

theorem holdsClaim_iff {s : Store} {event : CommerceEvent} {token : Nat} :
    holdsClaim s event.tenantId event.processingKey token = true ↔
      LiveLease s (purposeClaim event.purpose) token := by
  simp only [holdsClaim, List.any_eq_true, Bool.and_eq_true, isClaim_iff]
  exact Iff.rfl

theorem LiveLease.hasToken {s : Store} {k : TenantId × Consumer × EventKey} {n : Nat}
    (h : LiveLease s k n) : HasToken s k n := by
  obtain ⟨r, hr, hk, hheld⟩ := h
  exact ⟨r, hr, hk, (isHeld_iff.mp hheld).2.1⟩

theorem HasToken.eq {s : Store} {k : TenantId × Consumer × EventKey} {m n : Nat}
    (hi : ClaimInv s.claims s.nextToken) (h₁ : HasToken s k m) (h₂ : HasToken s k n) : m = n := by
  obtain ⟨r, hr, hk, hm⟩ := h₁
  obtain ⟨r', hr', hk', hn⟩ := h₂
  cases hi.keys.eq_of_mem hr hr' (hk.trans hk'.symm)
  exact Option.some.inj (hm.symm.trans hn)

theorem HasToken.attempts_pos {s : Store} {k : TenantId × Consumer × EventKey} {n : Nat}
    (hi : ClaimInv s.claims s.nextToken) (h : HasToken s k n) : 0 < attemptsOf s k := by
  obtain ⟨r, hr, hk, -⟩ := h
  rw [attemptsOf, (claimOf_eq_some hi).mpr ⟨hr, hk⟩]
  exact (hi.rows r hr).positive

/-- A step gives no claim an old token, wakes no lease and takes no attempt
back. -/
structure LeaseFrame (s u : Store) : Prop where
  next : s.nextToken ≤ u.nextToken
  token : ∀ k n, n < s.nextToken → HasToken u k n → HasToken s k n
  live : ∀ k n, n < s.nextToken → LiveLease u k n → LiveLease s k n
  attempts : ∀ k, attemptsOf s k ≤ attemptsOf u k

theorem LeaseFrame.of_eq {s u : Store} (hclaims : u.claims = s.claims)
    (hnext : s.nextToken ≤ u.nextToken) (hnow : s.now ≤ u.now) : LeaseFrame s u where
  next := hnext
  token k n _ h := by
    obtain ⟨r, hr, hk, hn⟩ := h
    exact ⟨r, hclaims ▸ hr, hk, hn⟩
  live k n _ h := by
    obtain ⟨r, hr, hk, hheld⟩ := h
    obtain ⟨hst, hn, t, ht, hlt⟩ := isHeld_iff.mp hheld
    exact ⟨r, hclaims ▸ hr, hk, isHeld_iff.mpr ⟨hst, hn, t, ht, Nat.lt_of_le_of_lt hnow hlt⟩⟩
  attempts k := by rw [attemptsOf, attemptsOf, claimOf, claimOf, hclaims]

theorem failedClaim_status (permanent : Bool) (r : ProcessedEvent) :
    (failedClaim permanent r).status = .deadLettered ∨
      (failedClaim permanent r).status = .failed := by
  unfold failedClaim
  simp only
  split
  · exact .inl rfl
  · exact .inr rfl

theorem ClaimMove.held {s : Store} {next n : Nat} {r r' : ProcessedEvent}
    (h : ClaimMove s next r r') (hn : n < s.nextToken) (hheld : isHeld s.now n r' = true) :
    isHeld s.now n r = true := by
  obtain ⟨hst, htoken, -⟩ := isHeld_iff.mp hheld
  cases h with
  | exhaust => cases hst
  | reclaim =>
    cases htoken
    exact absurd hn (Nat.lt_irrefl _)
  | @renew token hr =>
    have hsame : token = n := by
      have := (isHeld_iff.mp hr).2.1
      rw [show r.leaseToken = some n from htoken] at this
      exact (Option.some.inj this).symm
    exact hsame ▸ hr
  | complete => cases hst
  | fail => rcases failedClaim_status _ r with h | h <;> rw [h] at hst <;> cases hst

theorem ClaimMove.attempts {s : Store} {next : Nat} {r r' : ProcessedEvent}
    (h : ClaimMove s next r r') : r.attempts ≤ r'.attempts := by
  cases h with
  | reclaim => exact Nat.le_succ _
  | _ => exact le_rfl

theorem LeaseFrame.claims {s : Store} {t : List ProcessedEvent} {next : Nat}
    (hi : ClaimInv s.claims s.nextToken) (hw : ClaimWrite s t next) :
    LeaseFrame s { s with claims := t, nextToken := next } where
  next := hw.next_le
  token k n hn h := by
    obtain ⟨r', hr', hk, htoken⟩ := h
    rcases hw.token hr' htoken with ⟨r, hr, hkr, hold⟩ | hfresh
    · exact ⟨r, hr, hkr.trans hk, hold⟩
    · exact absurd (hfresh ▸ hn) (Nat.lt_irrefl _)
  live k n hn h := by
    obtain ⟨r', hr', hk, hheld⟩ := h
    cases hw with
    | same => exact ⟨r', hr', hk, hheld⟩
    | insert =>
      rcases List.mem_append.mp hr' with hr | hnew
      · exact ⟨r', hr, hk, hheld⟩
      · rw [List.mem_singleton.mp hnew] at hheld
        cases (isHeld_iff.mp hheld).2.1
        exact absurd hn (Nat.lt_irrefl _)
    | @move sel f _ hnext hmove =>
      obtain ⟨r, hr, rfl⟩ := mem_updateWhere.mp hr'
      by_cases hsel : sel r = true
      · rw [if_pos hsel] at hheld hk
        have hm := hmove r hr hsel
        exact ⟨r, hr, hm.key.symm.trans hk, hm.held hn hheld⟩
      · rw [if_neg hsel] at hheld hk
        exact ⟨r, hr, hk, hheld⟩
  attempts k := by
    unfold attemptsOf
    cases hr : claimOf s k with
    | none => exact Nat.zero_le _
    | some r =>
      obtain ⟨hmem, hk⟩ := (claimOf_eq_some hi).mp hr
      have hu := hi.write hw
      rcases hw.follows hmem with hkept | ⟨r', hr', hm⟩
      · rw [(claimOf_eq_some (s := { s with claims := t, nextToken := next }) hu).mpr ⟨hkept, hk⟩]
      · rw [(claimOf_eq_some (s := { s with claims := t, nextToken := next }) hu).mpr
          ⟨hr', hm.key.trans hk⟩]
        exact hm.attempts

theorem Moved.leases {s u : Store} (hi : StoreInv s) (hm : Moved s u) : LeaseFrame s u := by
  cases hm with
  | claims hw => exact .claims hi.claims hw
  | process hp => exact .of_eq hp.claims.1 hp.claims.2.1.ge hp.claims.2.2.ge
  | claimEffects => exact .of_eq rfl (Nat.le_succ _) le_rfl
  | publish hp =>
    obtain ⟨-, rfl⟩ := publishEffect_ok hp
    exact .of_eq rfl le_rfl le_rfl
  | release hr =>
    cases hr
    exact .of_eq rfl le_rfl le_rfl
  | environment he =>
    have hf := environment_frame he
    exact .of_eq hf.claims hf.nextToken.ge hf.now

/-! ## The invariant of a delivery -/

structure DeliveryOk (s : Store) (d : Delivery) : Prop where
  token : ∀ n, d.phase.leaseToken = some n → n < s.nextToken
  hand : ∀ f ∈ d.phase.inHand, ∃ n, f.claimToken = some n ∧ n < s.nextToken
  /-- Before it claims effects, they have had fewer attempts than the claim. -/
  fresh : ∀ n, d.phase.unclaimed = some n → HasToken s (purposeClaim d.event.purpose) n →
    ∀ e ∈ s.effects, e.purpose = d.event.purpose →
      e.attempts < attemptsOf s (purposeClaim d.event.purpose)
  spent : d.phase.processed = true → Spent s d.event.purpose
  /-- In the loop, and as long as it holds the lease, the effects are out or in
  its hand. -/
  covers : ∀ n es, d.phase.looping = some (n, es) →
    LiveLease s (purposeClaim d.event.purpose) n → Covered s d.event.purpose es

theorem Phase.leaseToken_of_unclaimed {p : Phase} {n : Nat} (h : p.unclaimed = some n) :
    p.leaseToken = some n := by
  cases p <;> first | exact h | cases h

theorem Phase.of_looping {p : Phase} {n : Nat} {es : List EffectRow}
    (h : p.looping = some (n, es)) :
    p.leaseToken = some n ∧ p.processed = true ∧ p.inHand = es := by
  cases p <;> cases h <;> exact ⟨rfl, rfl, rfl⟩

/-- Where the effects of a delivery's operation come from. -/
def Stems (s : Store) (e : EffectRow) : Prop :=
  (∃ e₀ ∈ s.effects, e₀.purpose = e.purpose ∧ e₀.attempts = e.attempts) ∨ e.attempts = 0

theorem DeliveryOk.frame {s u : Store} {d : Delivery} (h : DeliveryOk s d) (hi : StoreInv s)
    (hm : Moved s u)
    (hfresh : ∀ n, d.phase.unclaimed = some n → HasToken s (purposeClaim d.event.purpose) n →
      ∀ e ∈ u.effects, e.purpose = d.event.purpose → Stems s e)
    (hcov : ∀ n es, d.phase.looping = some (n, es) →
      LiveLease s (purposeClaim d.event.purpose) n → Covered s d.event.purpose es →
      Covered u d.event.purpose es) : DeliveryOk u d := by
  have hf := hm.leases hi
  constructor
  · exact fun n hn => Nat.lt_of_lt_of_le (h.token n hn) hf.next
  · intro f hmem
    obtain ⟨n, hn, hlt⟩ := h.hand f hmem
    exact ⟨n, hn, Nat.lt_of_lt_of_le hlt hf.next⟩
  · intro n hn htoken e he hp
    have hold := hf.token _ n (h.token n (Phase.leaseToken_of_unclaimed hn)) htoken
    have hatt := hf.attempts (purposeClaim d.event.purpose)
    rcases hfresh n hn hold e he hp with ⟨e₀, he₀, hp₀, ha₀⟩ | hzero
    · have := h.fresh n hn hold e₀ he₀ (hp₀.trans hp)
      omega
    · have := hold.attempts_pos hi.claims
      omega
  · exact fun hp => (h.spent hp).moved hm
  · intro n es hloop hlive
    have hold := hf.live _ n (h.token n (Phase.of_looping hloop).1) hlive
    exact hcov n es hloop hold (h.covers n es hloop hold)

/-- A move that leaves the effects alone. -/
theorem DeliveryOk.frame_effects {s u : Store} {d : Delivery} (h : DeliveryOk s d)
    (hi : StoreInv s) (hm : Moved s u) (heq : u.effects = s.effects) : DeliveryOk u d := by
  refine h.frame hi hm (fun _ _ _ e he _ => .inl ⟨e, heq ▸ he, rfl, rfl⟩) ?_
  intro n es _ _ hcov e he hp
  exact hcov e (heq ▸ he) hp

theorem DeliveryOk.process {s u : Store} {d : Delivery} {event : CommerceEvent}
    (h : DeliveryOk s d) (hi : StoreInv s) (hp : Processing event s u) : DeliveryOk u d := by
  refine h.frame hi (.process hp) (fun _ _ _ e he _ => hp.attempts he) ?_
  intro n es hloop _ hcov e he hpur
  have hspent := h.spent (Phase.of_looping hloop).2.1
  rcases hp.effects_spent hi hspent he hpur with he | hc
  · exact hcov e he hpur
  · exact .inl (.inr hc)

theorem DeliveryOk.publish {s u : Store} {d : Delivery} {effect : EffectRow} {key : EventKey}
    {token : Nat} (h : DeliveryOk s d) (hi : StoreInv s)
    (hp : publishEffect effect key token s = .ok ((), u)) : DeliveryOk u d := by
  have hm : Moved s u := .publish hp
  obtain ⟨-, rfl⟩ := publishEffect_ok hp
  refine h.frame hi hm ?_ ?_
  · intro _ _ _ e he _
    obtain ⟨e₀, he₀, rfl⟩ := mem_updateWhere.mp he
    exact .inl ⟨e₀, he₀, by split <;> rfl, by split <;> rfl⟩
  · intro n es _ _ hcov e he hpur
    obtain ⟨e₀, he₀, rfl⟩ := mem_updateWhere.mp he
    by_cases hsel : isDispatchable s effect key token e₀ = true
    · rw [if_pos hsel]
      exact .inl (.inl rfl)
    · rw [if_neg hsel] at hpur ⊢
      exact hcov e₀ he₀ hpur

/-- Two deliveries share neither a lease nor an effect claim. -/
structure Apart (d d' : Delivery) : Prop where
  lease : ∀ n, d.phase.leaseToken = some n → d'.phase.leaseToken ≠ some n
  hand : ∀ f ∈ d.phase.inHand, ∀ f' ∈ d'.phase.inHand, f.claimToken ≠ f'.claimToken

theorem Apart.symm {d d' : Delivery} (h : Apart d d') : Apart d' d where
  lease n hn hn' := h.lease n hn' hn
  hand f hf f' hf' heq := h.hand f' hf' f hf heq.symm

theorem isClaimable_iff {s : Store} {event : CommerceEvent} {token : Nat} {e : EffectRow} :
    isClaimable s event token e = true ↔
      e.purpose = event.purpose ∧
      (e.status = .queued ∨ e.status = .publishing ∧ ∃ t, e.claimUntil = some t ∧ t ≤ s.now) ∧
      e.attempts < maxClaimAttempts ∧ isCurrent s e = true ∧
      LiveLease s (purposeClaim event.purpose) token := by
  simp only [isClaimable, Bool.and_eq_true, Bool.or_eq_true, decide_eq_true_eq, holdsClaim_iff,
    EffectRow.purpose, CommerceEvent.purpose, Prod.mk.injEq, and_assoc]
  cases e.claimUntil <;> simp

/-- The effects another delivery claims are not those of a lease it does not
hold. -/
theorem DeliveryOk.claimEffects {s : Store} {d : Delivery} {event : CommerceEvent} {token : Nat}
    (h : DeliveryOk s d) (hi : StoreInv s) (hne : d.phase.leaseToken ≠ some token) :
    DeliveryOk
      { s with
        nextToken := s.nextToken + 1
        effects := updateWhere (isClaimable s event token) (claimedEffect s) s.effects } d := by
  -- an effect of the operation of `d` is claimed under the token of the claim
  have hkept : ∀ n, d.phase.leaseToken = some n →
      HasToken s (purposeClaim d.event.purpose) n → ∀ e ∈ s.effects,
      e.purpose = d.event.purpose → isClaimable s event token e = false := by
    intro n hn htoken e he hp
    by_contra hsel
    rw [Bool.not_eq_false, isClaimable_iff] at hsel
    obtain ⟨hpur, -, -, -, hlive⟩ := hsel
    rw [← hpur, hp] at hlive
    rw [hlive.hasToken.eq hi.claims htoken] at hne
    exact hne hn
  refine h.frame hi (.claimEffects event token) ?_ ?_
  · intro n hn htoken e he hp
    obtain ⟨e₀, he₀, rfl⟩ := mem_updateWhere.mp he
    have hp₀ : e₀.purpose = d.event.purpose := by
      split at hp
      · exact hp
      · exact hp
    have hsel := hkept n (Phase.leaseToken_of_unclaimed hn) htoken e₀ he₀ hp₀
    rw [hsel]
    exact .inl ⟨e₀, he₀, rfl, rfl⟩
  · intro n es hloop hlive hcov e he hp
    obtain ⟨e₀, he₀, rfl⟩ := mem_updateWhere.mp he
    have hp₀ : e₀.purpose = d.event.purpose := by
      split at hp
      · exact hp
      · exact hp
    rw [hkept n (Phase.of_looping hloop).1 hlive.hasToken e₀ he₀ hp₀]
    exact hcov e₀ he₀ hp₀

/-- An effect another delivery releases is not in the hand of this one. -/
theorem DeliveryOk.release {s u : Store} {d : Delivery} {effect : EffectRow}
    (h : DeliveryOk s d) (hi : StoreInv s)
    (hne : ∀ f ∈ d.phase.inHand, effect.claimToken ≠ f.claimToken)
    (hr : releaseEffect effect s = .ok ((), u)) : DeliveryOk u d := by
  have hm : Moved s u := .release hr
  cases hr
  refine h.frame hi hm ?_ ?_
  · intro _ _ _ e he _
    obtain ⟨e₀, he₀, rfl⟩ := mem_updateWhere.mp he
    exact .inl ⟨e₀, he₀, by split <;> rfl, by split <;> rfl⟩
  · intro n es hloop _ hcov e he hpur
    obtain ⟨e₀, he₀, rfl⟩ := mem_updateWhere.mp he
    split at hpur
    · rename_i hsel
      simp only [Bool.and_eq_true, decide_eq_true_eq] at hsel
      rcases hcov e₀ he₀ hpur with hout | ⟨-, f, hf, -, hclaim⟩
      · rcases hout with hst | hst <;> rw [hsel.2.1] at hst <;> cases hst
      · rw [← (Phase.of_looping hloop).2.2] at hf
        exact absurd (hsel.2.2.2.symm.trans hclaim.symm) (hne f hf)
    · rename_i hsel
      rw [if_neg hsel]
      exact hcov e₀ he₀ hpur

/-- A delivery that goes on without taking anything. -/
structure Within (d d' : Delivery) : Prop where
  event : d'.event = d.event
  token : ∀ n, d'.phase.leaseToken = some n → d.phase.leaseToken = some n
  hand : ∀ f ∈ d'.phase.inHand, f ∈ d.phase.inHand
  fresh : ∀ n, d'.phase.unclaimed = some n → d.phase.unclaimed = some n
  spent : d'.phase.processed = true → d.phase.processed = true
  covers : ∀ n es', d'.phase.looping = some (n, es') →
    ∃ es, d.phase.looping = some (n, es) ∧ ∀ f ∈ es, f ∈ es'

theorem DeliveryOk.within {s : Store} {d d' : Delivery} (h : DeliveryOk s d)
    (hw : Within d d') : DeliveryOk s d' where
  token n hn := h.token n (hw.token n hn)
  hand f hf := h.hand f (hw.hand f hf)
  fresh := by
    rw [hw.event]
    exact fun n hn => h.fresh n (hw.fresh n hn)
  spent := by
    rw [hw.event]
    exact fun hp => h.spent (hw.spent hp)
  covers := by
    rw [hw.event]
    intro n es' hloop hlive e he hp
    obtain ⟨es, hes, hsub⟩ := hw.covers n es' hloop
    rcases h.covers n es hes hlive e he hp with hout | ⟨hst, f, hf, hk⟩
    · exact .inl hout
    · exact .inr ⟨hst, f, hsub f hf, hk⟩

theorem Apart.within {d d' d₁ : Delivery} (h : Apart d d₁) (hw : Within d d') : Apart d' d₁ where
  lease n hn := h.lease n (hw.token n hn)
  hand f hf := h.hand f (hw.hand f hf)

/-- A delivery on its way out, with its lease at most. -/
theorem Within.leave {d d' : Delivery} (he : d'.event = d.event)
    (ht : ∀ n, d'.phase.leaseToken = some n → d.phase.leaseToken = some n)
    (hh : d'.phase.inHand = []) (hu : d'.phase.unclaimed = none)
    (hp : d'.phase.processed = false) : Within d d' where
  event := he
  token := ht
  hand f hf := by
    rw [hh] at hf
    cases hf
  fresh n hn := by
    rw [hu] at hn
    cases hn
  spent hs := by
    rw [hp] at hs
    cases hs
  covers n es hl := by
    rw [(Phase.of_looping hl).2.1] at hp
    cases hp

/-! ## The ledger of claims and effects -/

/-- The effects have had at most the attempts of their claim, and a completed
claim leaves none behind. -/
structure Ledger (s : Store) : Prop where
  attempts : ∀ e ∈ s.effects, e.attempts ≤ attemptsOf s (purposeClaim e.purpose)
  done : ∀ p, ∀ r ∈ s.claims, claimKey r = purposeClaim p → r.status = .completed →
    Spent s p ∧ ∀ e ∈ s.effects, e.purpose = p → e.Out

theorem Ledger.frame {s u : Store} (h : Ledger s) (hi : StoreInv s) (hm : Moved s u)
    (hatt : ∀ e ∈ u.effects, Stems s e ∨ e.attempts ≤ attemptsOf s (purposeClaim e.purpose))
    (hdone : ∀ r ∈ u.claims, r.status = .completed → r ∈ s.claims)
    (hout : ∀ p, ∀ r ∈ s.claims, claimKey r = purposeClaim p → r.status = .completed →
      ∀ e ∈ u.effects, e.purpose = p → e ∈ s.effects ∨ e.Out) : Ledger u where
  attempts e he := by
    have hmono := (hm.leases hi).attempts (purposeClaim e.purpose)
    rcases hatt e he with (⟨e₀, he₀, hp₀, ha₀⟩ | hzero) | hle
    · have := h.attempts e₀ he₀
      rw [hp₀] at this
      omega
    · omega
    · omega
  done p r hr hk hst := by
    have hold := hdone r hr hst
    obtain ⟨hspent, houts⟩ := h.done p r hold hk hst
    refine ⟨hspent.moved hm, fun e he hp => ?_⟩
    rcases hout p r hold hk hst e he hp with he | ho
    · exact houts e he hp
    · exact ho

/-- A move that leaves the effects alone and completes nothing. -/
theorem Ledger.frame_effects {s u : Store} (h : Ledger s) (hi : StoreInv s) (hm : Moved s u)
    (heq : u.effects = s.effects)
    (hdone : ∀ r ∈ u.claims, r.status = .completed → r ∈ s.claims) : Ledger u := by
  refine h.frame hi hm (fun e he => .inl (.inl ⟨e, heq ▸ he, rfl, rfl⟩)) hdone ?_
  exact fun _ _ _ _ _ e he _ => .inl (heq ▸ he)

theorem Ledger.process {s u : Store} {event : CommerceEvent} (h : Ledger s) (hi : StoreInv s)
    (hp : Processing event s u) : Ledger u := by
  refine h.frame hi (.process hp) (fun e he => .inl (hp.attempts he))
    (fun r hr _ => hp.claims.1 ▸ hr) ?_
  intro p r hr hk hst e he hpur
  rcases hp.effects_spent hi (h.done p r hr hk hst).1 he hpur with he | hc
  · exact .inl he
  · exact .inr (.inr hc)

theorem Ledger.publish {s u : Store} {effect : EffectRow} {key : EventKey} {token : Nat}
    (h : Ledger s) (hi : StoreInv s) (hp : publishEffect effect key token s = .ok ((), u)) :
    Ledger u := by
  have hm : Moved s u := .publish hp
  obtain ⟨-, rfl⟩ := publishEffect_ok hp
  refine h.frame hi hm ?_ (fun r hr _ => hr) ?_
  · intro e he
    obtain ⟨e₀, he₀, rfl⟩ := mem_updateWhere.mp he
    exact .inl (.inl ⟨e₀, he₀, by split <;> rfl, by split <;> rfl⟩)
  · intro p r hr hk hst e he hpur
    obtain ⟨e₀, he₀, rfl⟩ := mem_updateWhere.mp he
    split
    · exact .inr (.inl rfl)
    · exact .inl he₀

theorem Ledger.release {s u : Store} {effect : EffectRow} (h : Ledger s) (hi : StoreInv s)
    (hr : releaseEffect effect s = .ok ((), u)) : Ledger u := by
  have hm : Moved s u := .release hr
  cases hr
  refine h.frame hi hm ?_ (fun r hr _ => hr) ?_
  · intro e he
    obtain ⟨e₀, he₀, rfl⟩ := mem_updateWhere.mp he
    exact .inl (.inl ⟨e₀, he₀, by split <;> rfl, by split <;> rfl⟩)
  · intro p r hr hk hst e he hpur
    obtain ⟨e₀, he₀, rfl⟩ := mem_updateWhere.mp he
    split at hpur
    · rename_i hsel
      -- a publishing effect of a completed claim: there is none
      simp only [Bool.and_eq_true, decide_eq_true_eq] at hsel
      rcases (h.done p r hr hk hst).2 e₀ he₀ hpur with ho | ho <;> rw [hsel.2.1] at ho <;> cases ho
    · rename_i hsel
      rw [if_neg hsel]
      exact .inl he₀

/-- Claiming effects under the lease of a delivery that had not. -/
theorem Ledger.claimEffects {s : Store} {event : CommerceEvent} {token : Nat} (h : Ledger s)
    (hi : StoreInv s)
    (hfresh : HasToken s (purposeClaim event.purpose) token → ∀ e ∈ s.effects,
      e.purpose = event.purpose → e.attempts < attemptsOf s (purposeClaim event.purpose)) :
    Ledger
      { s with
        nextToken := s.nextToken + 1
        effects := updateWhere (isClaimable s event token) (claimedEffect s) s.effects } := by
  refine h.frame hi (.claimEffects event token) ?_ (fun r hr _ => hr) ?_
  · intro e he
    obtain ⟨e₀, he₀, rfl⟩ := mem_updateWhere.mp he
    split
    · rename_i hsel
      obtain ⟨hpur, -, -, -, hlive⟩ := isClaimable_iff.mp hsel
      have := hfresh hlive.hasToken e₀ he₀ hpur
      refine .inr ?_
      show e₀.attempts + 1 ≤ attemptsOf s (purposeClaim e₀.purpose)
      rw [hpur]
      exact this
    · exact .inl (.inl ⟨e₀, he₀, rfl, rfl⟩)
  · intro p r hr hk hst e he hpur
    obtain ⟨e₀, he₀, rfl⟩ := mem_updateWhere.mp he
    split at hpur
    · rename_i hsel
      -- its claim would be processing
      obtain ⟨hpe, -, -, -, r', hr', hk', hheld⟩ := isClaimable_iff.mp hsel
      have hsame : event.purpose = p := hpe.symm.trans hpur
      cases hi.claims.keys.eq_of_mem hr hr' (hk.trans (hsame ▸ hk'.symm))
      rw [(isHeld_iff.mp hheld).1] at hst
      cases hst
    · rename_i hsel
      rw [if_neg hsel]
      exact .inl he₀

end CommercePlayground.Fulfillment
