/-
CommercePlayground.JourneyTheorems — every paid order can be accounted for.

`paid_orders_accounted`: however checkout, the publishers, the broker and the consumer
interleave, and whatever fails on the way, a paid order has its event in the outbox, and once
the row of the event is published its message waits in a queue, is with a delivery that has
not settled it, or is recorded in both analytics databases. Each machine keeps its own
invariant; what joins them is that a row is published only after an acknowledgement, and an
acknowledgement comes only after the message (`Inv.acked`).
-/
import CommercePlayground.Journey
import CommercePlayground.System.FinalizationTheorems
import CommercePlayground.Outbox.PublisherTheorems
import CommercePlayground.Fulfillment.AnalyticsTheorems

namespace CommercePlayground.Journey

open Lib Fulfillment

/-! ## The invariant -/

section

variable {names : QueueNames} {message : OutboxEvent → AnalyticsEventConsumer.Message}

structure Inv (message : OutboxEvent → AnalyticsEventConsumer.Message) (w : World) : Prop where
  checkout : System.FinalInv w.checkout
  outbox : Outbox.Inv w.outbox
  pipeline : AnalyticsEventConsumer.Inv w.pipeline
  rows : ∀ e ∈ w.checkout.db.checkout.outbox, ∃ r ∈ w.outbox.db.rows, r.event = e
  acked : ∀ p ∈ w.outbox.publishers, p.answer = some (.confirmed (.ack false)) →
    (message p.claim.event.event).event ∈ w.pipeline.published
  published : ∀ r ∈ w.outbox.db.rows, r.status = .published →
    (message r.event).event ∈ w.pipeline.published

/-- The publishers after a step: old ones, new ones without an answer, and the one that has
got its answer. -/
theorem publisher_origin {s t : Outbox.State} {a : Outbox.Action}
    (hs : Outbox.outboxStep s a = some t) {p : Outbox.Publisher} (hp : p ∈ t.publishers) :
    p ∈ s.publishers ∨ p.answer = none ∨
      ∃ i publication, a = .answer i publication ∧
        s.publishers[i]? = some ⟨p.claim, none⟩ ∧ p.answer = some publication := by
  cases a with
  | insert id event =>
    cases hs
    exact .inl hp
  | claim locked fault =>
    cases hs
    cases fault with
    | none =>
      rcases List.mem_append.mp hp with hp | hp
      · exact .inl hp
      · obtain ⟨claim, -, rfl⟩ := List.mem_map.mp hp
        exact .inr (.inl rfl)
    | before => exact .inl hp
    | after => exact .inl hp
  | answer i publication =>
    simp only [Outbox.outboxStep] at hs
    split at hs
    · rename_i claim hget
      cases hs
      rcases List.mem_or_eq_of_mem_set hp with hp | rfl
      · exact .inl hp
      · exact .inr (.inr ⟨i, publication, rfl, hget, rfl⟩)
    · cases hs
  | record i fault =>
    simp only [Outbox.outboxStep] at hs
    split at hs
    · cases hs
      exact .inl (List.mem_of_mem_eraseIdx hp)
    · cases hs
  | stop i =>
    cases hs
    exact .inl (List.mem_of_mem_eraseIdx hp)
  | elapse time =>
    cases hs
    exact .inl hp
  | replay tenantId id =>
    cases hs
    exact .inl hp

/-- The events of the outbox stay. -/
theorem outbox_events {s t : Outbox.State} {a : Outbox.Action} (h : Outbox.Inv s)
    (hs : Outbox.outboxStep s a = some t) {r : Outbox.Row} (hr : r ∈ s.db.rows) :
    ∃ r' ∈ t.db.rows, r'.id = r.id ∧ r'.event = r.event :=
  Outbox.event_kept h (.tail .refl trivial hs) r hr

/-- What a step of the outbox keeps, if an acknowledgement is for a message that the broker
has. -/
theorem Inv.outboxStep {w : World} {o : Outbox.State} {a : Outbox.Action} (h : Inv message w)
    (hs : Outbox.outboxStep w.outbox a = some o)
    (hack : ∀ i p, a = .answer i (.confirmed (.ack false)) → w.outbox.publishers[i]? = some p →
      (message p.claim.event.event).event ∈ w.pipeline.published) :
    Inv message { w with outbox := o } where
  checkout := h.checkout
  outbox := h.outbox.step hs
  pipeline := h.pipeline
  rows e he := by
    obtain ⟨r, hr, rfl⟩ := h.rows e he
    obtain ⟨r', hr', -, hevent⟩ := outbox_events h.outbox hs hr
    exact ⟨r', hr', hevent⟩
  acked p hp hanswer := by
    rcases publisher_origin hs hp with hp | hnone | ⟨i, publication, rfl, hget, hsame⟩
    · exact h.acked p hp hanswer
    · rw [hnone] at hanswer
      cases hanswer
    · rw [hsame] at hanswer
      cases hanswer
      exact hack i ⟨p.claim, none⟩ rfl hget
  published r' hr' hst := by
    rcases Outbox.published_origin h.outbox hs hr' hst with
      hold | ⟨i, fault, claim, r, rfl, hget, hr, hid, hheld⟩
    · exact h.published r' hold hst
    · -- the row that is published is the one that was claimed
      obtain ⟨hclaim, -, htoken, -⟩ := Outbox.isHeld_iff.mp hheld
      have hmem := List.mem_of_getElem? hget
      have hrow := (h.outbox.publishers _ hmem).current r hr hclaim htoken
      obtain ⟨x, hx, hxid, hevent⟩ := outbox_events h.outbox hs hr
      rw [(h.outbox.step hs).ids.eq_of_mem hr' hx (hid.symm.trans hxid.symm), hevent, hrow]
      exact h.acked _ hmem rfl

theorem Inv.consumer {w : World} {a : AnalyticsEventConsumer.Action}
    {q : AnalyticsEventConsumer.Pipeline} (h : Inv message w)
    (hs : AnalyticsEventConsumer.step names w.pipeline a = some q) :
    Inv message { w with pipeline := q } := by
  obtain ⟨hq, hpub⟩ := h.pipeline.step hs
  exact ⟨h.checkout, h.outbox, hq, h.rows, fun p hp ha => hpub (h.acked p hp ha),
    fun r hr hst => hpub (h.published r hr hst)⟩

/-- A step of checkout pays one order at most. -/
theorem Inv.checkoutStep {w : World} {a : System.Action} {id : Outbox.OutboxId}
    {s : System.State} {db : Outbox.Store} (h : Inv message w)
    (hs : System.step w.checkout a = some s)
    (hdb : insertNew id w.checkout.db.checkout.outbox s.db.checkout.outbox w.outbox.db =
      some db) :
    Inv message { w with checkout := s, outbox := { w.outbox with db := db } } := by
  obtain ⟨hfinal, hchange⟩ := h.checkout.step hs
  unfold insertNew at hdb
  rcases hchange with hsame | ⟨o, hone⟩
  · rw [hsame.outbox, List.drop_length] at hdb
    cases hdb
    refine ⟨hfinal, h.outbox, h.pipeline, ?_, h.acked, h.published⟩
    rw [hsame.outbox]
    exact h.rows
  · obtain ⟨paymentId, hevent⟩ := hone.event
    rw [hevent, List.drop_left] at hdb
    simp only at hdb
    split at hdb
    · rename_i hany
      cases hdb
      have hinsert := h.outboxStep (a := .insert id ⟨o.tenantId, o.id, paymentId, o.totalMinor⟩)
        rfl fun _ _ ha => by cases ha
      refine ⟨hfinal, hinsert.outbox, h.pipeline, ?_, hinsert.acked, hinsert.published⟩
      rw [hevent]
      refine forall_append_singleton hinsert.rows ?_
      obtain ⟨r, hr, he⟩ := List.any_eq_true.mp hany
      exact ⟨r, hr, of_decide_eq_true he⟩
    · cases hdb

theorem Inv.step {w w' : World} {a : Action} (h : Inv message w)
    (hs : step names message w a = some w') : Inv message w' := by
  cases a with
  | checkout a id =>
    simp only [Journey.step] at hs
    split at hs
    · cases hs
    · rename_i s hsys
      obtain ⟨db, hdb, rfl⟩ := Option.map_eq_some_iff.mp hs
      exact h.checkoutStep hsys hdb
  | publisher a =>
    simp only [Journey.step] at hs
    split at hs
    · rename_i hp
      obtain ⟨o, ho, rfl⟩ := Option.map_eq_some_iff.mp hs
      refine h.outboxStep ho fun i p ha hget => ?_
      rw [ha] at hp
      simp only [permitted, hget, Option.any_some, decide_eq_true_eq] at hp
      exact hp
    · cases hs
  | send i =>
    simp only [Journey.step] at hs
    split at hs
    · cases hs
    · obtain ⟨q, hq, rfl⟩ := Option.map_eq_some_iff.mp hs
      exact h.consumer hq
  | consumer a =>
    obtain ⟨q, hq, rfl⟩ := Option.map_eq_some_iff.mp hs
    exact h.consumer hq

theorem Inv.initial {w : World} (h : Initial w) : Inv message w where
  checkout := .initial h.checkout
  outbox := by
    refine ⟨?_, fun r hr => ?_, fun p hp => ?_⟩
    · rw [h.rows]
      exact KeyUnique.nil _
    · rw [h.rows] at hr
      cases hr
    · rw [h.publishers] at hp
      cases hp
  pipeline := .initial h.pipeline
  rows e he := by
    rw [h.checkout.outbox] at he
    cases he
  acked p hp := by
    rw [h.publishers] at hp
    cases hp
  published r hr := by
    rw [h.rows] at hr
    cases hr

/-- **Every paid order is accounted for.** Its event is in the outbox, and once the event is
published its message waits in a queue, is with a delivery that has not settled it, or is
recorded in both analytics databases. -/
theorem paid_orders_accounted {w₀ w : World} (h₀ : Initial w₀)
    (h : Reach (step names message) (fun _ _ => True) w₀ w) :
    ∀ o ∈ w.checkout.db.checkout.orders, o.status = .paid →
      ∃ r ∈ w.outbox.db.rows, r.event.tenantId = o.tenantId ∧ r.event.orderId = o.id ∧
        (r.status = .published →
          AnalyticsEventConsumer.Accounted w.pipeline (message r.event).event) := by
  have hinv : Inv message w :=
    h.invariant (Inv.initial h₀) fun _ _ _ hi _ hs => hi.step hs
  intro o ho hpaid
  obtain ⟨e, he, hkey⟩ := hinv.checkout.paid.complete o ho hpaid
  obtain ⟨r, hr, rfl⟩ := hinv.rows e he
  simp only [System.eventKey, Prod.mk.injEq] at hkey
  exact ⟨r, hr, hkey.1, hkey.2, fun hst => hinv.pipeline.accounted (hinv.published r hr hst)⟩

end

/-! One article is bought, its event is published and recorded. -/

def sampleBody (e : OutboxEvent) : AnalyticsEventConsumer.Message where
  event := some
    { event := { sampleEvent with
        eventKey := .raw 1
        tenantId := e.tenantId
        orderId := e.orderId
        totalMinor := e.totalMinor }
      typeName := "order.paid".toList
      exposure := none }
  properties := sampleProperties

def sampleWorld : World where
  checkout := System.sampleShop
  outbox := ⟨⟨[], 0, 0⟩, []⟩
  pipeline := AnalyticsEventConsumer.samplePipeline

theorem sampleWorld_initial : Initial sampleWorld :=
  ⟨System.sampleShop_initial, rfl, rfl, AnalyticsEventConsumer.samplePipeline_initial⟩

/-- Checkout pays the order, a publisher sends its event, and the consumer records it. -/
def sampleJourney : List Action :=
  System.sampleCheckout.map (fun a => .checkout a 7) ++
    [.publisher (.claim (fun _ => false) .none), .send 0,
      .publisher (.answer 0 (.confirmed (.ack false))), .publisher (.record 0 .none),
      .consumer (.claims (.environment 0 [⟨102, 1, .paid, 1, 200, 0⟩])),
      .consumer (.deliver 0)] ++
    List.replicate 8 (.consumer AnalyticsEventConsumer.answered)

theorem paid_orders_accounted_sample : ∃ w,
    run (step sampleNames sampleBody) sampleWorld sampleJourney = some w ∧
    w.pipeline.rows.length = 1 ∧ ∃ r ∈ w.outbox.db.rows, r.event.orderId = 102 ∧
      AnalyticsEventConsumer.Accounted w.pipeline (sampleBody r.event).event := by
  have hrun : (run (step sampleNames sampleBody) sampleWorld sampleJourney).map
      (fun w => (w.checkout.db.checkout.orders.map fun o => (o.id, o.status),
        w.outbox.db.rows.map (·.status), w.pipeline.rows.length)) =
      some ([(102, .paid)], [.published], 1) := by decide +kernel
  obtain ⟨w, hw, hend⟩ := Option.map_eq_some_iff.mp hrun
  simp only [Prod.mk.injEq] at hend
  obtain ⟨horders, hrows, hone⟩ := hend
  obtain ⟨o, ho, heq⟩ := List.mem_map.mp (horders ▸ List.mem_singleton_self _)
  simp only [Prod.mk.injEq] at heq
  obtain ⟨r, hr, -, hid, haccounted⟩ :=
    paid_orders_accounted sampleWorld_initial (reach_of_run hw) o ho heq.2
  refine ⟨w, hw, hone, r, hr, hid.trans heq.1, haccounted ?_⟩
  have hstatus : r.status ∈ w.outbox.db.rows.map (·.status) := List.mem_map_of_mem hr
  rw [hrows] at hstatus
  exact List.mem_singleton.mp hstatus

end CommercePlayground.Journey
