/-
CommercePlayground.Journey — a paid order on its way to the analytics store.

Three machines run side by side: checkout with payment and inventory (`System`), the
publishers of its outbox (`Outbox`), and the broker with the analytics consumer of
fulfillment. They meet in two places. The transaction that pays an order inserts its row in
the outbox, and with it an id that must be free. A publisher's message reaches the broker at
any time after its claim, or never, and the broker acknowledges only what it has.
-/
import CommercePlayground.System
import CommercePlayground.Outbox.Publisher
import CommercePlayground.Fulfillment.AnalyticsConsumer

namespace CommercePlayground.Journey

open Lib Fulfillment

/-- The three machines. Each has a clock of its own. -/
structure World where
  checkout : System.State
  outbox : Outbox.State
  pipeline : AnalyticsEventConsumer.Pipeline

/-- What can happen. -/
inductive Action where
  /-- A step of checkout; `id` is the one of the outbox row, if it pays an order. -/
  | checkout (a : System.Action) (id : Outbox.OutboxId)
  | publisher (a : Outbox.Action)
  /-- The message of a publisher reaches the broker. -/
  | send (publisher : Nat)
  /-- A step of the analytics consumer, or of another publisher. -/
  | consumer (a : AnalyticsEventConsumer.Action)

/-- The rows of the event that a transaction of checkout adds, if it adds one. -/
def insertNew (id : Outbox.OutboxId) (before after : List OutboxEvent) (s : Outbox.Store) :
    Option Outbox.Store :=
  match after.drop before.length with
  | [] => some s
  | e :: _ =>
    let s' := Outbox.insertEvent id e s
    -- an INSERT that fails takes the transaction with it
    if s'.rows.any fun r => decide (r.event = e) then some s' else none

/-- What a publisher may do: rows are inserted by checkout only, and a routed
acknowledgement is for a message that the broker has. -/
def permitted (message : OutboxEvent → AnalyticsEventConsumer.Message) (w : World) :
    Outbox.Action → Bool
  | .insert _ _ => false
  | .answer i (.confirmed (.ack false)) =>
    w.outbox.publishers[i]?.any fun p =>
      decide ((message p.claim.event.event).event ∈ w.pipeline.published)
  | _ => true

/-- One step. `message` is what `publish_outbox_message` sends for an event. -/
def step (names : QueueNames) (message : OutboxEvent → AnalyticsEventConsumer.Message)
    (w : World) : Action → Option World
  | .checkout a id =>
    match System.step w.checkout a with
    | none => none
    | some s =>
      (insertNew id w.checkout.db.checkout.outbox s.db.checkout.outbox w.outbox.db).map
        fun db => { w with checkout := s, outbox := { w.outbox with db := db } }
  | .publisher a =>
    if permitted message w a then
      (Outbox.outboxStep w.outbox a).map fun o => { w with outbox := o }
    else none
  | .send i =>
    match w.outbox.publishers[i]? with
    | none => none
    | some p =>
      (AnalyticsEventConsumer.step names w.pipeline (.publish (message p.claim.event.event))).map
        fun q => { w with pipeline := q }
  | .consumer a =>
    (AnalyticsEventConsumer.step names w.pipeline a).map fun q => { w with pipeline := q }

/-- Nothing was ordered, queued or published yet. -/
structure Initial (w : World) : Prop where
  checkout : System.Initial w.checkout
  rows : w.outbox.db.rows = []
  publishers : w.outbox.publishers = []
  pipeline : AnalyticsEventConsumer.Initial w.pipeline

end CommercePlayground.Journey
