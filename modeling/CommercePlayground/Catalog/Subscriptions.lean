/-
CommercePlayground.Catalog.Subscriptions — the two readers of the price journal.

`run_price_change_subscription` of the storefront and `consume` of the catalog, any number
of them beside the transactions of `updatePrice`. Both keep the sequence number of the last
event they have handed on, wait for a notification, and replay the committed events beyond
that number. A notification goes with the commit to every connection that has registered
for the channel. A step is one statement of a transaction or one step of a reader.
-/
import CommercePlayground.Catalog.Prices
import Mathlib.Data.List.Sort

namespace CommercePlayground.Catalog.Subscriptions

open Lib

/-! ## Readers -/

inductive Service where
  /-- `run_price_change_subscription` -/
  | storefront
  /-- `PostgresPriceChangeListener.consume` -/
  | catalog
  deriving DecidableEq

/-- What a reader does next. `received` says that a notification has come in while a query
was under way. -/
inductive Phase where
  /-- Connect, and LISTEN. -/
  | connect
  | baseline
  | query (received : Bool)
  /-- The query has read these events; its answer is on the way. -/
  | response (events : List PriceChangeEvent) (received : Bool)
  | handing (events : List PriceChangeEvent) (received : Bool)
  | waiting
  | ended
  deriving DecidableEq

structure Reader where
  service : Service
  tenantId : Text
  sku : Option Text
  sequence : Nat
  /-- Once the baseline is captured, how many events had committed then. -/
  baseline : Option Nat
  /-- The connection is up and registered for the channel. -/
  registered : Bool
  /-- The notifications that have been sent to the connection and not been taken. -/
  pending : Nat
  phase : Phase
  /-- The events that it has passed on, and those among them that it has sent. -/
  handed : List PriceChangeEvent
  sent : List PriceChangeEvent
  deriving DecidableEq

/-- The scope of a subscription. -/
def Reader.covers (r : Reader) (e : PriceChangeEvent) : Bool :=
  decide (e.tenantId = r.tenantId) && r.sku.all fun sku => decide (e.sku = sku)

/-- `latest_sequence`, `latestSequence`. -/
def latestSequence (db : Database) (r : Reader) : Nat :=
  ((db.events.filter r.covers).map PriceChangeEvent.sequence).foldr max 0

/-- `events_after`, `eventsAfter`. -/
def eventsAfter (db : Database) (r : Reader) : List PriceChangeEvent :=
  (db.events.filter fun e => r.covers e && decide (r.sequence < e.sequence)).insertionSort
    fun a b => a.sequence ≤ b.sequence

/-- A new subscription. -/
def subscription (service : Service) (tenantId : Text) (sku : Option Text) : Reader where
  service := service
  tenantId := tenantId
  sku := sku
  sequence := 0
  baseline := none
  registered := false
  pending := 0
  phase := match service with
    | .storefront => .connect
    | .catalog => .baseline
  handed := []
  sent := []

/-- The connection is given up, and the outer loop begins anew. -/
def Reader.restart (r : Reader) : Reader :=
  { r with
    registered := false
    pending := 0
    phase := if r.service = .catalog ∧ r.baseline = none then .baseline else .connect }

/-- The storefront queries on the connection that listens, the catalog on another. -/
def Reader.canQuery (r : Reader) : Bool := decide (r.service = .catalog) || r.registered

/-- An event is passed on. The storefront sends it if the catalog shows its product. -/
def Reader.handOn (shows : PriceChangeEvent → Bool) (r : Reader) (e : PriceChangeEvent)
    (events : List PriceChangeEvent) (received : Bool) : Reader :=
  { r with
    sequence := e.sequence
    handed := r.handed ++ [e]
    sent := if r.service = .catalog || shows e then r.sent ++ [e] else r.sent
    phase := .handing events received }

/-- The next step of a reader succeeds. -/
def Reader.proceed (shows : PriceChangeEvent → Bool) (db : Database) (r : Reader) :
    Option Reader :=
  match r.phase with
  | .connect => some { r with
      registered := true
      pending := 0
      phase := if r.service = .storefront ∧ r.baseline = none then .baseline else .query false }
  | .baseline =>
    if r.canQuery then some { r with
      sequence := latestSequence db r
      baseline := some db.events.length
      phase := match r.service with
        | .storefront => .query false
        | .catalog => .connect }
    else none
  | .query received =>
    if r.canQuery then some { r with phase := .response (eventsAfter db r) received } else none
  | .response events received =>
    if r.canQuery then some { r with phase := .handing events received } else none
  | .handing [] received => some { r with phase := if received then .query false else .waiting }
  | .handing (e :: events) received =>
    if e.sequence ≤ r.sequence then some { r with phase := .handing events received }
    else some (r.handOn shows e events received)
  | .waiting => none
  | .ended => none

/-- A reader takes notifications from its connection: the catalog as many as have come in,
when it waits; the storefront one, also while a query is under way. -/
def Reader.poll (r : Reader) (n : Nat) : Option Reader :=
  if n = 0 ∨ r.pending < n ∨ r.service = .storefront ∧ n ≠ 1 then none
  else
    match r.service, r.phase with
    | _, .waiting => some { r with pending := r.pending - n, phase := .query false }
    | .storefront, .baseline => some { r with pending := r.pending - n }
    | .storefront, .query _ => some { r with pending := r.pending - n, phase := .query true }
    | .storefront, .response events _ =>
      some { r with pending := r.pending - n, phase := .response events true }
    | _, _ => none

/-- An operation fails, or the loss of the connection is noticed. While events are handed
on, only the projection of the storefront can fail. -/
def Reader.fail (r : Reader) : Option Reader :=
  match r.phase with
  | .handing [] _ => none
  | .handing (_ :: _) _ => if r.service = .storefront then some r.restart else none
  | .ended => none
  | _ => some r.restart

/-! ## Steps -/

inductive ReaderAction where
  | proceed
  | poll (n : Nat)
  | fail
  /-- The connection breaks. -/
  | lose
  /-- The subscriber goes away, or the service shuts down. -/
  | cancel

def Reader.step (shows : PriceChangeEvent → Bool) (db : Database) (r : Reader) :
    ReaderAction → Option Reader
  | .proceed => r.proceed shows db
  | .poll n => r.poll n
  | .fail => r.fail
  | .lose => some { r with registered := false }
  | .cancel => some { r with phase := .ended }

structure State where
  db : Database
  readers : List Reader

inductive Action where
  | price (action : Catalog.Action)
  | subscribe (service : Service) (tenantId : Text) (sku : Option Text)
  | read (reader : Nat) (action : ReaderAction)

/-- `pg_notify`, delivered with the commit. -/
def Reader.notify (r : Reader) : Reader :=
  if r.registered then { r with pending := r.pending + 1 } else r

def step (shows : PriceChangeEvent → Bool) (s : State) : Action → Option State
  | .price action => (Catalog.step s.db action).map fun db =>
      { db := db
        readers := if db.events.length = s.db.events.length then s.readers
          else s.readers.map Reader.notify }
  | .subscribe service tenantId sku =>
    some { s with readers := s.readers ++ [subscription service tenantId sku] }
  | .read i action => (s.readers[i]?).bind fun r =>
      (r.step shows s.db action).map fun r' => { s with readers := s.readers.set i r' }

/-- No reader and no transaction is under way. -/
structure Initial (s : State) : Prop where
  readers : s.readers = []
  transactions : s.db.transactions = []
  unique : KeyUnique PriceChangeEvent.sequence s.db.events
  next : ∀ e ∈ s.db.events, e.sequence < s.db.nextSequence
  positive : 0 < s.db.nextSequence

/-- A reader that waits, with every notification handled. -/
def Reader.CaughtUp (r : Reader) : Prop :=
  r.phase = .waiting ∧ r.registered = true ∧ r.pending = 0

instance (r : Reader) : Decidable r.CaughtUp := inferInstanceAs (Decidable (_ ∧ _ ∧ _))

/-- No event falls behind a subscription to a whole tenant: an update does not commit at or
below the number the reader has reached, and the reader does not pass an event that it has
not read. -/
def FallsBehindNone (s : State) : Action → Prop
  | .price (.statement i) => ∀ tx v ids price event, s.db.transactions[i]? = some tx →
      tx.phase = .recorded v ids price event → ∀ r ∈ s.readers, r.sku = none →
        r.baseline.isSome = true → r.covers event = true → r.sequence < event.sequence
  | .read i .proceed => ∀ r e events received, s.readers[i]? = some r → r.sku = none →
      r.phase = .handing (e :: events) received → ∀ e' ∈ s.db.events, r.covers e' = true →
        r.sequence < e'.sequence → e.sequence ≤ e'.sequence
  | _ => True

end CommercePlayground.Catalog.Subscriptions
