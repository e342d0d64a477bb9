/-
CommercePlayground.System — checkout, payment and inventory running together.

Any number of processes (request handlers and worker polls) run at once, one
effect at a time, in any order. A transaction commits, fails, or commits and
loses the reply. A remote call is sent into the network, where it stays: the
service may handle it at any later time, several times or never, and the
caller takes one of its replies or gives up with any status. Processes may
crash between two effects, time passes, heartbeats fire, the payment service
reconciles its pending payments, providers decide and inventory reaps expired
reservations.
-/
import CommercePlayground.Lib.Transition
import CommercePlayground.Checkout.Processes

namespace CommercePlayground.System

open Lib Checkout

/-! ## State -/

/-- A reply in the network. -/
inductive Reply where
  | payment (r : PaymentStore.TxOutcome)
  | record (r : Except PaymentRpcException PaymentRecord)
  | reserve (r : Response Inventory.ReserveOutcome)
  | release (r : Response Inventory.ReleaseOutcome)
  | consume (r : Response InventoryConsumeResponse)

/-- The reply to a call. -/
def Reply.of : (c : Call) → c.Reply → Reply
  | .payment _, r => .payment r
  | .getPayment .., r => .record r
  | .reserve _, r => .reserve r
  | .release _, r => .release r
  | .consume _, r => .consume r

/-- The reply, as a reply to a call of its kind. -/
def Reply.as : Reply → (c : Call) → Option c.Reply
  | .payment r, .payment _ => some r
  | .record r, .getPayment .. => some r
  | .reserve r, .reserve _ => some r
  | .release r, .release _ => some r
  | .consume r, .consume _ => some r
  | _, _ => none

/-- What is left of a process. -/
abbrev Work := Prog Effect Effect.Result Unit

/-- A process: what is left of it, the call it waits for and its heartbeats. -/
structure Thread where
  work : Work
  waiting : Option Nat
  beats : List CheckoutFence

/-- The processes of checkout. -/
inductive Process where
  | checkout (input : CheckoutInput)
  | reconciliation (pick : TenantId × RequestId)
  | compensation (expired pick : Nat)

/-- Run a process for its effects. -/
def workOf {α : Type} (flow : Flow α) : Work := do
  let _ ← flow.run
  pure ()

def Process.work : Process → Work
  | .checkout input => workOf (checkoutInner input)
  | .reconciliation pick => workOf (processOnePaymentReconciliation pick)
  | .compensation expired pick => workOf (processOneCompensation expired pick)

/-- The whole system. Calls stay in `net`; a reply names its call by the
position there. -/
structure State where
  db : Db
  net : List Call
  replies : List (Nat × Reply)
  threads : List Thread

/-! ## Steps of a process -/

/-- How the world answers an effect. -/
inductive Choice where
  | commit
  | fault (f : Checkout.Fault)
  /-- The transaction commits and its reply is lost. -/
  | commitLost
  | send
  /-- The service cannot be reached: nothing is sent. -/
  | unreachable
  /-- The reply at this position arrives. -/
  | receive (reply : Nat)
  /-- The same, with an unreadable body. -/
  | truncate (reply : Nat)
  /-- The caller gives up with this status. -/
  | lose (code : GrpcCode)
  /-- The service answers that its own database is down. -/
  | outage
  | catalog (r : ApiResult Unit)
  | pricing (r : ApiResult QuoteResponse)
  | go

/-- What a choice makes of an effect: its result, or a call under way. -/
inductive Progress (e : Effect) where
  | finished (s : State) (r : e.Result)
  | sent (s : State) (call : Nat)

/-- A transaction of a process. -/
def txStep (s : State) (t : Tx) : Choice → Option (Progress (.tx t))
  | .commit =>
    match t.run s.db with
    | .ok (r, db) => some (.finished { s with db := db } (.ok r))
    | .error e => some (.finished s (.error e))
  | .fault f => some (.finished s (.error (t.faultError f)))
  | .commitLost =>
    match t.run s.db with
    | .ok (_, db) => some (.finished { s with db := db } (.error t.commitError))
    | .error _ => none
  | _ => none

/-- The reply at a position, if it answers the call. -/
def State.replyTo (s : State) (call reply : Nat) (c : Call) : Option c.Reply :=
  match s.replies[reply]? with
  | some (n, r) => if n = call then r.as c else none
  | none => none

/-- A remote call of a process. -/
def callStep (s : State) (c : Call) : Option Nat → Choice → Option (Progress (.call c))
  | none, .send => some (.sent { s with net := s.net ++ [c] } s.net.length)
  | none, .unreachable => some (.finished s (c.lost .unavailable))
  | some n, .receive reply =>
    (s.replyTo n reply c).map fun r => .finished s (c.received r)
  | some n, .truncate reply =>
    (s.replyTo n reply c).map fun r => .finished s (c.truncated r)
  | some _, .lose code => if code = .ok then none else some (.finished s (c.lost code))
  | some _, .outage => some (.finished s c.refused)
  | _, _ => none

/-- One effect of a process. -/
def effectStep (s : State) (waiting : Option Nat) (choice : Choice) :
    (e : Effect) → Option (Progress e)
  | .tx t => txStep s t choice
  | .call c => callStep s c waiting choice
  | .catalog _ =>
    match choice with
    | .catalog r => some (.finished s r)
    | _ => none
  | .pricing _ =>
    match choice with
    | .pricing r => some (.finished s r)
    | _ => none
  | .startHeartbeat _ | .stopHeartbeat =>
    match choice with
    | .go => some (.finished s ())
    | _ => none

/-- The heartbeats after an effect. -/
def beatsAfter (beats : List CheckoutFence) : Effect → List CheckoutFence
  | .startHeartbeat fence => fence :: beats
  | .stopHeartbeat => beats.tail
  | _ => beats

/-- A process goes on. -/
def Thread.step (t : Thread) (s : State) (choice : Choice) : Option (State × Thread) :=
  match t.work with
  | .done _ => none
  | .perform e k =>
    match effectStep s t.waiting choice e with
    | none => none
    | some (.sent s' n) => some (s', { t with waiting := some n })
    | some (.finished s' r) => some (s', ⟨k r, none, beatsAfter t.beats e⟩)

/-! ## Steps of the system -/

/-- What can happen. -/
inductive Action where
  | spawn (p : Process)
  | run (thread : Nat) (choice : Choice)
  | crash (thread : Nat)
  | heartbeat (thread : Nat) (fence : CheckoutFence)
  /-- A service handles the call at this position of the network. -/
  | deliver (call : Nat)
  | elapse (time : Nat)
  /-- A run of the payment service's own reconciliation. -/
  | reconcilePayments (maxBatch : Nat) (keys : List (TenantId × PaymentId))
  /-- The payment provider publishes a decision. -/
  | decide (d : ProviderDecision)
  | reap (visible : Reservation → Bool)

/-- A process that has ended. -/
def ended : Thread := ⟨.done (), none, []⟩

/-- A heartbeat; its failure changes nothing. -/
def beat (db : Db) (fence : CheckoutFence) : Db :=
  match refreshCheckoutFence fence db with
  | .ok (_, db') => db'
  | .error _ => db

/-- The database after the provider published a decision. -/
def decided (db : Db) (d : ProviderDecision) : Db :=
  match PaymentStore.insertDecision db d with
  | .ok db' => db'
  | .error _ => db

/-- One step. -/
def step (s : State) : Action → Option State
  | .spawn p => some { s with threads := s.threads ++ [⟨p.work, none, []⟩] }
  | .run i choice =>
    match s.threads[i]? with
    | none => none
    | some t =>
      match t.step s choice with
      | none => none
      | some (s', t') => some { s' with threads := s.threads.set i t' }
  | .crash i => some { s with threads := s.threads.set i ended }
  | .heartbeat i fence =>
    match s.threads[i]? with
    | none => none
    | some t => if fence ∈ t.beats then some { s with db := beat s.db fence } else none
  | .deliver n =>
    match s.net[n]? with
    | none => none
    | some c => some { s with
        db := (c.serve s.db).2
        replies := s.replies ++ [(n, Reply.of c (c.serve s.db).1)] }
  | .elapse time => some { s with db := { s.db with now := s.db.now + time } }
  | .reconcilePayments maxBatch keys => some { s with
      db := PaymentStore.committed s.db
        (PaymentStore.reconcilePendingPayments maxBatch keys s.db) }
  | .decide d =>
    if d.verifiedAt ≤ s.db.now then some { s with db := decided s.db d } else none
  | .reap visible => some { s with
      db := Inventory.committed s.db (Inventory.reapExpiredReservations visible s.db) }

/-- Nothing was ordered, paid or reserved yet and nobody is at work. Carts,
promotions and the stock are as their keys allow. -/
structure Initial (s : State) : Prop where
  attempts : s.db.checkout.attempts = []
  orders : s.db.checkout.orders = []
  tasks : s.db.checkout.tasks = []
  reconciliations : s.db.checkout.reconciliations = []
  outbox : s.db.checkout.outbox = []
  payments : s.db.payment.payments = []
  operations : s.db.payment.operations = []
  decisions : s.db.payment.decisions = []
  reservations : s.db.inventory.reservations = []
  carts : KeyUnique (·.id) s.db.checkout.carts
  promotions : KeyUnique (fun p => (p.tenantId, p.code)) s.db.checkout.promotions
  net : s.net = []
  replies : s.replies = []
  threads : s.threads = []

end CommercePlayground.System
