/-
CommercePlayground.Notifications.Carrier — the trace headers of a delivery, written
when it is recorded and rebuilt when it is sent.

A row of `notification_deliveries` has three columns for them, which only the INSERT of
`record_delivery` writes. They stand beside the rows here, under the id of the row, and
a step of this machine is one of the deliveries together with what it does to them.
What `process_job` reports is no longer left open: it quarantines the delivery if the
headers cannot be rebuilt, and says how the dispatch went otherwise.
-/
import CommercePlayground.Notifications.Store
import CommercePlayground.Propagation.Durable

namespace CommercePlayground.Notifications

open Lib
open Propagation (Carrier isHeaderChar)
open Propagation.Shared (toStr validateDurableContext)

/-! ## Writing -/

/-- The columns `traceparent`, `tracestate` and `baggage`. -/
structure StoredCarrier where
  traceparent : Option Text
  tracestate : Option Text
  baggage : Option Text
  deriving DecidableEq

/-- `header_value`. -/
def headerValue (values : List Text) : Option Text :=
  values.head?.bind fun value => (toStr value).toOption

/-- `header_values`. -/
def headerValues (values : List Text) : Option Text :=
  let values := values.filterMap fun value => (toStr value).toOption
  if values.isEmpty then none else some ([','].intercalate values)

/-- What `record_delivery` inserts. -/
def storedCarrier (headers : Carrier) : StoredCarrier where
  traceparent := headerValue headers.traceparent
  tracestate := headerValue headers.tracestate
  baggage := headerValues headers.baggage

/-! ## Reading -/

/-- `insert_header`, into headers without that name. -/
def insertHeader (name : String) : Option Text → Except String (List Text)
  | none => .error ("durable W3C " ++ name ++ " header is missing")
  | some value =>
    if value.all isHeaderChar then .ok [value]
    else .error ("durable W3C " ++ name ++ " header is invalid")

/-- `job_context_headers`. -/
def jobContextHeaders (job : StoredCarrier) : Except String Carrier := do
  let traceparent ← insertHeader "traceparent" job.traceparent
  let tracestate ← insertHeader "tracestate" job.tracestate
  let baggage ← insertHeader "baggage" job.baggage
  let headers : Carrier := ⟨traceparent, tracestate, baggage⟩
  validateDurableContext headers
  return headers

/-- `process_job`: what it reports, when `dispatch_notification` ends as it does. -/
def processJob (job : StoredCarrier) (dispatched : Except String Unit) : Report :=
  match jobContextHeaders job with
  | .error error => .invalid error
  | .ok _ =>
    match dispatched with
    | .ok () => .delivered
    | .error error => .failed error

/-! ## The machine -/

structure CarrierState where
  base : State
  columns : List (DeliveryId × StoredCarrier)

/-- The columns a job reads with its row; NULL where nothing was written. -/
def CarrierState.columnsOf (s : CarrierState) (id : DeliveryId) : StoredCarrier :=
  (s.columns.lookup id).getD ⟨none, none, none⟩

inductive CarrierAction where
  | record (headers : Carrier) (request : NotificationRequest) (eventKey : EventKey)
      (fault : Fault)
  | process (worker : Nat) (dispatched : Except String Unit) (fault : Fault)
  /-- A step that neither records nor reports. -/
  | other (a : Action)

/-- The columns after a step of `record_delivery`: new ones if there is a new row. -/
def recordColumns (headers : Carrier) (before after : Store)
    (columns : List (DeliveryId × StoredCarrier)) : List (DeliveryId × StoredCarrier) :=
  if after.nextId = before.nextId then columns
  else columns ++ [(before.nextId, storedCarrier headers)]

def carrierStep (s : CarrierState) : CarrierAction → Option CarrierState
  | .record headers request eventKey fault =>
    (deliveryStep s.base (.record (validateDurableContext headers) request eventKey fault)).map
      fun t => ⟨t, recordColumns headers s.base.db t.db s.columns⟩
  | .process i dispatched fault =>
    match s.base.workers[i]? with
    | some (.processing job) =>
      (deliveryStep s.base
        (.report i (processJob (s.columnsOf job.id) dispatched) fault)).map
          fun t => ⟨t, s.columns⟩
    | _ => none
  | .other a =>
    match a with
    | .record _ _ _ _ => none
    | .report _ _ _ => none
    | a => (deliveryStep s.base a).map fun t => ⟨t, s.columns⟩

/-! ## What headers say -/

/-- The members of the baggage, over all its lines. -/
def baggageMembersOf (headers : Carrier) : List Text :=
  headers.baggage.flatMap fun line => line.splitOn ','

/-- Two carriers name the same trace and the same baggage. -/
structure SameContext (headers headers' : Carrier) : Prop where
  traceparent : headers'.traceparent = headers.traceparent
  tracestate : headers'.tracestate = headers.tracestate
  members : baggageMembersOf headers' = baggageMembersOf headers

end CommercePlayground.Notifications
