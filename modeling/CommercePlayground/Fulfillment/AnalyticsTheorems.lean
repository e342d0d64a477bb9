/-
CommercePlayground.Fulfillment.AnalyticsTheorems — no event is lost on its way to the
analytics store, and none is counted twice.

`analytics_events_kept`: a message that was published waits in a queue, or a delivery has
not settled it, or its event is recorded in both databases. `analytics_rows_bounded`: each
attempt at an event is counted in its claim before it may send a row, so that there are at
most `MAX_CLAIM_ATTEMPTS` rows of one identity; a reader of the newest rows sees one.

What carries both is a relation `Advance` between the pipeline and a delivery before a step
of that delivery and after it: the tables grow, the claims move by their own rules, and the
message stays with the delivery until it is somewhere else.
-/
import CommercePlayground.Fulfillment.AnalyticsConsumer
import CommercePlayground.Fulfillment.DeliveryRouteTheorems
import CommercePlayground.Fulfillment.EffectTheorems

namespace CommercePlayground.Fulfillment.AnalyticsEventConsumer

open Lib

/-! ## What is recorded -/

/-- The claim of an identity. -/
def claimKeyOf (i : TenantId × EventKey) : TenantId × Consumer × EventKey :=
  (i.1, .analytics, i.2)

/-- The event is in PostgreSQL. -/
def HasEvent (p : Pipeline) (i : TenantId × EventKey) : Prop := ∃ r ∈ p.events, r.identity = i

/-- The exposure an event reports is in ClickHouse. -/
def Exposed (p : Pipeline) (e : Event) : Prop :=
  ∀ key, e.exposure = some key → (e.event.tenantId, key) ∈ p.exposures

/-- The event is in PostgreSQL and in ClickHouse, with the exposure it reports. -/
def Recorded (p : Pipeline) (i : TenantId × EventKey) : Prop :=
  HasEvent p i ∧ ∃ e ∈ p.rows, e.identity = i ∧ Exposed p e

/-- The messages that are in a queue. -/
def Pipeline.waiting (p : Pipeline) : List Message := p.queue ++ p.retry ++ p.dead

/-- The rows of an identity in ClickHouse. -/
def Pipeline.rowCount (p : Pipeline) (i : TenantId × EventKey) : Nat :=
  p.rows.countP fun e => decide (e.identity = i)

/-- A body waits in a queue, is with a delivery that has not settled it, or is an event that
is recorded. -/
def Accounted (p : Pipeline) (body : Option Event) : Prop :=
  (∃ m ∈ p.waiting, m.event = body) ∨
    (∃ d ∈ p.deliveries, d.settled = false ∧ d.message.event = body) ∨
    ∃ e, body = some e ∧ Recorded p e.identity

/-- Nothing is deleted from a table. -/
structure Grows (p p' : Pipeline) : Prop where
  events : p.events ⊆ p'.events
  rows : p.rows ⊆ p'.rows
  exposures : p.exposures ⊆ p'.exposures

section Growing

variable {p p' : Pipeline} {i : TenantId × EventKey} {e : Event}

theorem HasEvent.grows (h : HasEvent p i) (hg : Grows p p') : HasEvent p' i := by
  obtain ⟨r, hr, hi⟩ := h
  exact ⟨r, hg.events hr, hi⟩

theorem Exposed.grows (h : Exposed p e) (hg : Grows p p') : Exposed p' e :=
  fun key hkey => hg.exposures (h key hkey)

theorem Recorded.grows (h : Recorded p i) (hg : Grows p p') : Recorded p' i := by
  obtain ⟨hevent, e, he, hi, hexposed⟩ := h
  exact ⟨hevent.grows hg, e, hg.rows he, hi, hexposed.grows hg⟩

end Growing

/-! ## Phases -/

/-- The event a delivery works on. -/
def Phase.event : Phase → Option Event
  | .record e _ | .failRecord e _ | .renew e _ | .ingest e _ | .expose e _ | .complete e _
  | .ack e _ | .close e _ | .fail e _ _ | .ackDuplicate e => some e
  | .start | .defer | .ackDeferred | .nack | .reject | .thrown | .finished => none

/-- The event whose row a delivery may still send. -/
def Phase.pending : Phase → Option Event
  | .record e _ | .renew e _ | .ingest e _ => some e
  | _ => none

/-- `1` for a delivery that may still send a row of the identity. -/
def Phase.attempt (phase : Phase) (i : TenantId × EventKey) : Nat :=
  if phase.pending.any fun e => decide (e.identity = i) then 1 else 0

/-- What is written when a delivery has come so far. -/
def Phase.Ok (p : Pipeline) : Phase → Prop
  | .renew e _ | .ingest e _ => HasEvent p e.identity
  | .expose e _ => HasEvent p e.identity ∧ e ∈ p.rows
  | .complete e _ => HasEvent p e.identity ∧ e ∈ p.rows ∧ Exposed p e
  | .ack e _ | .close e _ | .ackDuplicate e => Recorded p e.identity
  | _ => True

theorem Phase.Ok.grows {p p' : Pipeline} {phase : Phase} (h : phase.Ok p) (hg : Grows p p') :
    phase.Ok p' := by
  cases phase with
  | renew e token => exact HasEvent.grows h hg
  | ingest e token => exact HasEvent.grows h hg
  | expose e token => exact ⟨h.1.grows hg, hg.rows h.2⟩
  | complete e token => exact ⟨h.1.grows hg, hg.rows h.2.1, h.2.2.grows hg⟩
  | ack e token => exact Recorded.grows h hg
  | close e token => exact Recorded.grows h hg
  | ackDuplicate e => exact Recorded.grows h hg
  | _ => trivial

/-- A delivery that answers for its message: it has not settled it, nor published it
elsewhere. -/
def Delivery.Keeps (d : Delivery) : Prop := d.settled = false ∧ d.phase ≠ .ackDeferred

/-- Where a delivery may go without having written anything. -/
structure Fits (p : Pipeline) (d : Delivery) (phase : Phase) : Prop where
  ok : phase.Ok p
  body : ∀ e, phase.event = some e → d.message.event = some e
  attempt : ∀ i, phase.attempt i ≤ d.phase.attempt i

/-- The same, and it still answers for its message. -/
structure Follows (p : Pipeline) (d : Delivery) (phase : Phase) : Prop extends Fits p d phase where
  keeps : phase ≠ .ackDeferred

/-- A phase without an event asks for nothing. -/
theorem Follows.idle {p : Pipeline} {d : Delivery} {phase : Phase} (hevent : phase.event = none)
    (hkeeps : phase ≠ .ackDeferred) : Follows p d phase := by
  refine ⟨⟨?_, fun e he => ?_, fun i => ?_⟩, hkeeps⟩
  · cases phase with
    | start | defer | ackDeferred | nack | reject | thrown | finished => trivial
    | _ => cases hevent
  · rw [hevent] at he
    cases he
  · have hnone : phase.pending = none := by cases phase <;> first | rfl | cases hevent
    rw [Phase.attempt, hnone]
    exact Nat.zero_le _

/-- A failure keeps the event and asks for nothing. -/
theorem Follows.fail {p : Pipeline} {d : Delivery} {e : Event} {token : Nat} (error : Failure)
    (hbody : d.message.event = some e) : Follows p d (.fail e token error) := by
  refine ⟨⟨trivial, fun e' he => ?_, fun _ => Nat.zero_le _⟩, fun h => by cases h⟩
  cases he
  exact hbody

/-! ## The invariant -/

structure Inv (p : Pipeline) : Prop where
  claims : ClaimInv p.store.claims p.store.nextToken
  completed : ∀ r ∈ p.store.claims, r.consumerName = .analytics → r.status = .completed →
    Recorded p (r.tenantId, r.eventKey)
  /-- Every row, and every delivery that may still send one, is an attempt of the claim. -/
  attempts : ∀ i, p.rowCount i + (p.deliveries.map (·.phase.attempt i)).sum ≤
    attemptsOf p.store (claimKeyOf i)
  unique : KeyUnique Event.identity p.events
  phases : ∀ d ∈ p.deliveries, d.phase.Ok p
  bodies : ∀ d ∈ p.deliveries, ∀ e, d.phase.event = some e → d.message.event = some e
  sources : (∀ m ∈ p.waiting, m.event ∈ p.published) ∧
    (∀ d ∈ p.deliveries, d.message.event ∈ p.published) ∧
    (∀ e ∈ p.events, some e ∈ p.published) ∧ ∀ e ∈ p.rows, some e ∈ p.published
  kept : ∀ body ∈ p.published, (∃ m ∈ p.waiting, m.event = body) ∨
    (∃ d ∈ p.deliveries, d.Keeps ∧ d.message.event = body) ∨
    ∃ e, body = some e ∧ Recorded p e.identity

/-- A step of a delivery. -/
structure Advance (p : Pipeline) (d : Delivery) (p' : Pipeline) (d' : Delivery) : Prop where
  deliveries : p'.deliveries = p.deliveries
  published : p'.published = p.published
  message : d'.message = d.message
  grows : Grows p p'
  claims : ClaimInv p'.store.claims p'.store.nextToken
  completed : ∀ r ∈ p'.store.claims, r.consumerName = .analytics → r.status = .completed →
    r ∈ p.store.claims ∨ Recorded p' (r.tenantId, r.eventKey)
  attempts : ∀ i, p'.rowCount i + d'.phase.attempt i + attemptsOf p.store (claimKeyOf i) ≤
    p.rowCount i + d.phase.attempt i + attemptsOf p'.store (claimKeyOf i)
  unique : KeyUnique Event.identity p'.events
  phase : d'.phase.Ok p'
  body : ∀ e, d'.phase.event = some e → d.message.event = some e
  events : ∀ e ∈ p'.events, e ∈ p.events ∨ d.message.event = some e
  rows : ∀ e ∈ p'.rows, e ∈ p.rows ∨ d.message.event = some e
  waiting : p.waiting ⊆ p'.waiting
  sent : ∀ m ∈ p'.waiting, m ∈ p.waiting ∨ m.event = d.message.event
  kept : d.Keeps → d'.Keeps ∨ (∃ m ∈ p'.waiting, m.event = d.message.event) ∨
    ∃ e, d.message.event = some e ∧ Recorded p' e.identity

/-- A delivery goes on. -/
theorem Inv.advance {p p' : Pipeline} {d d' : Delivery} {i : Nat} (h : Inv p)
    (hd : p.deliveries[i]? = some d) (ha : Advance p d p' d') :
    Inv (Pipeline.moved i (d', p')) := by
  have hr : Replaces d d' p.deliveries (p.deliveries.set i d') := .set hd
  have hmoved : Pipeline.moved i (d', p') =
      { p' with deliveries := p.deliveries.set i d' } := by
    rw [Pipeline.moved, ha.deliveries]
  have hmem : d ∈ p.deliveries := hr.mem.1
  have hold : ∀ x ∈ p.deliveries.set i d', x = d' ∨ x ∈ p.deliveries := fun x hx =>
    or_iff_not_imp_left.mpr (hr.old hx)
  have hg : Grows p { p' with deliveries := p.deliveries.set i d' } :=
    ⟨ha.grows.events, ha.grows.rows, ha.grows.exposures⟩
  obtain ⟨hwaiting, hsource, hevents, hrows⟩ := h.sources
  have hbody := hsource d hmem
  rw [hmoved]
  refine ⟨ha.claims, fun r hr' hc hst => ?_, fun k => ?_, ha.unique, fun x hx => ?_,
    fun x hx e he => ?_, ⟨fun m hm => ?_, fun x hx => ?_, fun e he => ?_, fun e he => ?_⟩,
    fun body hb => ?_⟩
  · rcases ha.completed r hr' hc hst with hkept | hnew
    · exact (h.completed r hkept hc hst).grows hg
    · exact hnew
  · have hsum : ((p.deliveries.set i d').map (·.phase.attempt k)).sum + d.phase.attempt k =
        (p.deliveries.map (·.phase.attempt k)).sum + d'.phase.attempt k := by
      obtain ⟨l₁, l₂, hl, hl'⟩ := hr
      rw [hl', hl]
      simp only [List.map_append, List.map_cons, List.sum_append, List.sum_cons]
      omega
    have hone := ha.attempts k
    have hall := h.attempts k
    show p'.rowCount k + ((p.deliveries.set i d').map (·.phase.attempt k)).sum ≤
      attemptsOf p'.store (claimKeyOf k)
    omega
  · rcases hold x hx with rfl | hx
    · exact ha.phase
    · exact (h.phases x hx).grows hg
  · rcases hold x hx with rfl | hx
    · rw [ha.message]
      exact ha.body e he
    · exact h.bodies x hx e he
  · show m.event ∈ p'.published
    rw [ha.published]
    rcases ha.sent m hm with hm | hm
    · exact hwaiting m hm
    · rw [hm]
      exact hbody
  · show x.message.event ∈ p'.published
    rw [ha.published]
    rcases hold x hx with rfl | hx
    · rw [ha.message]
      exact hbody
    · exact hsource x hx
  · show some e ∈ p'.published
    rw [ha.published]
    rcases ha.events e he with he | he
    · exact hevents e he
    · exact he ▸ hbody
  · show some e ∈ p'.published
    rw [ha.published]
    rcases ha.rows e he with he | he
    · exact hrows e he
    · exact he ▸ hbody
  · have hpub : body ∈ p.published := ha.published ▸ hb
    rcases h.kept body hpub with ⟨m, hm, hmb⟩ | ⟨x, hx, hkeeps, hxb⟩ | ⟨e, he, hrec⟩
    · exact .inl ⟨m, ha.waiting hm, hmb⟩
    · by_cases hsame : x = d
      · subst hsame
        rcases ha.kept hkeeps with hk | ⟨m, hm, hmb⟩ | ⟨e, he, hrec⟩
        · exact .inr (.inl ⟨d', hr.mem.2, hk, by rw [ha.message, hxb]⟩)
        · exact .inl ⟨m, hm, hmb.trans hxb⟩
        · exact .inr (.inr ⟨e, hxb.symm.trans he, hrec⟩)
      · exact .inr (.inl ⟨x, hr.kept hx hsame, hkeeps, hxb⟩)
    · exact .inr (.inr ⟨e, he, hrec.grows hg⟩)

/-! ## Transactions -/

/-- What a transaction does to the claims. -/
structure ClaimStep (p : Pipeline) (u : Store) : Prop where
  claims : ClaimInv u.claims u.nextToken
  completed : ∀ r ∈ u.claims, r.consumerName = .analytics → r.status = .completed →
    r ∈ p.store.claims ∨ Recorded p (r.tenantId, r.eventKey)
  attempts : ∀ k, attemptsOf p.store k ≤ attemptsOf u k

section Steps

variable {p : Pipeline} {u : Store} {d d' : Delivery} {e : Event} {token : Nat}

theorem ClaimStep.refl (h : Inv p) : ClaimStep p p.store :=
  ⟨h.claims, fun _ hr _ _ => .inl hr, fun _ => le_rfl⟩

theorem ClaimStep.of_write (h : Inv p) (hw : ClaimWrite p.store u.claims u.nextToken)
    (hdone : ∀ r ∈ u.claims, r.consumerName = .analytics → r.status = .completed →
      r ∈ p.store.claims ∨ Recorded p (r.tenantId, r.eventKey)) : ClaimStep p u :=
  ⟨h.claims.write hw, hdone, (LeaseFrame.claims h.claims hw).attempts⟩

theorem renewLease_step (h : Inv p) {t : TenantId} {k : EventKey} {r : Unit}
    (hr : renewLease t .analytics k token p.store = .ok (r, u)) : ClaimStep p u :=
  .of_write h (renewLease_write hr) fun r' hr' _ hst => .inl ((renewLease_frame hr).2 r' hr' hst)

theorem markFailed_step (h : Inv p) {t : TenantId} {k : EventKey} {permanent : Bool} {r : Unit}
    (hr : markFailed .analytics t k token permanent p.store = .ok (r, u)) : ClaimStep p u :=
  .of_write h (markFailed_write hr) fun r' hr' _ hst => .inl ((markFailed_frame hr).2 r' hr' hst)

/-- A claim is completed when its event is recorded. -/
theorem markCompleted_step (h : Inv p) {i : TenantId × EventKey} {r : Unit}
    (hrec : Recorded p i)
    (hr : markCompleted i.1 .analytics i.2 token p.store = .ok (r, u)) : ClaimStep p u := by
  refine .of_write h (markCompleted_write hr) fun r' hr' _ _ => ?_
  obtain ⟨rfl, -⟩ := updateHeld_ok hr
  obtain ⟨r, hmem, rfl⟩ := mem_updateWhere.mp hr'
  split
  · rename_i hsel
    rw [Bool.and_eq_true, isClaim_iff] at hsel
    have hkey : (r.tenantId, r.eventKey) = i := by
      have hk := hsel.1
      simp only [claimKey, Prod.mk.injEq] at hk
      exact Prod.ext hk.1 hk.2.2
    right
    show Recorded p (r.tenantId, r.eventKey)
    exact hkey ▸ hrec
  · exact .inl hmem

/-- Where a delivery may go after a transaction. -/
structure Enters (p : Pipeline) (d : Delivery) (u : Store) (phase : Phase) : Prop where
  ok : phase.Ok p
  body : ∀ e, phase.event = some e → d.message.event = some e
  attempts : ∀ i, phase.attempt i + attemptsOf p.store (claimKeyOf i) ≤
    d.phase.attempt i + attemptsOf u (claimKeyOf i)
  keeps : phase ≠ .ackDeferred

theorem Follows.enters {phase : Phase} (hf : Follows p d phase) (hc : ClaimStep p u) :
    Enters p d u phase :=
  ⟨hf.ok, hf.body, fun i => Nat.add_le_add (hf.attempt i) (hc.attempts _), hf.keeps⟩

/-- The store has changed. -/
theorem Advance.commit (h : Inv p) (hc : ClaimStep p u) (hm : d'.message = d.message)
    (hs : d'.settled = d.settled) (he : Enters p d u d'.phase) :
    Advance p d { p with store := u } d' where
  deliveries := rfl
  published := rfl
  message := hm
  grows := ⟨fun _ h => h, fun _ h => h, fun _ h => h⟩
  claims := hc.claims
  completed r hr hcons hst := (hc.completed r hr hcons hst).imp_right
    fun hrec => hrec.grows ⟨fun _ h => h, fun _ h => h, fun _ h => h⟩
  attempts i := by
    have hle := he.attempts i
    show p.rowCount i + d'.phase.attempt i + attemptsOf p.store (claimKeyOf i) ≤
      p.rowCount i + d.phase.attempt i + attemptsOf u (claimKeyOf i)
    omega
  unique := h.unique
  phase := he.ok.grows ⟨fun _ h => h, fun _ h => h, fun _ h => h⟩
  body := he.body
  events _ h := .inl h
  rows _ h := .inl h
  waiting _ h := h
  sent _ h := .inl h
  kept hk := .inl ⟨hs.trans hk.1, he.keeps⟩

theorem Advance.still (h : Inv p) (hm : d'.message = d.message) (hs : d'.settled = d.settled)
    (hf : Follows p d d'.phase) : Advance p d p d' :=
  .commit h (.refl h) hm hs (hf.enters (.refl h))

theorem Advance.transact {α : Type} {fault : Fault} {answered : α → Phase}
    {failed : Failure → Phase} {r : Outcome α} (h : Inv p)
    (hr : ∀ a u, r = .ok (a, u) → ClaimStep p u)
    (hanswered : ∀ a u, r = .ok (a, u) → Enters p d u (answered a))
    (hfailed : ∀ e, Follows p d (failed e)) :
    Advance p d (d.transact fault answered failed r p).2
      (d.transact fault answered failed r p).1 := by
  unfold Delivery.transact
  split
  · rename_i a u hx
    have hok := (execute_ok hx).2
    exact .commit h (hr a u hok) rfl rfl (hanswered a u hok)
  · rename_i e u hx
    have hc : ClaimStep p u := by
      rcases execute_error hx with rfl | ⟨a, ha⟩
      · exact .refl h
      · exact hr a u ha
    exact .commit h hc rfl rfl ((hfailed e).enters hc)

/-! ## Tables -/

/-- Rows are written. -/
theorem Advance.tables {es rs : List Event} {xs : List (TenantId × Text)} (h : Inv p)
    (hm : d'.message = d.message) (hs : d'.settled = d.settled)
    (hgrows : Grows p { p with events := es, rows := rs, exposures := xs })
    (hes : ∀ e ∈ es, e ∈ p.events ∨ d.message.event = some e)
    (hrs : ∀ e ∈ rs, e ∈ p.rows ∨ d.message.event = some e)
    (hunique : KeyUnique Event.identity es)
    (hattempts : ∀ i, rs.countP (fun e => decide (e.identity = i)) + d'.phase.attempt i ≤
      p.rowCount i + d.phase.attempt i)
    (hphase : d'.phase.Ok { p with events := es, rows := rs, exposures := xs })
    (hbody : ∀ e, d'.phase.event = some e → d.message.event = some e)
    (hkeeps : d'.phase ≠ .ackDeferred) :
    Advance p d { p with events := es, rows := rs, exposures := xs } d' where
  deliveries := rfl
  published := rfl
  message := hm
  grows := hgrows
  claims := h.claims
  completed _ hr _ _ := .inl hr
  attempts i := Nat.add_le_add_right (hattempts i) _
  unique := hunique
  phase := hphase
  body := hbody
  events := hes
  rows := hrs
  waiting _ h := h
  sent _ h := .inl h
  kept hk := .inl ⟨hs.trans hk.1, hkeeps⟩

/-- The row of PostgreSQL. -/
theorem Advance.insertEvent (h : Inv p) (hphase : d.phase = .record e token)
    (hbody : d.message.event = some e) (hm : d'.message = d.message)
    (hs : d'.settled = d.settled)
    (hto : d'.phase = .renew e token ∨ d'.phase = .failRecord e token) :
    Advance p d (AnalyticsEventConsumer.insertEvent e p) d' := by
  have hgrows : p.events ⊆
      insertMissing (fun r => decide (r.identity = e.identity)) e p.events := by
    unfold insertMissing
    split
    · exact fun _ hr => hr
    · exact List.subset_append_left _ _
  have hhas : HasEvent (AnalyticsEventConsumer.insertEvent e p) e.identity := by
    unfold HasEvent AnalyticsEventConsumer.insertEvent insertMissing
    simp only
    split
    · rename_i hany
      obtain ⟨r, hr, hk⟩ := List.any_eq_true.mp hany
      exact ⟨r, hr, of_decide_eq_true hk⟩
    · exact ⟨e, by simp, rfl⟩
  refine .tables h hm hs ⟨hgrows, fun _ hr => hr, fun _ hx => hx⟩ (fun r hr => ?_)
    (fun _ hr => .inl hr) ?_ (fun i => ?_) ?_ (fun e' he' => ?_) ?_
  · unfold insertMissing at hr
    split at hr
    · exact .inl hr
    · rcases List.mem_append.mp hr with hr | hr
      · exact .inl hr
      · rw [List.mem_singleton.mp hr]
        exact .inr hbody
  · unfold insertMissing
    split
    · exact h.unique
    · rename_i hnone
      refine h.unique.append_singleton fun r hr hk => hnone ?_
      exact List.any_eq_true.mpr ⟨r, hr, by simpa using hk⟩
  · refine Nat.add_le_add_left ?_ _
    rw [hphase]
    rcases hto with hto | hto <;> rw [hto]
    · exact le_rfl
    · exact Nat.zero_le _
  · rcases hto with hto | hto <;> rw [hto]
    · exact hhas
    · trivial
  · rcases hto with hto | hto <;> rw [hto] at he' <;> cases he' <;> exact hbody
  · rcases hto with hto | hto <;> rw [hto] <;> exact fun hk => by cases hk

/-- The row of ClickHouse: the attempt is over. -/
theorem Advance.insertRow {error : Failure} (h : Inv p) (hphase : d.phase = .ingest e token)
    (hok : HasEvent p e.identity) (hbody : d.message.event = some e)
    (hm : d'.message = d.message) (hs : d'.settled = d.settled)
    (hto : d'.phase = .expose e token ∨ d'.phase = .fail e token error) :
    Advance p d (AnalyticsEventConsumer.insertRow e p) d' := by
  have hattempt : ∀ i, d'.phase.attempt i = 0 := by
    intro i
    rcases hto with hto | hto <;> rw [hto] <;> rfl
  have hgrows : Grows p (AnalyticsEventConsumer.insertRow e p) :=
    ⟨fun _ hr => hr, List.subset_append_left _ _, fun _ hx => hx⟩
  refine .tables h hm hs hgrows (fun _ hr => .inl hr) (fun r hr => ?_) h.unique (fun i => ?_) ?_
    (fun e' he' => ?_) ?_
  · rcases List.mem_append.mp hr with hr | hr
    · exact .inl hr
    · rw [List.mem_singleton.mp hr]
      exact .inr hbody
  · rw [hattempt i, hphase, List.countP_append]
    simp [Pipeline.rowCount, Phase.attempt, Phase.pending, List.countP_cons]
  · rcases hto with hto | hto <;> rw [hto]
    · exact ⟨hok.grows hgrows, List.mem_append_right _ (List.mem_singleton_self _)⟩
    · trivial
  · rcases hto with hto | hto <;> rw [hto] at he' <;> cases he' <;> exact hbody
  · rcases hto with hto | hto <;> rw [hto] <;> exact fun hk => by cases hk

/-- The row of the exposure. -/
theorem Advance.insertExposure {error : Failure} (h : Inv p)
    (hok : HasEvent p e.identity ∧ e ∈ p.rows) (hbody : d.message.event = some e)
    (hm : d'.message = d.message) (hs : d'.settled = d.settled)
    (hto : d'.phase = .complete e token ∨ d'.phase = .fail e token error) :
    Advance p d (AnalyticsEventConsumer.insertExposure e p) d' := by
  have hgrows : Grows p (AnalyticsEventConsumer.insertExposure e p) :=
    ⟨fun _ hr => hr, fun _ hr => hr, List.subset_append_left _ _⟩
  refine .tables h hm hs hgrows (fun _ hr => .inl hr) (fun _ hr => .inl hr) h.unique (fun i => ?_)
    ?_ (fun e' he' => ?_) ?_
  · refine Nat.add_le_add_left ?_ _
    rcases hto with hto | hto <;> rw [hto] <;> exact Nat.zero_le _
  · rcases hto with hto | hto <;> rw [hto]
    · refine ⟨hok.1.grows hgrows, hok.2, fun key hkey => ?_⟩
      refine List.mem_append_right _ ?_
      rw [hkey]
      exact List.mem_singleton_self _
    · trivial
  · rcases hto with hto | hto <;> rw [hto] at he' <;> cases he' <;> exact hbody
  · rcases hto with hto | hto <;> rw [hto] <;> exact fun hk => by cases hk

theorem Advance.write {fault : Fault} {answered failed : Phase} {f : Pipeline → Pipeline}
    (hf : ∀ phase, phase = answered ∨ phase = failed → Advance p d (f p) (d'.to phase))
    (hfailed : Advance p d p (d'.to failed)) :
    Advance p d (d'.write fault answered failed f p).2 (d'.write fault answered failed f p).1 := by
  cases fault with
  | none => exact hf answered (.inl rfl)
  | before => exact hfailed
  | after => exact hf failed (.inr rfl)

/-! ## The broker -/

theorem mem_waiting {m : Message} :
    m ∈ p.waiting ↔ m ∈ p.queue ∨ m ∈ p.retry ∨ m ∈ p.dead := by
  simp [Pipeline.waiting]

/-- A message goes to a queue. -/
theorem Advance.send {queue retry dead : List Message} (h : Inv p)
    (hm : d'.message = d.message) (hf : Fits p d d'.phase)
    (hwaiting : p.waiting ⊆ { p with queue := queue, retry := retry, dead := dead }.waiting)
    (hsent : ∀ m ∈ { p with queue := queue, retry := retry, dead := dead }.waiting,
      m ∈ p.waiting ∨ m.event = d.message.event)
    (hkept : d.Keeps → d'.Keeps ∨
      (∃ m ∈ { p with queue := queue, retry := retry, dead := dead }.waiting,
        m.event = d.message.event) ∨
      ∃ e, d.message.event = some e ∧ Recorded p e.identity) :
    Advance p d { p with queue := queue, retry := retry, dead := dead } d' where
  deliveries := rfl
  published := rfl
  message := hm
  grows := ⟨fun _ hr => hr, fun _ hr => hr, fun _ hr => hr⟩
  claims := h.claims
  completed _ hr _ _ := .inl hr
  attempts i := Nat.add_le_add_right (Nat.add_le_add_left (hf.attempt i) _) _
  unique := h.unique
  phase := hf.ok.grows ⟨fun _ hr => hr, fun _ hr => hr, fun _ hr => hr⟩
  body := hf.body
  events _ hr := .inl hr
  rows _ hr := .inl hr
  waiting := hwaiting
  sent := hsent
  kept hk := (hkept hk).imp_right (Or.imp_right fun ⟨e, he, hrec⟩ =>
    ⟨e, he, hrec.grows ⟨fun _ hr => hr, fun _ hr => hr, fun _ hr => hr⟩⟩)

/-- A settled delivery: an ack is for a message that is recorded, or somewhere else. -/
theorem Advance.landed {settlement : Settlement} (h : Inv p) (hm : d'.message = d.message)
    (hf : Fits p d d'.phase)
    (hack : settlement = .ack → d.phase = .ackDeferred ∨
      ∃ e, d.message.event = some e ∧ Recorded p e.identity) :
    Advance p d (p.settle d.message settlement) d' := by
  cases settlement with
  | ack =>
    refine .send h hm hf (fun _ hx => hx) (fun _ hx => .inl hx) fun hk => ?_
    rcases hack rfl with hdeferred | hrec
    · exact absurd hdeferred hk.2
    · exact .inr (.inr hrec)
  | reject =>
    refine .send h hm hf (fun m hx => ?_) (fun m hx => ?_)
      fun _ => .inr (.inl ⟨d.message, ?_, rfl⟩)
    all_goals simp only [mem_waiting, List.mem_append, List.mem_singleton] at *
    · exact hx.imp_right (Or.imp_right .inl)
    · rcases hx with hx | hx | hx | rfl
      · exact .inl (.inl hx)
      · exact .inl (.inr (.inl hx))
      · exact .inl (.inr (.inr hx))
      · exact .inr rfl
    · exact .inr (.inr (.inr trivial))
  | requeue =>
    refine .send h hm hf (fun m hx => ?_) (fun m hx => ?_)
      fun _ => .inr (.inl ⟨d.message, ?_, rfl⟩)
    all_goals simp only [mem_waiting, List.mem_append, List.mem_singleton] at *
    · exact hx.imp_left .inl
    · rcases hx with (hx | rfl) | hx
      · exact .inl (.inl hx)
      · exact .inr rfl
      · exact .inl (.inr hx)
    · exact .inl (.inr trivial)

theorem Advance.settle {settlement : Settlement} {fault : Fault} {answered failed : Phase}
    (h : Inv p) (hanswered : Follows p d answered) (hfailed : Follows p d failed)
    (hack : settlement = .ack → d.phase = .ackDeferred ∨
      ∃ e, d.message.event = some e ∧ Recorded p e.identity) :
    Advance p d (d.settle settlement fault answered failed p).2
      (d.settle settlement fault answered failed p).1 := by
  unfold Delivery.settle
  split
  · exact .still h rfl rfl hfailed
  · cases fault with
    | none => exact .landed h rfl hanswered.toFits hack
    | before => exact .still h rfl rfl hfailed
    | after => exact .landed h rfl hfailed.toFits hack

/-- A copy goes to the retry queue. -/
theorem Advance.copied {properties : MessageProperties} {phase : Phase} (h : Inv p)
    (hphase : phase = .ackDeferred ∨ phase = .nack) :
    Advance p d { p with retry := p.retry ++ [{ d.message with properties := properties }] }
      (d.to phase) := by
  refine .send h rfl ⟨?_, fun e he => ?_, fun i => ?_⟩ (fun m hx => ?_) (fun m hx => ?_)
    fun _ => .inr (.inl ⟨{ d.message with properties := properties }, ?_, rfl⟩)
  · rcases hphase with rfl | rfl <;> trivial
  · rcases hphase with rfl | rfl <;> cases he
  · rcases hphase with rfl | rfl <;> exact Nat.zero_le _
  all_goals simp only [mem_waiting, List.mem_append, List.mem_singleton] at *
  · exact hx.imp_right (Or.imp_left .inl)
  · rcases hx with hx | (hx | rfl) | hx
    · exact .inl (.inl hx)
    · exact .inl (.inr (.inl hx))
    · exact .inr rfl
    · exact .inl (.inr (.inr hx))
  · exact .inr (.inl (.inr trivial))

/-! ## Steps of a delivery -/

theorem acquireClaim_step {decision : ClaimDecision} {k : EventKey} {event : CommerceEvent}
    (h : Inv p) (hr : acquireClaim .analytics k event p.store = .ok (decision, u)) :
    ClaimStep p u :=
  .of_write h (acquireClaim_write h.claims hr) fun r hmem _ hst =>
    .inl ((acquireClaim_frame h.claims hr).2 r hmem hst)

/-- A claim that is acquired counts the attempt that begins with it. -/
theorem acquired_enters (h : Inv p) (hbody : d.message.event = some e)
    (hr : acquireClaim .analytics (e.event.claimKey .analytics) e.event p.store =
      .ok (.acquired token, u)) : Enters p d u (.record e token) := by
  refine ⟨trivial, fun e' he' => ?_, fun i => ?_, fun hk => by cases hk⟩
  · cases he'
    exact hbody
  · have hatt := attemptsOf_acquire h.claims .analytics (e.event.claimKey .analytics) e.event
      (claimKeyOf i)
    rw [hr, committed] at hatt
    rw [hatt]
    by_cases hi : e.identity = i
    · have hacq : acquires p.store (claimKeyOf i)
          (.acquire .analytics (e.event.claimKey .analytics) e.event) = true := by
        rw [acquires, hr, isAcquired, Bool.and_true, decide_eq_true_eq, ← hi]
        rfl
      simp only [hacq, Phase.attempt, Phase.pending, Option.any_some, hi, decide_true, if_true]
      omega
    · simp only [Phase.attempt, Phase.pending, Option.any_some, hi, decide_false,
        Bool.false_eq_true, if_false]
      omega

/-- A claim that is completed has its event recorded. -/
theorem completed_recorded (h : Inv p)
    (hr : acquireClaim .analytics (e.event.claimKey .analytics) e.event p.store =
      .ok (.completed, u)) : Recorded p e.identity := by
  have hspec := acquireClaim_spec h.claims .analytics (e.event.claimKey .analytics) e.event
  rw [hr] at hspec
  cases hspec with
  | completed hmem hk hst =>
    have hkey := isClaim_iff.mp hk
    simp only [claimKey, Prod.mk.injEq] at hkey
    have hrec := h.completed _ hmem hkey.2.1 hst
    rw [hkey.1, hkey.2.2] at hrec
    exact hrec

theorem start_advance {names : QueueNames} {fault : Fault} (h : Inv p) :
    Advance p d (start names fault d p).2 (start names fault d p).1 := by
  unfold start
  split
  · exact .still h rfl rfl (.idle rfl fun hk => by cases hk)
  · rename_i e hbody
    split
    · refine .still h rfl rfl ?_
      show Follows p d (if _ then _ else _)
      split <;> exact .idle rfl fun hk => by cases hk
    · refine .transact h (fun _ _ hr => acquireClaim_step h hr) (fun decision u hr => ?_)
        fun _ => .idle rfl fun hk => by cases hk
      cases decision with
      | acquired token => exact acquired_enters h hbody hr
      | completed =>
        refine Follows.enters ⟨⟨completed_recorded h hr, fun e' he' => ?_,
          fun _ => Nat.zero_le _⟩, fun hk => by cases hk⟩ (acquireClaim_step h hr)
        cases he'
        exact hbody
      | active until? =>
        exact (Follows.idle rfl fun hk => by cases hk).enters (acquireClaim_step h hr)
      | deadLettered =>
        exact (Follows.idle rfl fun hk => by cases hk).enters (acquireClaim_step h hr)

theorem defer_advance {c : Choice} (h : Inv p) :
    Advance p d (defer c d p).2 (defer c d p).1 := by
  have hidle : ∀ b : Bool, Follows p d (if b then .reject else .nack) := by
    intro b
    split <;> exact .idle rfl fun hk => by cases hk
  unfold defer
  split
  · exact .still h rfl rfl (hidle _)
  · split
    · exact .copied h (.inl rfl)
    · exact .still h rfl rfl (hidle _)
    · exact .copied h (.inr rfl)

/-- **One step of a delivery.** -/
theorem Delivery.step_advance {names : QueueNames} {c : Choice} {r : Delivery × Pipeline}
    (h : Inv p) (hd : d ∈ p.deliveries) (hs : d.step names c p = some r) :
    Advance p d r.2 r.1 := by
  have hok := h.phases d hd
  have hbodies := h.bodies d hd
  have hthrown : Follows p d .thrown := .idle rfl fun hk => by cases hk
  have hrejected : ∀ b : Bool, Follows p d (if b then .reject else .thrown) := by
    intro b
    split <;> exact .idle rfl fun hk => by cases hk
  have hfinished : Follows p d .finished := .idle rfl fun hk => by cases hk
  unfold Delivery.step at hs
  cases hphase : d.phase with
  | start =>
    rw [hphase] at hs
    cases hs
    exact start_advance h
  | record e token =>
    rw [hphase] at hs hbodies
    cases hs
    refine .write (fun phase hto => ?_) (.still h rfl rfl ?_)
    · exact .insertEvent h hphase (hbodies e rfl) rfl rfl hto
    · exact ⟨⟨trivial, hbodies, fun _ => Nat.zero_le _⟩, fun hk => by cases hk⟩
  | failRecord e token =>
    rw [hphase] at hs
    cases hs
    exact .transact h (fun _ _ hr => markFailed_step h hr)
      (fun _ _ hr => hthrown.enters (markFailed_step h hr)) fun _ => hthrown
  | renew e token =>
    rw [hphase] at hs hbodies hok
    have hfail : ∀ error, Follows p d (.fail e token error) := fun error =>
      .fail error (hbodies e rfl)
    simp only at hs
    split at hs
    · cases hs
      exact .still h rfl rfl (hfail _)
    · cases hs
      refine .transact h (fun _ _ hr => renewLease_step h hr) (fun _ _ hr => ?_) hfail
      refine Follows.enters ⟨⟨hok, hbodies, fun i => ?_⟩, fun hk => by cases hk⟩
        (renewLease_step h hr)
      rw [hphase]
      exact le_rfl
  | ingest e token =>
    rw [hphase] at hs hbodies hok
    have hfail : ∀ error, Follows p d (.fail e token error) := fun error =>
      .fail error (hbodies e rfl)
    simp only at hs
    split at hs
    · cases hs
      exact .still h rfl rfl (hfail _)
    · cases hs
      exact .write (fun phase hto => .insertRow h hphase hok (hbodies e rfl) rfl rfl hto)
        (.still h rfl rfl (hfail _))
  | expose e token =>
    rw [hphase] at hs hbodies hok
    have hfail : ∀ error, Follows p d (.fail e token error) := fun error =>
      .fail error (hbodies e rfl)
    simp only at hs
    split at hs
    · rename_i hnone
      cases hs
      refine .still h rfl rfl ⟨⟨⟨hok.1, hok.2, fun key hkey => ?_⟩, hbodies,
        fun _ => Nat.zero_le _⟩, fun hk => by cases hk⟩
      rw [hnone] at hkey
      cases hkey
    · cases hs
      exact .write (fun phase hto => .insertExposure h hok (hbodies e rfl) rfl rfl hto)
        (.still h rfl rfl (hfail _))
  | complete e token =>
    rw [hphase] at hs hbodies hok
    have hfail : ∀ error, Follows p d (.fail e token error) := fun error =>
      .fail error (hbodies e rfl)
    simp only at hs
    split at hs
    · cases hs
      exact .still h rfl rfl (hfail _)
    · cases hs
      have hrec : Recorded p e.identity := ⟨hok.1, e, hok.2.1, rfl, hok.2.2⟩
      refine .transact h (fun _ _ hr => markCompleted_step h hrec hr) (fun _ _ hr => ?_) hfail
      exact Follows.enters ⟨⟨hrec, hbodies, fun _ => Nat.zero_le _⟩, fun hk => by cases hk⟩
        (markCompleted_step h hrec hr)
  | ack e token =>
    rw [hphase] at hs hbodies hok
    cases hs
    refine .settle h ⟨⟨hok, hbodies, fun _ => Nat.zero_le _⟩, fun hk => by cases hk⟩ ?_
      fun _ => .inr ⟨e, hbodies e rfl, hok⟩
    split
    · exact .fail _ (hbodies e rfl)
    · exact hthrown
  | close e token =>
    rw [hphase] at hs hbodies
    simp only at hs
    split at hs
    · cases hs
      exact .still h rfl rfl (.fail _ (hbodies e rfl))
    · cases hs
      exact .still h rfl rfl hfinished
  | fail e token error =>
    rw [hphase] at hs
    cases hs
    exact .transact h (fun _ _ hr => markFailed_step h hr)
      (fun _ _ hr => (hrejected _).enters (markFailed_step h hr)) fun _ => hthrown
  | ackDuplicate e =>
    rw [hphase] at hs hbodies hok
    cases hs
    exact .settle h hfinished hthrown fun _ => .inr ⟨e, hbodies e rfl, hok⟩
  | defer =>
    rw [hphase] at hs
    cases hs
    exact defer_advance h
  | ackDeferred =>
    rw [hphase] at hs
    cases hs
    exact .settle h hfinished (.idle rfl fun hk => by cases hk) fun _ => .inl hphase
  | nack =>
    rw [hphase] at hs
    cases hs
    exact .settle h hfinished hthrown fun hk => by cases hk
  | reject =>
    rw [hphase] at hs
    cases hs
    exact .settle h hfinished hthrown fun hk => by cases hk
  | thrown =>
    rw [hphase] at hs
    simp only at hs
    split at hs
    · cases hs
      exact .still h rfl rfl (.idle rfl fun hk => by cases hk)
    · cases hs
      exact .settle h hfinished hfinished fun hk => by cases hk
  | finished =>
    rw [hphase] at hs
    cases hs

theorem Delivery.beat_advance {fault : Fault} {r : Delivery × Pipeline} (h : Inv p)
    (hd : d ∈ p.deliveries) (hs : d.beat fault p = some r) : Advance p d r.2 r.1 := by
  unfold Delivery.beat at hs
  split at hs
  · cases hs
  · rename_i e token hbeat
    have hkeeps : d.phase ≠ .ackDeferred := by
      intro hk
      rw [hk] at hbeat
      cases hbeat
    -- a beat leaves the phase as it is
    have hsame : Follows p d d.phase :=
      ⟨⟨h.phases d hd, h.bodies d hd, fun _ => le_rfl⟩, hkeeps⟩
    split at hs
    · cases hs
    · split at hs
      · rename_i error u hx
        cases hs
        have hc : ClaimStep p u := by
          rcases execute_error hx with rfl | ⟨a, ha⟩
          · exact .refl h
          · exact renewLease_step h ha
        exact .commit h hc rfl rfl (hsame.enters hc)
      · rename_i hx
        cases hs
        have hc := renewLease_step h (execute_ok hx).2
        exact .commit h hc rfl rfl (hsame.enters hc)

theorem Delivery.disconnect_advance (h : Inv p) (hf : Fits p d d'.phase)
    (hm : d'.message = d.message) (hs : d'.settled = d.settled) :
    Advance p d (d'.disconnect p).2 (d'.disconnect p).1 := by
  unfold Delivery.disconnect
  split
  · rename_i hsettled
    refine .send h hm hf (fun _ hx => hx) (fun _ hx => .inl hx) fun hk => ?_
    cases (hsettled.symm.trans hs).trans hk.1
  · have hland : Advance p d (p.settle d.message .requeue) { d' with settled := true } :=
      .landed h hm hf fun hk => by cases hk
    rw [← hm] at hland
    exact hland

end Steps

/-! ## Runs -/

theorem Inv.initial {p : Pipeline} (h : Initial p) : Inv p where
  claims := by
    rw [h.claims]
    exact ⟨KeyUnique.nil _, fun _ hr => absurd hr List.not_mem_nil⟩
  completed r hr := by
    rw [h.claims] at hr
    cases hr
  attempts i := by
    rw [Pipeline.rowCount, h.rows, h.deliveries]
    exact Nat.zero_le _
  unique := by
    rw [h.events]
    exact KeyUnique.nil _
  phases d hd := by
    rw [h.deliveries] at hd
    cases hd
  bodies d hd := by
    rw [h.deliveries] at hd
    cases hd
  sources := by
    simp [Pipeline.waiting, h.queue, h.retry, h.dead, h.deliveries, h.events, h.rows]
  kept body hb := by
    rw [h.published] at hb
    cases hb

/-- The orders consumer, checkout and the clock leave the claims of the analytics consumer
as they are. -/
theorem claimStep_step {p : Pipeline} {u : Store} {a : ClaimAction} (h : Inv p)
    (ha : touches .analytics a = false) (hs : claimStep p.store a = some u) : ClaimStep p u := by
  refine .of_write h (claimStep_write h.claims hs) fun r' hr' hcons hst => .inl ?_
  cases a with
  | acquire consumer key event =>
    cases hs
    cases hr : acquireClaim consumer key event p.store with
    | error e =>
      rw [hr] at hr'
      exact hr'
    | ok r =>
      rw [hr] at hr'
      exact (acquireClaim_frame h.claims hr).2 r' hr' hst
  | renew t consumer key token =>
    cases hs
    cases hr : renewLease t consumer key token p.store with
    | error e =>
      rw [hr] at hr'
      exact hr'
    | ok r =>
      rw [hr] at hr'
      exact (renewLease_frame hr).2 r' hr' hst
  | complete t consumer key token =>
    cases hs
    cases hr : markCompleted t consumer key token p.store with
    | error e =>
      rw [hr] at hr'
      exact hr'
    | ok r =>
      rw [hr, committed] at hr'
      rw [(updateHeld_ok hr).1] at hr'
      obtain ⟨old, hold, rfl⟩ := mem_updateWhere.mp hr'
      split at hcons
      · -- the row is one of the other consumer
        rename_i hsel
        rw [Bool.and_eq_true, isClaim_iff] at hsel
        have hkey := hsel.1
        simp only [claimKey, Prod.mk.injEq] at hkey
        rw [show consumer = .analytics from hkey.2.1.symm.trans hcons] at ha
        cases ha
      · rename_i hsel
        rw [if_neg hsel]
        exact hold
  | fail t consumer key token permanent =>
    cases hs
    cases hr : markFailed consumer t key token permanent p.store with
    | error e =>
      rw [hr] at hr'
      exact hr'
    | ok r =>
      rw [hr] at hr'
      exact (markFailed_frame hr).2 r' hr' hst
  | environment elapsed orders =>
    cases hs
    exact hr'

theorem Inv.claimStep {p : Pipeline} {u : Store} (h : Inv p) (hc : ClaimStep p u) :
    Inv { p with store := u } where
  claims := hc.claims
  completed r hr hcons hst := by
    have hg : Grows p { p with store := u } := ⟨fun _ h => h, fun _ h => h, fun _ h => h⟩
    rcases hc.completed r hr hcons hst with hold | hnew
    · exact (h.completed r hold hcons hst).grows hg
    · exact hnew.grows hg
  attempts i := (h.attempts i).trans (hc.attempts _)
  unique := h.unique
  phases d hd := (h.phases d hd).grows ⟨fun _ h => h, fun _ h => h, fun _ h => h⟩
  bodies := h.bodies
  sources := h.sources
  kept body hb := by
    refine (h.kept body hb).imp_right (Or.imp_right fun ⟨e, he, hrec⟩ => ⟨e, he, ?_⟩)
    exact hrec.grows ⟨fun _ h => h, fun _ h => h, fun _ h => h⟩

/-- Messages move between queues and deliveries: every one that was there still is, and a
new delivery has done nothing. -/
theorem Inv.rearrange {p : Pipeline} {queue retry : List Message} {ds : List Delivery}
    {published : List (Option Event)} (h : Inv p) (hpub : p.published ⊆ published)
    (hds : ds = p.deliveries ∨ ∃ m, m.event ∈ published ∧
      ds = p.deliveries ++ [⟨m, 0, .start, false, false⟩])
    (hnew : ∀ m ∈ { p with queue := queue, retry := retry }.waiting, m.event ∈ published)
    (hwaits : ∀ m ∈ p.waiting,
      (∃ m' ∈ { p with queue := queue, retry := retry }.waiting, m'.event = m.event) ∨
      ∃ d ∈ ds, d.Keeps ∧ d.message.event = m.event)
    (hfresh : ∀ body ∈ published, body ∈ p.published ∨
      ∃ m ∈ { p with queue := queue, retry := retry }.waiting, m.event = body) :
    Inv { p with queue := queue, retry := retry, deliveries := ds, published := published } := by
  have hg : Grows p { p with
      queue := queue, retry := retry, deliveries := ds, published := published } :=
    ⟨fun _ h => h, fun _ h => h, fun _ h => h⟩
  have hmem : ∀ d ∈ p.deliveries, d ∈ ds := by
    intro d hd
    rcases hds with rfl | ⟨m, -, rfl⟩
    · exact hd
    · exact List.mem_append_left _ hd
  have hcases : ∀ d ∈ ds, d ∈ p.deliveries ∨
      ∃ m, m.event ∈ published ∧ d = ⟨m, 0, .start, false, false⟩ := by
    intro d hd
    rcases hds with rfl | ⟨m, hm, rfl⟩
    · exact .inl hd
    · rcases List.mem_append.mp hd with hd | hd
      · exact .inl hd
      · exact .inr ⟨m, hm, List.mem_singleton.mp hd⟩
  obtain ⟨-, hsource, hevents, hrows⟩ := h.sources
  refine ⟨h.claims, fun r hr hc hst => (h.completed r hr hc hst).grows hg, fun i => ?_, h.unique,
    fun d hd => ?_, fun d hd e he => ?_, ⟨hnew, fun d hd => ?_, fun e he => hpub (hevents e he),
    fun e he => hpub (hrows e he)⟩, fun body hb => ?_⟩
  · have hsum : (ds.map (·.phase.attempt i)).sum =
        (p.deliveries.map (·.phase.attempt i)).sum := by
      rcases hds with rfl | ⟨m, -, rfl⟩
      · rfl
      · rw [List.map_append, List.sum_append]
        rfl
    have hold := h.attempts i
    rw [← hsum] at hold
    exact hold
  · rcases hcases d hd with hd | ⟨m, -, rfl⟩
    · exact (h.phases d hd).grows hg
    · trivial
  · rcases hcases d hd with hd | ⟨m, -, rfl⟩
    · exact h.bodies d hd e he
    · cases he
  · rcases hcases d hd with hd | ⟨m, hm, rfl⟩
    · exact hpub (hsource d hd)
    · exact hm
  · rcases hfresh body hb with hb | ⟨m, hm, hmb⟩
    · rcases h.kept body hb with ⟨m, hm, rfl⟩ | ⟨d, hd, hkeeps⟩ | ⟨e, he, hrec⟩
      · rcases hwaits m hm with hstill | ⟨d, hd, hkeeps⟩
        · exact .inl hstill
        · exact .inr (.inl ⟨d, hd, hkeeps⟩)
      · exact .inr (.inl ⟨d, hmem d hd, hkeeps⟩)
      · exact .inr (.inr ⟨e, he, hrec.grows hg⟩)
    · exact .inl ⟨m, hm, hmb⟩

theorem mem_eraseIdx_or {l : List Message} {i : Nat} {m x : Message} (h : l[i]? = some m)
    (hx : x ∈ l) : x = m ∨ x ∈ l.eraseIdx i := by
  obtain ⟨hlt, rfl⟩ := List.getElem?_eq_some_iff.mp h
  exact List.mem_cons.mp ((List.getElem_cons_eraseIdx_perm hlt).mem_iff.mpr hx)

/-- **One step of the pipeline.** What was published stays published. -/
theorem Inv.step {names : QueueNames} {p p' : Pipeline} {a : Action} (h : Inv p)
    (hs : step names p a = some p') : Inv p' ∧ p.published ⊆ p'.published := by
  obtain ⟨hwaiting, hsource, -, -⟩ := h.sources
  cases a with
  | publish m =>
    cases hs
    refine ⟨?_, List.subset_append_left _ _⟩
    refine h.rearrange (List.subset_append_left _ _) (.inl rfl) (fun x hx => ?_)
      (fun x hx => .inl ⟨x, ?_, rfl⟩) fun body hb => ?_
    · rcases mem_waiting.mp hx with hx | hx | hx
      · rcases List.mem_append.mp hx with hx | hx
        · exact List.mem_append_left _ (hwaiting x (mem_waiting.mpr (.inl hx)))
        · rw [List.mem_singleton.mp hx]
          exact List.mem_append_right _ (List.mem_singleton_self _)
      · exact List.mem_append_left _ (hwaiting x (mem_waiting.mpr (.inr (.inl hx))))
      · exact List.mem_append_left _ (hwaiting x (mem_waiting.mpr (.inr (.inr hx))))
    · exact mem_waiting.mpr ((mem_waiting.mp hx).imp_left (List.mem_append_left _))
    · rcases List.mem_append.mp hb with hb | hb
      · exact .inl hb
      · refine .inr ⟨m, mem_waiting.mpr (.inl ?_), (List.mem_singleton.mp hb).symm⟩
        exact List.mem_append_right _ (List.mem_singleton_self _)
  | deliver i =>
    simp only [AnalyticsEventConsumer.step] at hs
    split at hs
    · cases hs
    · rename_i m hm
      cases hs
      have hmem : m ∈ p.queue := List.mem_of_getElem? hm
      refine ⟨?_, fun _ hx => hx⟩
      refine h.rearrange (fun _ hx => hx)
        (.inr ⟨m, hwaiting m (mem_waiting.mpr (.inl hmem)), rfl⟩) (fun x hx => hwaiting x ?_)
        (fun x hx => ?_) fun body hb => .inl hb
      · exact mem_waiting.mpr ((mem_waiting.mp hx).imp_left List.mem_of_mem_eraseIdx)
      · rcases mem_waiting.mp hx with hx | hx
        · rcases mem_eraseIdx_or hm hx with rfl | hx
          · exact .inr ⟨⟨x, 0, .start, false, false⟩, by simp,
              ⟨rfl, fun hk => by cases hk⟩, rfl⟩
          · exact .inl ⟨x, mem_waiting.mpr (.inl hx), rfl⟩
        · exact .inl ⟨x, mem_waiting.mpr (.inr hx), rfl⟩
  | run i c =>
    simp only [AnalyticsEventConsumer.step] at hs
    split at hs
    · cases hs
    · rename_i d hd
      obtain ⟨r, hr, rfl⟩ := Option.map_eq_some_iff.mp hs
      have ha := d.step_advance h (List.mem_of_getElem? hd) hr
      exact ⟨h.advance hd ha, fun _ hx => ha.published.symm ▸ hx⟩
  | heartbeat i fault =>
    simp only [AnalyticsEventConsumer.step] at hs
    split at hs
    · cases hs
    · rename_i d hd
      obtain ⟨r, hr, rfl⟩ := Option.map_eq_some_iff.mp hs
      have ha := d.beat_advance h (List.mem_of_getElem? hd) hr
      exact ⟨h.advance hd ha, fun _ hx => ha.published.symm ▸ hx⟩
  | disconnect i =>
    simp only [AnalyticsEventConsumer.step] at hs
    split at hs
    · cases hs
    · rename_i d hd
      cases hs
      have hmem := List.mem_of_getElem? hd
      have ha := d.disconnect_advance h
        ⟨h.phases d hmem, h.bodies d hmem, fun _ => le_rfl⟩ rfl rfl
      exact ⟨h.advance hd ha, fun _ hx => ha.published.symm ▸ hx⟩
  | crash i =>
    simp only [AnalyticsEventConsumer.step] at hs
    split at hs
    · cases hs
    · rename_i d hd
      cases hs
      have hfits : Fits p d (d.to .finished).phase :=
        ⟨trivial, (fun _ he => by cases he), fun _ => Nat.zero_le _⟩
      have ha := Delivery.disconnect_advance h hfits rfl rfl
      exact ⟨h.advance hd ha, fun _ hx => ha.published.symm ▸ hx⟩
  | expire i =>
    simp only [AnalyticsEventConsumer.step] at hs
    split at hs
    · cases hs
    · rename_i m hm
      cases hs
      have hmem : m ∈ p.retry := List.mem_of_getElem? hm
      refine ⟨?_, fun _ hx => hx⟩
      refine h.rearrange (fun _ hx => hx) (.inl rfl) (fun x hx => ?_) (fun x hx => .inl ?_)
        fun body hb => .inl hb
      · rcases mem_waiting.mp hx with hx | hx | hx
        · rcases List.mem_append.mp hx with hx | hx
          · exact hwaiting x (mem_waiting.mpr (.inl hx))
          · rw [List.mem_singleton.mp hx]
            exact hwaiting m (mem_waiting.mpr (.inr (.inl hmem)))
        · exact hwaiting x (mem_waiting.mpr (.inr (.inl (List.mem_of_mem_eraseIdx hx))))
        · exact hwaiting x (mem_waiting.mpr (.inr (.inr hx)))
      · rcases mem_waiting.mp hx with hx | hx | hx
        · exact ⟨x, mem_waiting.mpr (.inl (List.mem_append_left _ hx)), rfl⟩
        · rcases mem_eraseIdx_or hm hx with rfl | hx
          · refine ⟨_, mem_waiting.mpr (.inl (List.mem_append_right _
              (List.mem_singleton_self _))), rfl⟩
          · exact ⟨x, mem_waiting.mpr (.inr (.inl hx)), rfl⟩
        · exact ⟨x, mem_waiting.mpr (.inr (.inr hx)), rfl⟩
  | claims a =>
    simp only [AnalyticsEventConsumer.step] at hs
    split at hs
    · cases hs
    · rename_i htouches
      obtain ⟨u, hu, rfl⟩ := Option.map_eq_some_iff.mp hs
      exact ⟨h.claimStep (claimStep_step h (Bool.eq_false_iff.mpr htouches) hu), fun _ hx => hx⟩

theorem Inv.reach {names : QueueNames} {p₀ p : Pipeline} (h₀ : Initial p₀)
    (hs : Reach (AnalyticsEventConsumer.step names) (fun _ _ => True) p₀ p) : Inv p :=
  hs.invariant (Inv.initial h₀) fun _ _ _ hi _ hstep => (hi.step hstep).1

/-! ## What the pipeline guarantees -/

theorem Inv.accounted {p : Pipeline} {body : Option Event} (h : Inv p)
    (hb : body ∈ p.published) : Accounted p body := by
  rcases h.kept body hb with hwaits | ⟨d, hd, hkeeps, hdb⟩ | hrec
  · exact .inl hwaits
  · exact .inr (.inl ⟨d, hd, hkeeps.1, hdb⟩)
  · exact .inr (.inr hrec)

/-- **No event is lost.** Whatever fails, and in whatever order the deliveries go on, a
message that was published waits in a queue, is with a delivery that has not settled it, or
its event is in both databases. -/
theorem analytics_events_kept {names : QueueNames} {p₀ p : Pipeline} (h₀ : Initial p₀)
    (hs : Reach (AnalyticsEventConsumer.step names) (fun _ _ => True) p₀ p) :
    ∀ body ∈ p.published, Accounted p body :=
  fun _ hb => (Inv.reach h₀ hs).accounted hb

/-- **No event is counted twice.** PostgreSQL has one row of an identity at most, ClickHouse
no more than its claim has attempts, and a reader of the newest rows sees exactly one of
every event that is recorded. Every row is of an event that was published. -/
theorem analytics_rows_bounded {names : QueueNames} {p₀ p : Pipeline} (h₀ : Initial p₀)
    (hs : Reach (AnalyticsEventConsumer.step names) (fun _ _ => True) p₀ p) :
    (∀ e ∈ p.events ++ p.rows, some e ∈ p.published) ∧
    ∀ i, p.events.countP (fun e => decide (e.identity = i)) ≤ 1 ∧
      p.rowCount i ≤ attemptsOf p.store (claimKeyOf i) ∧
      attemptsOf p.store (claimKeyOf i) ≤ maxClaimAttempts ∧
      p.final.countP (fun e => decide (e.identity = i)) ≤ 1 ∧
      (Recorded p i → p.events.countP (fun e => decide (e.identity = i)) = 1 ∧
        p.final.countP (fun e => decide (e.identity = i)) = 1) := by
  have h := Inv.reach h₀ hs
  obtain ⟨-, -, hevents, hrows⟩ := h.sources
  refine ⟨fun e he => (List.mem_append.mp he).elim (hevents e) (hrows e), fun i => ?_⟩
  have hone : p.events.countP (fun e => decide (e.identity = i)) ≤ 1 := by
    have hle := List.nodup_iff_count_le_one.mp h.unique i
    rw [List.count, List.countP_map] at hle
    refine le_of_eq_of_le (List.countP_congr fun e _ => ?_) hle
    simp
  have hfinal := countP_newest Event.identity p.rows i
  refine ⟨hone, (Nat.le_add_right _ _).trans (h.attempts i), h.claims.attemptsOf_le _, ?_, ?_⟩
  · rw [Pipeline.final, hfinal]
    split
    · exact le_rfl
    · exact Nat.zero_le _
  · rintro ⟨⟨r, hr, hri⟩, e, he, hei, -⟩
    refine ⟨Nat.le_antisymm hone (List.countP_pos_iff.mpr ⟨r, hr, decide_eq_true hri⟩), ?_⟩
    rw [Pipeline.final, hfinal, if_pos (List.any_eq_true.mpr ⟨e, he, decide_eq_true hei⟩)]

/-! A paid order whose row lands in ClickHouse without an answer: the claim fails, the
delivery tries again, and two rows are there of which a reader sees one. -/

def sampleMessage : Message where
  event := some ⟨sampleEvent, "order.paid".toList, none⟩
  properties := sampleProperties

def samplePipeline : Pipeline where
  store := sampleClaims
  events := []
  rows := []
  exposures := []
  queue := []
  retry := []
  dead := []
  deliveries := []
  published := []

theorem samplePipeline_initial : Initial samplePipeline :=
  ⟨rfl, rfl, rfl, rfl, rfl, rfl, rfl, rfl⟩

def answered : Action := .run 0 ⟨.none, unavailable, false⟩

def sampleActions : List Action :=
  [.publish sampleMessage, .deliver 0, answered, answered, answered,
    .run 0 ⟨.after, unavailable, false⟩, answered, answered] ++ List.replicate 8 answered

theorem analytics_events_kept_sample : ∃ p,
    run (AnalyticsEventConsumer.step sampleNames) samplePipeline sampleActions = some p ∧
    Recorded p (1, .raw 1) := by
  have hrun : (run (AnalyticsEventConsumer.step sampleNames) samplePipeline sampleActions).map
      (fun p => (p.published, p.waiting.length, p.deliveries.map (·.settled))) =
        some ([sampleMessage.event], 0, [true]) := by decide +kernel
  obtain ⟨p, hp, hend⟩ := Option.map_eq_some_iff.mp hrun
  simp only [Prod.mk.injEq, List.length_eq_zero_iff] at hend
  obtain ⟨hpub, hwaiting, hsettled⟩ := hend
  refine ⟨p, hp, ?_⟩
  have hmem : sampleMessage.event ∈ p.published := by
    rw [hpub]
    exact List.mem_singleton_self _
  rcases analytics_events_kept samplePipeline_initial (reach_of_run hp) _ hmem with
    ⟨m, hm, -⟩ | ⟨d, hd, hopen, -⟩ | hrec
  · rw [hwaiting] at hm
    cases hm
  · have hin : d.settled ∈ p.deliveries.map (·.settled) := List.mem_map_of_mem hd
    rw [hsettled, hopen] at hin
    cases List.mem_singleton.mp hin
  · obtain ⟨e, he, hrec⟩ := hrec
    cases he
    exact hrec

theorem analytics_rows_bounded_sample : ∃ p,
    run (AnalyticsEventConsumer.step sampleNames) samplePipeline sampleActions = some p ∧
    p.rows.length = 2 ∧ p.final.countP (fun e => decide (e.identity = (1, .raw 1))) ≤ 1 := by
  have hrun : (run (AnalyticsEventConsumer.step sampleNames) samplePipeline sampleActions).map
      (fun p => p.rows.length) = some 2 := by decide +kernel
  obtain ⟨p, hp, hrows⟩ := Option.map_eq_some_iff.mp hrun
  have h := (analytics_rows_bounded samplePipeline_initial (reach_of_run hp)).2 (1, .raw 1)
  exact ⟨p, hp, hrows, h.2.2.2.1⟩

end CommercePlayground.Fulfillment.AnalyticsEventConsumer
