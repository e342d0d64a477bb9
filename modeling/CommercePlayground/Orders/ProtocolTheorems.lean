/-
CommercePlayground.Orders.ProtocolTheorems — the orders inbox over every run.

The number of a row is a fencing token: a claim raises it, and a statement that
names an older one affects nothing. Completed and dead-lettered rows stay. And
the acknowledgement of a message never takes the last trace of its event.
-/
import CommercePlayground.Orders.ConsumerTheorems

namespace CommercePlayground.Orders

open Lib

/-! ## Runs -/

theorem kept_store {α : Type} {s u : Inbox} {fault : Fault} {x : Except String α}
    {r : InboxResult α} (hr : ∀ a v, r = .ok (a, v) → Kept s v)
    (hex : execute unavailable fault s r = (x, u)) : Kept s u := by
  rcases execute_store hex with rfl | ⟨a, ha⟩
  · exact .refl _
  · exact hr a u ha

theorem startStep_kept (c : Choice) (m : Message) (st : State) :
    Kept st.inbox (startStep c m st).inbox := by
  unfold startStep
  split
  · exact .refl _
  · split
    · exact .refl _
    · split
      all_goals
        rename_i hex
        exact kept_store (fun _ _ hc => claim_kept hc) hex

/-- The inbox over a step of a delivery. -/
theorem Inv.kept_run {st : State} {d : Delivery} {m : Message} {c : Choice} {o : Outcome}
    (h : Inv st) (hstep : d.step c m st = some o) : Kept st.inbox o.inbox := by
  unfold Delivery.step at hstep
  split at hstep
  case h_1 =>
    cases hstep
    exact startStep_kept c m st
  case h_4 | h_5 | h_6 =>
    split at hstep
    all_goals
      rename_i hex
      cases hstep
      exact kept_store (fun _ _ hm => (mark_ok h.keys hm).kept) hex
  case h_7 =>
    split at hstep
    all_goals
      rename_i hex
      cases hstep
      exact kept_store (fun _ _ hr => (releaseClaim_ok hr).1) hex
  case h_11 | h_12 | h_13 | h_14 => cases hstep
  all_goals
    cases hstep
    exact .refl _

theorem Inv.kept {st st' : State} {a : Action} (h : Inv st) (hstep : Orders.step st a = some st') :
    Kept st.inbox st'.inbox := by
  cases a with
  | produce m =>
    cases hstep
    exact .refl _
  | deliver j =>
    simp only [Orders.step] at hstep
    split at hstep
    · cases hstep
    · split at hstep
      · cases hstep
      · cases hstep
        exact .refl _
  | run i c =>
    simp only [Orders.step] at hstep
    split at hstep
    · cases hstep
    · split at hstep
      · cases hstep
      · obtain ⟨o, ho, rfl⟩ := Option.map_eq_some_iff.mp hstep
        exact h.kept_run ho
  | crash i =>
    simp only [Orders.step] at hstep
    split at hstep
    · cases hstep
    · cases hstep
      exact .refl _
  | elapse time =>
    cases hstep
    exact ⟨fun hu => hu, fun _ r hr => ⟨r, hr, le_rfl, fun _ => rfl⟩⟩

/-- Rows that are done stay, in every later state. -/
theorem Inv.done_stays {st st' : State} {k : TenantId × EventId} {r : InboxRow} (h : Inv st)
    (hr : rowOf st.inbox k = some r) (hd : r.Done)
    (hreach : Reach Orders.step (fun _ _ => True) st st') : rowOf st'.inbox k = some r := by
  have hboth : Inv st' ∧ rowOf st'.inbox k = some r := by
    refine hreach.invariant (I := fun t => Inv t ∧ rowOf t.inbox k = some r) ⟨h, hr⟩
      fun t a u hinv _ hstep => ?_
    obtain ⟨r', hr', -, hsame⟩ := (hinv.1.kept hstep).row k r hinv.2
    exact ⟨hinv.1.step hstep, hsame hd ▸ hr'⟩
  exact hboth.2

/-! ## The protocol -/

/-- What is left in the queue for an event whose row is not done, beside the
message at `acked`. -/
def Continues (s : Inbox) (messages : List Message) (acked : Nat) (b : OrderMessage)
    (r : InboxRow) : Prop :=
  ∃ (j : Nat) (w : Message) (b' : OrderMessage), j ≠ acked ∧ messages[j]? = some w ∧
    w.settled = false ∧ valid w = some b' ∧ b'.key = b.key ∧
    match r.status with
    | .retryScheduled =>
      w.confirmedRetry = true ∧ b.attempt < b'.attempt ∧
        ∃ c u, claim b'.tenantId b'.eventId b'.attempt s = .ok (.claimed c, u)
    | _ =>
      -- another delivery has the event; should it stop, this message takes over
      (∃ v ∈ messages, v.confirmedRetry = true ∧ ∃ b₁, valid v = some b₁ ∧ b₁.key = b.key ∧
        b.attempt < b₁.attempt) ∧
      ∀ time, r.leaseUntil ≤ time → accepts time b'.attempt r = true

/-- What the orders inbox promises in a state. -/
structure InboxProtocol (st : State) : Prop where
  /-- A claim raises the number of its row. -/
  claim_rises : ∀ t e n c u, claim t e n st.inbox = .ok (.claimed c, u) →
    c.key = (t, e) ∧ attemptsOf st.inbox (t, e) < c.attempts ∧
      attemptsOf u (t, e) = c.attempts
  /-- Nothing takes a number back. -/
  never_falls : ∀ a st', Orders.step st a = some st' → ∀ k,
    attemptsOf st.inbox k ≤ attemptsOf st'.inbox k
  /-- An older number affects no row. -/
  fenced : ∀ c : InboxClaim, c.attempts < attemptsOf st.inbox c.key →
    affected (isClaimed c) st.inbox.rows = 0 ∧
      (∀ status operation, ∃ e, mark status operation c st.inbox = .error e) ∧
      ∀ x u, releaseClaim c st.inbox = .ok (x, u) → u = st.inbox
  /-- Completed and dead-lettered rows stay as they are. -/
  absorbing : ∀ k r, rowOf st.inbox k = some r → r.Done → ∀ st',
    Reach Orders.step (fun _ _ => True) st st' → rowOf st'.inbox k = some r
  /-- An acked message was dead-lettered, its event is completed or
  dead-lettered, or goes on with another message. -/
  acked : ∀ i c st' d m, Orders.step st (.run i c) = some st' → st.deliveries[i]? = some d →
    d.phase = .acking → st.messages[d.message]? = some m →
    (valid m = none ∧ d.message ∈ st'.dead) ∨
      ∃ b r, valid m = some b ∧ rowOf st'.inbox b.key = some r ∧
        (r.status = .completed ∨ r.status = .deadLettered ∨
          Continues st'.inbox st'.messages d.message b r)

theorem Inv.fenced {st : State} (h : Inv st) {c : InboxClaim}
    (hlt : c.attempts < attemptsOf st.inbox c.key) :
    affected (isClaimed c) st.inbox.rows = 0 ∧
      (∀ status operation, ∃ e, Orders.mark status operation c st.inbox = .error e) ∧
      ∀ x u, releaseClaim c st.inbox = .ok (x, u) → u = st.inbox := by
  have hzero := affected_isClaimed h.keys hlt.ne
  refine ⟨hzero, fun status operation => ?_, fun x u hr => ?_⟩
  · unfold Orders.mark
    split
    · exact ⟨_, rfl⟩
    · rw [hzero]
      exact ⟨_, rfl⟩
  · unfold releaseClaim at hr
    split at hr
    · cases hr
    · cases hr
      rw [updateWhere_eq_self (affected_eq_zero hzero)]

/-- A retry that is ahead of its row is claimed. -/
theorem claim_retry {s : Inbox} {b : OrderMessage} {r : InboxRow} {w : Message}
    (hv : valid w = some b) (hr : rowOf s b.key = some r) (hst : r.status = .retryScheduled)
    (ha : b.attempt = r.attempts + 1) :
    ∃ c u, claim b.tenantId b.eventId b.attempt s = .ok (.claimed c, u) := by
  obtain ⟨-, -, hmax, -⟩ := parse_ok (valid_some hv).2
  have hlimit : ¬ integerLimit ≤ b.attempt := by
    have : maxAttempts < integerLimit := by decide
    omega
  have hfind : s.rows.find? (isRow b.tenantId b.eventId) = some r :=
    (rowOf_eq s _ _).symm.trans hr
  have hlt : r.attempts < b.attempt := by omega
  have hacc : accepts s.now b.attempt r = true := by simp [accepts, hst, hlt]
  have hnext : nextAttempts b.attempt r = b.attempt := if_pos hlt
  unfold claim
  rw [if_neg hlimit, hfind]
  simp only [hacc, if_true, hnext, if_neg hlimit]
  exact ⟨_, _, rfl⟩

/-- The messages beside the one a delivery acks. -/
theorem acking_step {st st' : State} {i : Nat} {c : Choice} {d : Delivery} {m : Message}
    (hstep : Orders.step st (.run i c) = some st') (hd : st.deliveries[i]? = some d)
    (hp : d.phase = .acking) (hm : st.messages[d.message]? = some m) :
    st'.inbox = st.inbox ∧ st'.dead = st.dead ∧ Grows st.messages st'.messages ∧
      ∀ j, j ≠ d.message → st'.messages[j]? = st.messages[j]? := by
  simp only [Orders.step, hd, hm, Delivery.step, hp, Option.map_some, Option.some.injEq] at hstep
  subst hstep
  refine ⟨rfl, rfl, ?_, fun j hj => ?_⟩
  · cases c.settles with
    | false => exact .refl _
    | true => exact .settle _ _
  · cases c.settles with
    | false => rfl
    | true =>
      show (st.messages.modify d.message settle)[j]? = st.messages[j]?
      rw [List.getElem?_modify]
      simp [hj.symm]

theorem Inv.acked {st st' : State} {i : Nat} {c : Choice} {d : Delivery} {m : Message}
    (h : Inv st) (hstep : Orders.step st (.run i c) = some st') (hd : st.deliveries[i]? = some d)
    (hp : d.phase = .acking) (hm : st.messages[d.message]? = some m) :
    (valid m = none ∧ d.message ∈ st'.dead) ∨
      ∃ b r, valid m = some b ∧ rowOf st'.inbox b.key = some r ∧
        (r.status = .completed ∨ r.status = .deadLettered ∨
          Continues st'.inbox st'.messages d.message b r) := by
  have hmem := List.mem_of_getElem? hd
  obtain ⟨hinbox, hdead, hgrows, hothers⟩ := acking_step hstep hd hp hm
  rw [hinbox, hdead]
  cases hv : valid m with
  | none =>
    have hphase := h.phases d hmem
    rw [hp] at hphase
    obtain ⟨m', hm', hletter⟩ := hphase
    cases hm.symm.trans hm'
    exact .inl ⟨rfl, hletter hv⟩
  | some b =>
    refine .inr ⟨b, ?_⟩
    rcases h.ahead d.message m b hm hv with ⟨r, hr, hbehind⟩ | hwait
    · refine ⟨r, rfl, hr, ?_⟩
      by_cases hdone : r.Done
      · exact hdone.imp_right .inl
      · have hle : b.attempt ≤ r.attempts := hbehind.resolve_left hdone
        obtain ⟨j, w, b', hwait, hv', hbk, hret⟩ := h.pending _ r hr hdone
        have hj : j ≠ d.message := fun heq => hwait.2.2 d hmem heq.symm hp
        refine .inr (.inr ⟨j, w, b', hj, (hothers j hj).trans hwait.1, hwait.2.1, hv', hbk, ?_⟩)
        cases hst : r.status with
        | retryScheduled =>
          obtain ⟨hconf, hnext⟩ := hret hst
          exact ⟨hconf, by omega, claim_retry hv' (hbk ▸ hr) hst hnext⟩
        | processing =>
          refine ⟨?_, fun time htime => by simp [accepts, hst, htime]⟩
          rcases h.followed d hmem hp m b hm hv with ⟨r₁, hr₁, hd₁⟩ | hretry
          · cases hr.symm.trans hr₁
            exact absurd hd₁ hdone
          · obtain ⟨i₁, w₁, b₁, hw₁, hconf₁, hv₁, hbk₁, hlt₁⟩ := hretry
            obtain ⟨w₂, hw₂, hsame, hconf₂⟩ := hgrows i₁ w₁ hw₁
            exact ⟨w₂, List.mem_of_getElem? hw₂, hconf₂.trans hconf₁, b₁, hsame.trans hv₁,
              hbk₁, hlt₁⟩
        | completed => exact absurd (.inl hst) hdone
        | deadLettered => exact absurd (.inr hst) hdone
    · exact absurd hp (hwait.2.2 d hmem rfl)

/-- Over every run of the consumers, from an empty inbox and an empty queue: the
number of a row is a fencing token, what is done stays, and no acked event is
lost. -/
theorem orders_inbox_protocol {st₀ st : State} (h₀ : Initial st₀)
    (h : Reach Orders.step (fun _ _ => True) st₀ st) : InboxProtocol st := by
  have hinv := Inv.reach h₀ h
  refine ⟨fun t e n c u hc => ?_, fun a st' hstep => (hinv.kept hstep).attempts,
    fun c hlt => hinv.fenced hlt, fun k r hr hd st' hreach => hinv.done_stays hr hd hreach,
    fun i c st' d m hstep hd hp hm => hinv.acked hstep hd hp hm⟩
  have hspec := claim_claimed hc
  obtain ⟨r, hr, -, ha⟩ := hspec.row
  refine ⟨hspec.key, hspec.rises, ?_⟩
  rw [attemptsOf, hr]
  exact ha

/-! A poisoned event: it is claimed, its retry confirmed and scheduled, and the
first message acked while the retry waits. -/

def sampleStart : State := ⟨⟨0, []⟩, [], [], []⟩

def sampleMessage : Message where
  body := some ⟨7, 1, 1, 1, true, 1⟩
  header := .absent
  messageId := some 7
  validContext := true
  confirmedRetry := false
  settled := false

def sampleChoice : Choice := ⟨.none, .confirmed, true, true⟩

def samplePoison : List Action :=
  [.produce sampleMessage, .deliver 0, .run 0 sampleChoice, .run 0 sampleChoice,
    .run 0 sampleChoice, .run 0 sampleChoice]

theorem orders_inbox_protocol_sample :
    ∃ st, run Orders.step sampleStart samplePoison = some st ∧
      (st.inbox.rows.map fun r => (r.status, r.attempts)) = [(.retryScheduled, 1)] ∧
      st.messages.map Message.settled = [true, false] ∧ InboxProtocol st := by
  have hrun : (run Orders.step sampleStart samplePoison).map
      (fun st => (st.inbox.rows.map fun r => (r.status, r.attempts),
        st.messages.map Message.settled)) =
      some ([(.retryScheduled, 1)], [true, false]) := by
    decide
  obtain ⟨st, hst, hrows⟩ := Option.map_eq_some_iff.mp hrun
  obtain ⟨hrows, hsettled⟩ := Prod.mk.inj hrows
  have hstart : Initial sampleStart := ⟨rfl, rfl, rfl⟩
  exact ⟨st, hst, hrows, hsettled, orders_inbox_protocol hstart (reach_of_run hst)⟩

end CommercePlayground.Orders
