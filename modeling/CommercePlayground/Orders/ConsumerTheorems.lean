/-
CommercePlayground.Orders.ConsumerTheorems — no acked event is lost.

A message is behind its row (`Behind`: the row is done, or has had an attempt
with the message's number), or it waits (`Waiting`: unsettled, and no delivery
of it is about to ack). And a row that is not done has a message that waits:
when a retry is scheduled, the confirmed one with the next number. Both hold in
every reachable state, so the delivery that acks takes no last message with it.
-/
import CommercePlayground.Orders.InboxTheorems

namespace CommercePlayground.Orders

open Lib

/-! ## The invariant -/

/-- The row of the event is done, or has had an attempt with the message's
number. -/
def Behind (s : Inbox) (b : OrderMessage) : Prop :=
  ∃ r, rowOf s b.key = some r ∧ (r.Done ∨ b.attempt ≤ r.attempts)

/-- The message at `j` is in the queue and nobody is about to settle it. -/
def Waiting (messages : List Message) (deliveries : List Delivery) (j : Nat) (w : Message) :
    Prop :=
  messages[j]? = some w ∧ w.settled = false ∧
    ∀ d ∈ deliveries, d.message = j → d.phase ≠ .acking

/-- The message of a delivery, and the claim it took. -/
def Claims (messages : List Message) (j : Nat) (c : InboxClaim) : Prop :=
  ∃ m b, messages[j]? = some m ∧ valid m = some b ∧ b.key = c.key ∧ b.attempt ≤ c.attempts

/-- The confirmed retry after a claim. -/
def Retries (messages : List Message) (c : InboxClaim) : Prop :=
  ∃ (j : Nat) (w : Message) (b : OrderMessage), messages[j]? = some w ∧
    w.confirmedRetry = true ∧ valid w = some b ∧ b.key = c.key ∧ b.attempt = c.attempts + 1

/-- What a delivery knows in each phase. -/
def PhaseOk (messages : List Message) (dead : List Nat) (j : Nat) : Phase → Prop
  | .publishRetry c body =>
    Claims messages j c ∧ c.attempts < maxAttempts ∧
      ∃ m, messages[j]? = some m ∧ valid m = some body ∧ body.key = c.key
  | .markRetry c => Claims messages j c ∧ Retries messages c
  | .publishDead c | .markDead c | .complete c | .release c => Claims messages j c
  | .malformed | .reject => ∃ m, messages[j]? = some m ∧ valid m = none
  | .acking => ∃ m, messages[j]? = some m ∧ (valid m = none → j ∈ dead)
  | _ => ∃ m, messages[j]? = some m

/-- The message a row that is not done still has. -/
def Pending (messages : List Message) (deliveries : List Delivery) (k : TenantId × EventId)
    (r : InboxRow) : Prop :=
  ∃ (j : Nat) (w : Message) (b : OrderMessage), Waiting messages deliveries j w ∧
    valid w = some b ∧ b.key = k ∧
    (r.status = .retryScheduled → w.confirmedRetry = true ∧ b.attempt = r.attempts + 1)

/-- The row of the event is done, or a retry past the message's number was
published and confirmed. -/
def Followed (s : Inbox) (messages : List Message) (b : OrderMessage) : Prop :=
  (∃ r, rowOf s b.key = some r ∧ r.Done) ∨
    ∃ (j : Nat) (w : Message) (b' : OrderMessage), messages[j]? = some w ∧
      w.confirmedRetry = true ∧ valid w = some b' ∧ b'.key = b.key ∧ b.attempt < b'.attempt

structure Inv (st : State) : Prop where
  keys : KeyUnique rowKey st.inbox.rows
  phases : ∀ d ∈ st.deliveries, PhaseOk st.messages st.dead d.message d.phase
  ahead : ∀ (j : Nat) (m : Message) (b : OrderMessage), st.messages[j]? = some m →
    valid m = some b → Behind st.inbox b ∨ Waiting st.messages st.deliveries j m
  pending : ∀ k r, rowOf st.inbox k = some r → ¬ r.Done →
    Pending st.messages st.deliveries k r
  followed : ∀ d ∈ st.deliveries, d.phase = .acking → ∀ m b,
    st.messages[d.message]? = some m → valid m = some b → Followed st.inbox st.messages b

theorem Inv.initial {st : State} (h : Initial st) : Inv st where
  keys := by
    rw [h.rows]
    exact KeyUnique.nil _
  phases := by
    rw [h.deliveries]
    exact fun _ hd => absurd hd List.not_mem_nil
  ahead j m b hj := by
    rw [h.messages, List.getElem?_nil] at hj
    cases hj
  pending k r hr := by
    rw [rowOf, h.rows] at hr
    cases hr
  followed := by
    rw [h.deliveries]
    exact fun _ hd => absurd hd List.not_mem_nil

/-! ## Messages over a step -/

/-- Messages stay where they are, and keep what they say. -/
def Grows (ms ms' : List Message) : Prop :=
  ∀ (j : Nat) (m : Message), ms[j]? = some m → ∃ m', ms'[j]? = some m' ∧
    valid m' = valid m ∧ m'.confirmedRetry = m.confirmedRetry

theorem Grows.refl (ms : List Message) : Grows ms ms := fun _ m hm => ⟨m, hm, rfl, rfl⟩

theorem Grows.append (ms new : List Message) : Grows ms (ms ++ new) := by
  intro j m hm
  refine ⟨m, ?_, rfl, rfl⟩
  rw [List.getElem?_append_left (List.getElem?_eq_some_iff.mp hm).1]
  exact hm

theorem Grows.settle (ms : List Message) (i : Nat) : Grows ms (ms.modify i Orders.settle) := by
  intro j m hm
  rw [List.getElem?_modify, hm]
  by_cases hij : i = j
  · exact ⟨Orders.settle m, by simp [hij], rfl, rfl⟩
  · exact ⟨m, by simp [hij], rfl, rfl⟩

theorem Claims.grows {ms ms' : List Message} {j : Nat} {c : InboxClaim} (h : Claims ms j c)
    (hg : Grows ms ms') : Claims ms' j c := by
  obtain ⟨m, b, hm, hb, hk, ha⟩ := h
  obtain ⟨m', hm', hv, -⟩ := hg j m hm
  exact ⟨m', b, hm', hv.trans hb, hk, ha⟩

theorem PhaseOk.grows {ms ms' : List Message} {dead dead' : List Nat} {j : Nat} {p : Phase}
    (h : PhaseOk ms dead j p) (hg : Grows ms ms') (hd : ∀ x ∈ dead, x ∈ dead') :
    PhaseOk ms' dead' j p := by
  cases p with
  | publishRetry c body =>
    obtain ⟨hc, hmax, m, hm, hv, hk⟩ := h
    obtain ⟨m', hm', hv', -⟩ := hg j m hm
    exact ⟨hc.grows hg, hmax, m', hm', hv'.trans hv, hk⟩
  | markRetry c =>
    obtain ⟨hc, i, w, b, hw, hconf, hb, hk, ha⟩ := h
    obtain ⟨w', hw', hv', hconf'⟩ := hg i w hw
    exact ⟨hc.grows hg, i, w', b, hw', hconf'.trans hconf, hv'.trans hb, hk, ha⟩
  | publishDead c => exact Claims.grows h hg
  | markDead c => exact Claims.grows h hg
  | complete c => exact Claims.grows h hg
  | release c => exact Claims.grows h hg
  | malformed =>
    obtain ⟨m, hm, hv⟩ := h
    obtain ⟨m', hm', hv', -⟩ := hg j m hm
    exact ⟨m', hm', hv'.trans hv⟩
  | reject =>
    obtain ⟨m, hm, hv⟩ := h
    obtain ⟨m', hm', hv', -⟩ := hg j m hm
    exact ⟨m', hm', hv'.trans hv⟩
  | acking =>
    obtain ⟨m, hm, hv⟩ := h
    obtain ⟨m', hm', hv', -⟩ := hg j m hm
    exact ⟨m', hm', fun hn => hd j (hv (hv'.symm.trans hn))⟩
  | _ =>
    obtain ⟨m, hm⟩ := h
    obtain ⟨m', hm', -⟩ := hg j m hm
    exact ⟨m', hm'⟩

/-- Every delivery is of a message. -/
theorem PhaseOk.message {ms : List Message} {dead : List Nat} {j : Nat} {p : Phase}
    (h : PhaseOk ms dead j p) : ∃ m, ms[j]? = some m := by
  cases p with
  | publishRetry c body =>
    obtain ⟨-, -, m, hm, -⟩ := h
    exact ⟨m, hm⟩
  | markRetry c =>
    obtain ⟨⟨m, -, hm, -⟩, -⟩ := h
    exact ⟨m, hm⟩
  | publishDead c =>
    obtain ⟨m, -, hm, -⟩ := h
    exact ⟨m, hm⟩
  | markDead c =>
    obtain ⟨m, -, hm, -⟩ := h
    exact ⟨m, hm⟩
  | complete c =>
    obtain ⟨m, -, hm, -⟩ := h
    exact ⟨m, hm⟩
  | release c =>
    obtain ⟨m, -, hm, -⟩ := h
    exact ⟨m, hm⟩
  | malformed =>
    obtain ⟨m, hm, -⟩ := h
    exact ⟨m, hm⟩
  | reject =>
    obtain ⟨m, hm, -⟩ := h
    exact ⟨m, hm⟩
  | acking =>
    obtain ⟨m, hm, -⟩ := h
    exact ⟨m, hm⟩
  | _ => exact h

theorem Behind.kept {s u : Inbox} {b : OrderMessage} (h : Behind s b) (hk : Kept s u) :
    Behind u b := by
  obtain ⟨r, hr, hb⟩ := h
  obtain ⟨r', hr', hle, hdone⟩ := hk.row _ r hr
  refine ⟨r', hr', ?_⟩
  rcases hb with hd | hle'
  · exact .inl (hdone hd ▸ hd)
  · exact .inr (hle'.trans hle)

theorem Followed.moves {s u : Inbox} {ms ms' : List Message} {b : OrderMessage}
    (h : Followed s ms b) (hk : Kept s u) (hg : Grows ms ms') : Followed u ms' b := by
  rcases h with ⟨r, hr, hd⟩ | ⟨j, w, b', hw, hconf, hv, hbk, hlt⟩
  · obtain ⟨r', hr', -, hsame⟩ := hk.row _ r hr
    exact .inl ⟨r', hr', hsame hd ▸ hd⟩
  · obtain ⟨w', hw', hv', hconf'⟩ := hg j w hw
    exact .inr ⟨j, w', b', hw', hconf'.trans hconf, hv'.trans hv, hbk, hlt⟩

/-- A message that waits goes on waiting when a delivery of another message, or
one that does not ack, moves. -/
theorem Waiting.set {ms : List Message} {ds : List Delivery} {i j : Nat} {w : Message}
    {d' : Delivery} (h : Waiting ms ds j w) (hp : d'.phase = .acking → d'.message ≠ j) :
    Waiting ms (ds.set i d') j w := by
  refine ⟨h.1, h.2.1, fun d hd hj => ?_⟩
  rcases List.mem_or_eq_of_mem_set hd with hd | rfl
  · exact h.2.2 d hd hj
  · exact fun hack => hp hack hj

/-! ## The inbox moves -/

/-- A step of a delivery that writes the inbox at most. If it goes on to ack,
its message is behind the row and is not the one the row waits for. -/
theorem Inv.inbox {st : State} {i : Nat} {d : Delivery} {u : Inbox} {p : Phase}
    (h : Inv st) (hk : Kept st.inbox u)
    (hp : PhaseOk st.messages st.dead d.message p)
    (hack : p = .acking → ∀ m b, st.messages[d.message]? = some m → valid m = some b →
      Behind u b ∧ Followed u st.messages b)
    (hpend : ∀ k r, rowOf u k = some r → ¬ r.Done →
      ∃ (j : Nat) (w : Message) (b : OrderMessage), Waiting st.messages st.deliveries j w ∧
        valid w = some b ∧ b.key = k ∧
        (r.status = .retryScheduled → w.confirmedRetry = true ∧ b.attempt = r.attempts + 1) ∧
        (p = .acking → d.message ≠ j)) :
    Inv ⟨u, st.messages, st.deliveries.set i { d with phase := p }, st.dead⟩ where
  keys := hk.keys h.keys
  phases := by
    intro d₁ hd₁
    rcases List.mem_or_eq_of_mem_set hd₁ with hd₁ | rfl
    · exact h.phases d₁ hd₁
    · exact hp
  ahead := by
    intro j m b hj hb
    rcases h.ahead j m b hj hb with hbehind | hwait
    · exact .inl (hbehind.kept hk)
    · by_cases hcase : p = .acking ∧ d.message = j
      · obtain ⟨hpa, rfl⟩ := hcase
        exact .inl (hack hpa m b hj hb).1
      · exact .inr (hwait.set fun hpa hdj => hcase ⟨hpa, hdj⟩)
  pending := by
    intro k r hr hnd
    obtain ⟨j, w, b, hwait, hv, hbk, hst, hne⟩ := hpend k r hr hnd
    exact ⟨j, w, b, hwait.set hne, hv, hbk, hst⟩
  followed := by
    intro d₁ hd₁ hpa m b hm hb
    rcases List.mem_or_eq_of_mem_set hd₁ with hd₁ | rfl
    · exact (h.followed d₁ hd₁ hpa m b hm hb).moves hk (.refl _)
    · exact (hack hpa m b hm hb).2

/-- Nothing moves but the phase, which is not `acking`. -/
theorem Inv.still {st : State} {i : Nat} {d : Delivery} {p : Phase} (h : Inv st)
    (hp : PhaseOk st.messages st.dead d.message p) (hne : p ≠ .acking) :
    Inv ⟨st.inbox, st.messages, st.deliveries.set i { d with phase := p }, st.dead⟩ := by
  refine h.inbox (.refl _) hp (fun hack => absurd hack hne) fun k r hr hnd => ?_
  obtain ⟨j, w, b, hwait, hv, hbk, hst⟩ := h.pending k r hr hnd
  exact ⟨j, w, b, hwait, hv, hbk, hst, fun hack => absurd hack hne⟩

/-- A claim. -/
theorem Inv.claimed {st : State} {i : Nat} {d : Delivery} {u : Inbox} {p : Phase} {m : Message}
    {b : OrderMessage} {c : InboxClaim} (h : Inv st) (hm : st.messages[d.message]? = some m)
    (hv : valid m = some b) (hc : ClaimSpec b.tenantId b.eventId b.attempt st.inbox u c)
    (hp : PhaseOk st.messages st.dead d.message p) (hne : p ≠ .acking) :
    Inv ⟨u, st.messages, st.deliveries.set i { d with phase := p }, st.dead⟩ := by
  refine h.inbox hc.kept hp (fun hack => absurd hack hne) fun k r hr hnd => ?_
  by_cases hk : k = (b.tenantId, b.eventId)
  · subst hk
    obtain ⟨r', hr', hst', -⟩ := hc.row
    have hproc : r.status = .processing := by
      rw [hr'] at hr
      cases hr
      exact hst'
    have hno : r.status ≠ .retryScheduled := by
      rw [hproc]
      nofun
    cases hold : rowOf st.inbox (b.tenantId, b.eventId) with
    | none =>
      -- the first claim: its own message waits
      rcases h.ahead d.message m b hm hv with ⟨r₀, hr₀, -⟩ | hwait
      · have hr₀ : rowOf st.inbox (b.tenantId, b.eventId) = some r₀ := hr₀
        rw [hold] at hr₀
        cases hr₀
      · exact ⟨_, m, b, hwait, hv, rfl, fun hs => absurd hs hno, fun hack => absurd hack hne⟩
    | some r₀ =>
      obtain ⟨j, w, b', hwait, hv', hbk, -⟩ := h.pending _ r₀ hold (hc.was r₀ hold)
      exact ⟨j, w, b', hwait, hv', hbk, fun hs => absurd hs hno, fun hack => absurd hack hne⟩
  · rw [hc.others k hk] at hr
    obtain ⟨j, w, b', hwait, hv', hbk, hst⟩ := h.pending k r hr hnd
    exact ⟨j, w, b', hwait, hv', hbk, hst, fun hack => absurd hack hne⟩

/-- An event that was handled is acked. -/
theorem Inv.handled {st : State} {i : Nat} {d : Delivery} {m : Message} {b : OrderMessage}
    {r : InboxRow} (h : Inv st) (hm : st.messages[d.message]? = some m) (hv : valid m = some b)
    (hr : rowOf st.inbox b.key = some r)
    (hst : r.Done ∨ r.status = .retryScheduled ∧ b.attempt ≤ r.attempts) :
    Inv ⟨st.inbox, st.messages, st.deliveries.set i { d with phase := .acking }, st.dead⟩ := by
  refine h.inbox (.refl _) ⟨m, hm, fun hn => by rw [hv] at hn; cases hn⟩ ?_ ?_
  · intro _ m' b' hm' hv'
    rw [hm] at hm'
    cases hm'
    rw [hv] at hv'
    cases hv'
    refine ⟨⟨r, hr, hst.imp_right And.right⟩, ?_⟩
    rcases hst with hdone | ⟨hs, hle⟩
    · exact .inl ⟨r, hr, hdone⟩
    · have hnd : ¬ r.Done := by
        rintro (hd | hd) <;> rw [hs] at hd <;> cases hd
      obtain ⟨j, w, b', hwait, hvw, hbk, hret⟩ := h.pending _ r hr hnd
      obtain ⟨hconf, hnext⟩ := hret hs
      exact .inr ⟨j, w, b', hwait.1, hconf, hvw, hbk, by omega⟩
  · intro k r' hr' hnd
    obtain ⟨j, w, b', hwait, hv', hbk, hret⟩ := h.pending k r' hr' hnd
    refine ⟨j, w, b', hwait, hv', hbk, hret, fun _ hj => ?_⟩
    -- the message of the row has a higher number than this one
    subst hj
    cases hm.symm.trans hwait.1
    rw [hv] at hv'
    cases hv'
    subst hbk
    rw [hr] at hr'
    cases hr'
    rcases hst with hdone | ⟨hs, hle⟩
    · exact hnd hdone
    · have := (hret hs).2
      omega

/-- A claim is ended, and the delivery goes on to ack or does not hear of it. -/
theorem Inv.marked {st : State} {i : Nat} {d : Delivery} {u : Inbox} {p : Phase}
    {c : InboxClaim} {status : InboxStatus} (h : Inv st)
    (hc : Claims st.messages d.message c) (hm : MarkSpec status st.inbox u c)
    (hst : status = .completed ∨ status = .deadLettered ∨
      status = .retryScheduled ∧ Retries st.messages c)
    (hp : PhaseOk st.messages st.dead d.message p) :
    Inv ⟨u, st.messages, st.deliveries.set i { d with phase := p }, st.dead⟩ := by
  obtain ⟨m, b, hmsg, hv, hbk, hba⟩ := hc
  obtain ⟨r₁, hr₁, ha₁, hst₁⟩ := hm.row
  refine h.inbox hm.kept hp ?_ ?_
  · intro _ m' b' hm' hv'
    rw [hmsg] at hm'
    cases hm'
    rw [hv] at hv'
    cases hv'
    refine ⟨⟨r₁, hbk ▸ hr₁, .inr (ha₁ ▸ hba)⟩, ?_⟩
    rcases hst with hs | hs | ⟨-, j, w, b', hw, hconf, hvw, hbk', hba'⟩
    · exact .inl ⟨r₁, hbk ▸ hr₁, .inl (hst₁.trans hs)⟩
    · exact .inl ⟨r₁, hbk ▸ hr₁, .inr (hst₁.trans hs)⟩
    · exact .inr ⟨j, w, b', hw, hconf, hvw, hbk'.trans hbk.symm, by omega⟩
  · intro k r hr hnd
    by_cases hk : k = c.key
    · subst hk
      rw [hr₁] at hr
      cases hr
      rcases hst with hs | hs | ⟨hs, j, w, b', hw, hconf, hv', hbk', hba'⟩
      · exact absurd (.inl (hst₁.trans hs)) hnd
      · exact absurd (.inr (hst₁.trans hs)) hnd
      · -- the retry is ahead of the row, so it waits
        obtain ⟨r₀, hr₀, ha₀, hst₀⟩ := hm.was
        rcases h.ahead j w b' hw hv' with ⟨r', hr', hb'⟩ | hwait
        · rw [hbk', hr₀] at hr'
          cases hr'
          rcases hb' with (hd | hd) | hle
          · rw [hst₀] at hd
            cases hd
          · rw [hst₀] at hd
            cases hd
          · omega
        · refine ⟨j, w, b', hwait, hv', hbk', fun _ => ⟨hconf, by rw [ha₁]; exact hba'⟩, ?_⟩
          rintro - rfl
          rw [hmsg] at hw
          cases hw
          rw [hv] at hv'
          cases hv'
          omega
    · rw [hm.others k hk] at hr
      obtain ⟨j, w, b', hwait, hv', hbk', hret⟩ := h.pending k r hr hnd
      refine ⟨j, w, b', hwait, hv', hbk', hret, ?_⟩
      rintro - rfl
      cases hmsg.symm.trans hwait.1
      rw [hv] at hv'
      cases hv'
      exact hk (hbk'.symm.trans hbk)

/-- A claim is released. -/
theorem Inv.released {st : State} {i : Nat} {d : Delivery} {u : Inbox} {p : Phase}
    {c : InboxClaim} {x : Unit} (h : Inv st) (hr : releaseClaim c st.inbox = .ok (x, u))
    (hp : PhaseOk st.messages st.dead d.message p) (hne : p ≠ .acking) :
    Inv ⟨u, st.messages, st.deliveries.set i { d with phase := p }, st.dead⟩ := by
  obtain ⟨hkept, hrows⟩ := releaseClaim_ok hr
  refine h.inbox hkept hp (fun hack => absurd hack hne) fun k r hrow hnd => ?_
  obtain ⟨r₀, hr₀, hst, ha⟩ := hrows k r hrow
  have hnd₀ : ¬ r₀.Done := by
    unfold InboxRow.Done at hnd ⊢
    rw [← hst]
    exact hnd
  obtain ⟨j, w, b, hwait, hv, hbk, hret⟩ := h.pending k r₀ hr₀ hnd₀
  refine ⟨j, w, b, hwait, hv, hbk, fun hs => ?_, fun hack => absurd hack hne⟩
  rw [ha]
  exact hret (hst.symm.trans hs)

/-! ## The messages move -/

/-- Time passes, or a delivery starts or stops. -/
theorem Inv.deliveries {st : State} {u : Inbox} {ds : List Delivery} (h : Inv st)
    (hrows : u.rows = st.inbox.rows)
    (hphases : ∀ d ∈ ds, PhaseOk st.messages st.dead d.message d.phase)
    (hack : ∀ d ∈ ds, d.phase = .acking → d ∈ st.deliveries) :
    Inv ⟨u, st.messages, ds, st.dead⟩ := by
  have hrow : ∀ k, rowOf u k = rowOf st.inbox k := by
    intro k
    rw [rowOf, rowOf, hrows]
  have hwaits : ∀ j w, Waiting st.messages st.deliveries j w → Waiting st.messages ds j w :=
    fun j w hw => ⟨hw.1, hw.2.1, fun d hd hj hpa => hw.2.2 d (hack d hd hpa) hj hpa⟩
  have hkept : Kept st.inbox u :=
    ⟨fun hu => hrows ▸ hu, fun k r hr => ⟨r, (hrow k).trans hr, le_rfl, fun _ => rfl⟩⟩
  refine ⟨hrows ▸ h.keys, hphases, fun j m b hj hb => ?_, fun k r hr hnd => ?_,
    fun d hd hpa m b hm hb => (h.followed d (hack d hd hpa) hpa m b hm hb).moves hkept (.refl _)⟩
  · rcases h.ahead j m b hj hb with ⟨r, hr, hb⟩ | hwait
    · exact .inl ⟨r, (hrow _).trans hr, hb⟩
    · exact .inr (hwaits j m hwait)
  · obtain ⟨j, w, b, hwait, hv, hbk, hret⟩ := h.pending k r ((hrow k).symm.trans hr) hnd
    exact ⟨j, w, b, hwaits j w hwait, hv, hbk, hret⟩

/-- A message is stored. -/
theorem Inv.append {st : State} {ds : List Delivery} {new : Message} {dead : List Nat}
    (h : Inv st) (hnew : new.settled = false)
    (hphases : ∀ d ∈ ds, PhaseOk (st.messages ++ [new]) dead d.message d.phase)
    (hack : ∀ d ∈ ds, d.phase = .acking → d ∈ st.deliveries) :
    Inv ⟨st.inbox, st.messages ++ [new], ds, dead⟩ := by
  have hwaits : ∀ j w, Waiting st.messages st.deliveries j w →
      Waiting (st.messages ++ [new]) ds j w := by
    intro j w hw
    refine ⟨?_, hw.2.1, fun d hd hj hpa => hw.2.2 d (hack d hd hpa) hj hpa⟩
    rw [List.getElem?_append_left (List.getElem?_eq_some_iff.mp hw.1).1]
    exact hw.1
  refine ⟨h.keys, hphases, fun j m b hj hb => ?_, fun k r hr hnd => ?_,
    fun d hd hpa m b hm hb => ?_⟩
  · by_cases hlt : j < st.messages.length
    · rw [List.getElem?_append_left hlt] at hj
      exact (h.ahead j m b hj hb).imp_right (hwaits j m)
    · -- the new message: no delivery is of it
      have hm : m = new := by
        rw [List.getElem?_append_right (Nat.not_lt.mp hlt)] at hj
        exact List.mem_singleton.mp (List.mem_of_getElem? hj)
      refine .inr ⟨hj, hm ▸ hnew, fun d hd hdj hpa => ?_⟩
      obtain ⟨m', hm'⟩ := (h.phases d (hack d hd hpa)).message
      exact hlt (hdj ▸ (List.getElem?_eq_some_iff.mp hm').1)
  · obtain ⟨j, w, b, hwait, hv, hbk, hret⟩ := h.pending k r hr hnd
    exact ⟨j, w, b, hwaits j w hwait, hv, hbk, hret⟩
  · have hd₀ := hack d hd hpa
    obtain ⟨m₀, hm₀⟩ := (h.phases d hd₀).message
    have hm₀' := hm₀
    rw [← List.getElem?_append_left (List.getElem?_eq_some_iff.mp hm₀).1, hm] at hm₀'
    cases hm₀'
    exact (h.followed d hd₀ hpa m b hm₀ hb).moves (.refl _) (.append _ _)

/-- A message before it was settled. -/
theorem getElem?_settled {ms : List Message} {i j : Nat} {m : Message}
    (h : (ms.modify i settle)[j]? = some m) :
    ∃ m₀, ms[j]? = some m₀ ∧ valid m = valid m₀ ∧ (j ≠ i → m = m₀) := by
  rw [List.getElem?_modify] at h
  obtain ⟨m₀, hm₀, hm⟩ := Option.map_eq_some_iff.mp h
  refine ⟨m₀, hm₀, ?_, fun hj => ?_⟩
  · rw [← hm]
    split
    · exact valid_settle m₀
    · rfl
  · rw [← hm, if_neg fun heq => hj heq.symm]

/-- A message is settled by a delivery that acks it, or rejects it. -/
theorem Inv.settled {st : State} {i : Nat} {d : Delivery} {p : Phase} {dead : List Nat}
    (h : Inv st) (hd : d ∈ st.deliveries)
    (hphase : d.phase = .acking ∨ ∃ m, st.messages[d.message]? = some m ∧ valid m = none)
    (hdead : ∀ x ∈ st.dead, x ∈ dead)
    (hp : PhaseOk (st.messages.modify d.message settle) dead d.message p) (hne : p ≠ .acking) :
    Inv ⟨st.inbox, st.messages.modify d.message settle,
      st.deliveries.set i { d with phase := p }, dead⟩ := by
  have hwaits : ∀ j w, j ≠ d.message → Waiting st.messages st.deliveries j w →
      Waiting (st.messages.modify d.message settle)
        (st.deliveries.set i { d with phase := p }) j w := by
    intro j w hj hw
    have hset : Waiting st.messages (st.deliveries.set i { d with phase := p }) j w :=
      hw.set fun hpa => absurd hpa hne
    refine ⟨?_, hset.2.1, hset.2.2⟩
    rw [List.getElem?_modify, hw.1]
    simp [hj.symm]
  refine ⟨h.keys, ?_, fun j m b hj hb => ?_, fun k r hr hnd => ?_, ?_⟩
  · intro d₁ hd₁
    rcases List.mem_or_eq_of_mem_set hd₁ with hd₁ | rfl
    · exact (h.phases d₁ hd₁).grows (.settle _ _) hdead
    · exact hp
  · obtain ⟨m₀, hm₀, hv₀, hsame⟩ := getElem?_settled hj
    rw [hv₀] at hb
    by_cases hjd : j = d.message
    · subst hjd
      rcases hphase with hack | ⟨m', hm', hnone⟩
      · rcases h.ahead _ m₀ b hm₀ hb with hbehind | hwait
        · exact .inl hbehind
        · exact absurd hack (hwait.2.2 d hd rfl)
      · cases hm₀.symm.trans hm'
        rw [hnone] at hb
        cases hb
    · rw [hsame hjd]
      exact (h.ahead j m₀ b hm₀ hb).imp_right (hwaits j m₀ hjd)
  · obtain ⟨j, w, b, hwait, hv, hbk, hret⟩ := h.pending k r hr hnd
    refine ⟨j, w, b, hwaits j w ?_ hwait, hv, hbk, hret⟩
    rintro rfl
    rcases hphase with hack | ⟨m', hm', hnone⟩
    · exact hwait.2.2 d hd rfl hack
    · cases hm'.symm.trans hwait.1
      rw [hnone] at hv
      cases hv
  · intro d₁ hd₁ hpa m b hm hb
    obtain ⟨m₀, hm₀, hv₀, -⟩ := getElem?_settled hm
    rcases List.mem_or_eq_of_mem_set hd₁ with hd₁ | rfl
    · exact (h.followed d₁ hd₁ hpa m₀ b hm₀ (hv₀ ▸ hb)).moves (.refl _) (.settle _ _)
    · exact absurd hpa hne

/-! ## One step -/

theorem Claims.message {ms : List Message} {j : Nat} {c : InboxClaim} (h : Claims ms j c) :
    ∃ m, ms[j]? = some m := by
  obtain ⟨m, -, hm, -⟩ := h
  exact ⟨m, hm⟩

/-- A delivery that has a claim may ack. -/
theorem Claims.acking {ms : List Message} {dead : List Nat} {j : Nat} {c : InboxClaim}
    (h : Claims ms j c) : PhaseOk ms dead j .acking := by
  obtain ⟨m, b, hm, hv, -⟩ := h
  refine ⟨m, hm, fun hnone => ?_⟩
  rw [hv] at hnone
  cases hnone

theorem Inv.dead {st : State} (h : Inv st) (dead : List Nat) (hd : ∀ x ∈ st.dead, x ∈ dead) :
    Inv { st with dead := dead } :=
  ⟨h.keys, fun d hmem => (h.phases d hmem).grows (.refl _) hd, h.ahead, h.pending, h.followed⟩

/-- What a claimed delivery does next. -/
theorem plan_ok {ms : List Message} {j : Nat} {m : Message} {b : OrderMessage}
    {c : InboxClaim} (dead : List Nat) (hm : ms[j]? = some m) (hv : valid m = some b)
    (hk : b.key = c.key) (ha : b.attempt ≤ c.attempts) :
    PhaseOk ms dead j (plan b c) ∧ plan b c ≠ .acking := by
  have hc : Claims ms j c := ⟨m, b, hm, hv, hk, ha⟩
  unfold plan
  split
  · exact ⟨hc, nofun⟩
  · split
    · split
      · exact ⟨hc, nofun⟩
      · rename_i hmax
        exact ⟨⟨hc, by omega, m, hm, hv, hk⟩, nofun⟩
    · exact ⟨hc, nofun⟩

/-- The claim of a delivery committed, whether or not it hears of it. -/
theorem Inv.claimStep {st : State} {i : Nat} {d : Delivery} {u : Inbox} {p : Phase}
    {m : Message} {b : OrderMessage} {o : ClaimOutcome} (h : Inv st)
    (hm : st.messages[d.message]? = some m) (hv : valid m = some b)
    (hc : claim b.tenantId b.eventId b.attempt st.inbox = .ok (o, u))
    (hp : PhaseOk st.messages st.dead d.message p) (hne : p ≠ .acking) :
    Inv ⟨u, st.messages, st.deliveries.set i { d with phase := p }, st.dead⟩ := by
  cases o with
  | claimed c => exact h.claimed hm hv (claim_claimed hc) hp hne
  | alreadyHandled =>
    rw [(claim_handled hc).1]
    exact h.still hp hne
  | inFlight =>
    rw [claim_inFlight hc]
    exact h.still hp hne

theorem Inv.start {st : State} {i : Nat} {d : Delivery} {m : Message} (h : Inv st)
    (c : Choice) (hm : st.messages[d.message]? = some m) :
    Inv ⟨(startStep c m st).inbox, (startStep c m st).messages,
      st.deliveries.set i { d with phase := (startStep c m st).phase },
      (startStep c m st).dead⟩ := by
  have habandoned : PhaseOk st.messages st.dead d.message .abandoned := ⟨m, hm⟩
  unfold startStep
  split
  · rename_i hctx
    refine h.still ⟨m, hm, ?_⟩ nofun
    unfold valid
    rw [if_neg]
    simpa using hctx
  · rename_i hctx
    split
    · rename_i e hparse
      refine h.still ⟨m, hm, ?_⟩ nofun
      unfold valid
      rw [hparse]
      exact ite_self _
    · rename_i body hparse
      have hv : valid m = some body := by
        unfold valid
        rw [if_pos (by simpa using hctx), hparse]
        rfl
      split
      · rename_i e s hex
        rcases execute_error hex with rfl | ⟨o, hclaim⟩
        · exact h.still habandoned nofun
        · exact h.claimStep hm hv hclaim habandoned nofun
      · rename_i c' s hex
        have hspec := claim_claimed (execute_ok hex).2
        obtain ⟨hp, hne⟩ := plan_ok st.dead hm hv hspec.key.symm hspec.reached
        exact h.claimed hm hv hspec hp hne
      · rename_i s hex
        obtain ⟨rfl, r, hr, hst⟩ := claim_handled (execute_ok hex).2
        exact h.handled hm hv hr hst
      · rename_i s hex
        rw [claim_inFlight (execute_ok hex).2]
        exact h.still habandoned nofun

/-- The publication of the retry. -/
theorem Inv.publishRetry {st : State} {i : Nat} {d : Delivery} {c : InboxClaim}
    {body : OrderMessage} (h : Inv st) (w : Published)
    (hp : PhaseOk st.messages st.dead d.message (.publishRetry c body)) :
    Inv ⟨st.inbox,
      if w.stored then st.messages ++ [republished body (c.attempts + 1) w.isConfirmed]
        else st.messages,
      st.deliveries.set i { d with phase := w.next (.markRetry c) (.release c) }, st.dead⟩ := by
  obtain ⟨hc, hmax, m, hm, hv, hk⟩ := hp
  -- a stored message, and a next phase that is right beside it
  have hstored : ∀ p, p ≠ .acking →
      PhaseOk (st.messages ++ [republished body (c.attempts + 1) w.isConfirmed]) st.dead
        d.message p →
      Inv ⟨st.inbox, st.messages ++ [republished body (c.attempts + 1) w.isConfirmed],
        st.deliveries.set i { d with phase := p }, st.dead⟩ := by
    intro p hne hp
    refine h.append rfl (fun d₁ hd₁ => ?_) fun d₁ hd₁ hpa => ?_
    · rcases List.mem_or_eq_of_mem_set hd₁ with hd₁ | rfl
      · exact (h.phases d₁ hd₁).grows (.append _ _) fun _ hx => hx
      · exact hp
    · rcases List.mem_or_eq_of_mem_set hd₁ with hd₁ | rfl
      · exact hd₁
      · exact absurd hpa hne
  have hclaims := hc.grows (.append st.messages
    [republished body (c.attempts + 1) w.isConfirmed])
  cases w with
  | confirmed =>
    refine hstored _ nofun ⟨hclaims, st.messages.length,
      republished body (c.attempts + 1) true, { body with attempt := c.attempts + 1 }, ?_, rfl,
      valid_republished hv (Nat.succ_pos _) hmax, hk, rfl⟩
    exact List.getElem?_concat_length
  | refused stored =>
    cases stored with
    | false => exact h.still hc nofun
    | true => exact hstored _ nofun hclaims
  | unknown stored =>
    cases stored with
    | false => exact h.still hc.message nofun
    | true => exact hstored _ nofun hclaims.message

/-- The end of a claim. -/
theorem Inv.mark {st : State} {i : Nat} {d : Delivery} {c : InboxClaim}
    {status : InboxStatus} {operation : String} {fault : Fault} {x : Except String Unit}
    {s : Inbox} {p : Phase} (h : Inv st) (hc : Claims st.messages d.message c)
    (hst : status = .completed ∨ status = .deadLettered ∨
      status = .retryScheduled ∧ Retries st.messages c)
    (hex : execute unavailable fault st.inbox (mark status operation c st.inbox) = (x, s))
    (hp : PhaseOk st.messages st.dead d.message p) (hack : p = .acking → x = .ok ()) :
    Inv ⟨s, st.messages, st.deliveries.set i { d with phase := p }, st.dead⟩ := by
  cases x with
  | ok a => exact h.marked hc (mark_ok h.keys (execute_ok hex).2) hst hp
  | error e =>
    rcases execute_error hex with rfl | ⟨a, hmark⟩
    · exact h.still hp fun hpa => nomatch hack hpa
    · exact h.marked hc (mark_ok h.keys hmark) hst hp

/-- The dead letter of a malformed message. -/
theorem Inv.malformed {st : State} {i : Nat} {d : Delivery} (h : Inv st) (w : Published)
    (hp : PhaseOk st.messages st.dead d.message .malformed) :
    Inv ⟨st.inbox, st.messages,
      st.deliveries.set i { d with phase := w.next .acking .abandoned },
      if w.stored then st.dead ++ [d.message] else st.dead⟩ := by
  obtain ⟨m, hm, hnone⟩ := hp
  have hdead := h.dead (st.dead ++ [d.message]) fun x hx => List.mem_append_left _ hx
  have habandoned : ∀ dead, PhaseOk st.messages dead d.message .abandoned := fun _ => ⟨m, hm⟩
  cases w with
  | confirmed =>
    refine hdead.inbox (.refl _) ⟨m, hm, fun _ => by simp⟩ ?_ fun k r hr hnd => ?_
    · intro _ m' b' hm' hv'
      cases hm.symm.trans hm'
      rw [hnone] at hv'
      cases hv'
    · obtain ⟨j, w, b, hwait, hv, hbk, hret⟩ := h.pending k r hr hnd
      refine ⟨j, w, b, hwait, hv, hbk, hret, ?_⟩
      rintro - rfl
      cases hm.symm.trans hwait.1
      rw [hnone] at hv
      cases hv
  | refused stored =>
    cases stored with
    | false => exact h.still (habandoned _) nofun
    | true => exact hdead.still (habandoned _) nofun
  | unknown stored =>
    cases stored with
    | false => exact h.still (habandoned _) nofun
    | true => exact hdead.still (habandoned _) nofun

/-- A step of a delivery. -/
theorem Inv.run {st : State} {i : Nat} {d : Delivery} {m : Message} {c : Choice} {o : Outcome}
    (h : Inv st) (hd : d ∈ st.deliveries) (hm : st.messages[d.message]? = some m)
    (hstep : d.step c m st = some o) :
    Inv ⟨o.inbox, o.messages, st.deliveries.set i { d with phase := o.phase }, o.dead⟩ := by
  have hphase := h.phases d hd
  have habandoned : ∀ dead, PhaseOk st.messages dead d.message .abandoned := fun _ => ⟨m, hm⟩
  have hmore : ∀ x ∈ st.dead, x ∈ st.dead ++ [d.message] := fun x hx =>
    List.mem_append_left _ hx
  unfold Delivery.step at hstep
  cases hp : d.phase with
  | start =>
    rw [hp] at hstep
    cases hstep
    exact h.start c hm
  | publishRetry claim body =>
    rw [hp] at hphase hstep
    cases hstep
    exact h.publishRetry c.publish hphase
  | publishDead claim =>
    rw [hp] at hphase hstep
    cases hstep
    have hdead := h.dead (st.dead ++ [d.message]) hmore
    cases c.publish with
    | confirmed => exact hdead.still hphase nofun
    | refused stored =>
      cases stored with
      | false => exact h.still hphase nofun
      | true => exact hdead.still hphase nofun
    | unknown stored =>
      cases stored with
      | false => exact h.still (habandoned _) nofun
      | true => exact hdead.still (habandoned _) nofun
  | markRetry claim =>
    rw [hp] at hphase hstep
    obtain ⟨hc, hret⟩ := hphase
    simp only at hstep
    split at hstep
    · rename_i hex
      cases hstep
      exact h.mark hc (.inr (.inr ⟨rfl, hret⟩)) hex (habandoned _) nofun
    · rename_i hex
      cases hstep
      exact h.mark hc (.inr (.inr ⟨rfl, hret⟩)) hex hc.acking fun _ => rfl
  | markDead claim =>
    rw [hp] at hphase hstep
    simp only at hstep
    split at hstep
    · rename_i hex
      cases hstep
      exact h.mark hphase (.inr (.inl rfl)) hex (habandoned _) nofun
    · rename_i hex
      cases hstep
      exact h.mark hphase (.inr (.inl rfl)) hex hphase.acking fun _ => rfl
  | complete claim =>
    rw [hp] at hphase hstep
    simp only at hstep
    split at hstep
    · rename_i hex
      cases hstep
      exact h.mark hphase (.inl rfl) hex hphase nofun
    · rename_i hex
      cases hstep
      exact h.mark hphase (.inl rfl) hex hphase.acking fun _ => rfl
  | release claim =>
    rw [hp] at hphase hstep
    have hafter : ∀ (s : Inbox) (p : Phase) (x : Except String Unit),
        PhaseOk st.messages st.dead d.message p → p ≠ .acking →
        execute unavailable c.fault st.inbox (releaseClaim claim st.inbox) = (x, s) →
        Inv ⟨s, st.messages, st.deliveries.set i { d with phase := p }, st.dead⟩ := by
      intro s p x hpok hne hex
      rcases execute_store hex with rfl | ⟨a, hrel⟩
      · exact h.still hpok hne
      · exact h.released hrel hpok hne
    simp only at hstep
    split at hstep
    · rename_i hex
      cases hstep
      exact hafter _ _ _ (habandoned _) nofun hex
    · rename_i hex
      cases hstep
      cases c.heard with
      | false => exact hafter _ _ _ (habandoned _) nofun hex
      | true => exact hafter _ _ _ ⟨m, hm⟩ nofun hex
  | malformed =>
    rw [hp] at hphase hstep
    cases hstep
    exact h.malformed c.publish hphase
  | reject =>
    rw [hp] at hphase hstep
    cases hstep
    have hnext : ∀ (ms : List Message) (dead : List Nat), Grows st.messages ms →
        PhaseOk ms dead d.message (if c.heard then .rejected else .abandoned) := by
      intro ms dead hg
      obtain ⟨m', hm', -⟩ := hg _ m hm
      split <;> exact ⟨m', hm'⟩
    have hne : (if c.heard then Phase.rejected else .abandoned) ≠ .acking := by
      split <;> nofun
    cases c.settles with
    | false => exact h.still (hnext _ _ (.refl _)) hne
    | true => exact h.settled hd (.inr hphase) hmore (hnext _ _ (.settle _ _)) hne
  | acking =>
    rw [hp] at hstep
    cases hstep
    have hnext : ∀ (ms : List Message) (dead : List Nat), Grows st.messages ms →
        PhaseOk ms dead d.message (if c.heard then .acked else .abandoned) := by
      intro ms dead hg
      obtain ⟨m', hm', -⟩ := hg _ m hm
      split <;> exact ⟨m', hm'⟩
    have hne : (if c.heard then Phase.acked else .abandoned) ≠ .acking := by
      split <;> nofun
    cases c.settles with
    | false => exact h.still (hnext _ _ (.refl _)) hne
    | true => exact h.settled hd (.inl hp) (fun _ hx => hx) (hnext _ _ (.settle _ _)) hne
  | acked =>
    rw [hp] at hstep
    cases hstep
  | rejected =>
    rw [hp] at hstep
    cases hstep
  | requeued =>
    rw [hp] at hstep
    cases hstep
  | abandoned =>
    rw [hp] at hstep
    cases hstep

theorem Inv.step {st st' : State} {a : Action} (h : Inv st) (hstep : step st a = some st') :
    Inv st' := by
  cases a with
  | produce m =>
    cases hstep
    exact h.append rfl
      (fun d hd => (h.phases d hd).grows (.append _ _) fun _ hx => hx) fun d hd _ => hd
  | deliver j =>
    simp only [Orders.step] at hstep
    split at hstep
    · cases hstep
    · rename_i m hm
      split at hstep
      · cases hstep
      · cases hstep
        refine h.deliveries rfl (fun d hd => ?_) fun d hd hpa => ?_
        · rcases List.mem_append.mp hd with hd | hd
          · exact h.phases d hd
          · rw [List.mem_singleton.mp hd]
            exact ⟨m, hm⟩
        · rcases List.mem_append.mp hd with hd | hd
          · exact hd
          · rw [List.mem_singleton.mp hd] at hpa
            cases hpa
  | run i c =>
    simp only [Orders.step] at hstep
    split at hstep
    · cases hstep
    · rename_i d hd
      split at hstep
      · cases hstep
      · rename_i m hm
        obtain ⟨o, ho, rfl⟩ := Option.map_eq_some_iff.mp hstep
        exact h.run (List.mem_of_getElem? hd) hm ho
  | crash i =>
    simp only [Orders.step] at hstep
    split at hstep
    · cases hstep
    · rename_i d hd
      cases hstep
      exact h.still (h.phases d (List.mem_of_getElem? hd)).message nofun
  | elapse time =>
    cases hstep
    exact h.deliveries rfl h.phases fun d hd _ => hd

theorem Inv.reach {st₀ st : State} (h₀ : Initial st₀)
    (h : Reach Orders.step (fun _ _ => True) st₀ st) : Inv st :=
  h.invariant (Inv.initial h₀) fun _ _ _ hinv _ hstep => hinv.step hstep

end CommercePlayground.Orders
