/-
CommercePlayground.Catalog.SubscriptionTheorems — what a price stream hands on.

`Passed`: every event in scope up to the number that a reader has reached has been handed
on, since its baseline. `InHand`: an event beyond that number is in the reader's hands, or
something will make it read again. So a reader that has caught up has handed on all of them,
as long as none falls behind (`tenant_changes_handed_once`). For a subscription to one SKU
none does: the lock on its variant puts the commits in the order of their numbers
(`sku_changes_handed_once`).
-/
import CommercePlayground.Catalog.RowTheorems
import CommercePlayground.Catalog.Subscriptions

namespace CommercePlayground.Catalog.Subscriptions

open Lib

/-! ## The journal -/

theorem findVariant_same {db : Database} {c c' : PriceUpdateCommand} {v w : Variant}
    (h : findVariant db c = .ok v) (h' : findVariant db c' = .ok w)
    (htenant : c.tenantId = c'.tenantId) (hsku : c.sku = c'.sku) : v = w := by
  have hfound : ∀ {c : PriceUpdateCommand} {v : Variant}, findVariant db c = .ok v →
      (db.variants.find? fun v => decide (v.tenantId = c.tenantId ∧ v.sku = c.sku)) =
        some v := by
    intro c v h
    unfold findVariant at h
    split at h
    · cases h
    · split at h
      · cases h
      · split at h
        · cases h
        · next found hfind =>
          cases h
          exact hfind
  have hv := hfound h
  rw [htenant, hsku, hfound h'] at hv
  exact (Option.some.inj hv).symm

/-- What the number of an event that is not committed yet says. -/
structure Numbered (db : Database) (tx : Transaction) (e : PriceChangeEvent) : Prop where
  next : e.sequence < db.nextSequence
  positive : 0 < e.sequence
  tenant : e.tenantId = tx.command.tenantId
  sku : e.sku = tx.command.sku
  fresh : ∀ e' ∈ db.events, e'.sequence ≠ e.sequence
  /-- The events of its SKU have committed in order. -/
  inOrder : ∀ e' ∈ db.events, e'.tenantId = e.tenantId → e'.sku = e.sku →
    e'.sequence < e.sequence

structure Journal (db : Database) : Prop where
  unique : KeyUnique PriceChangeEvent.sequence db.events
  next : ∀ e ∈ db.events, e.sequence < db.nextSequence
  positive : 0 < db.nextSequence
  numbered : ∀ (i : Nat) (tx : Transaction) (v : Variant) (p : Price) (e : PriceChangeEvent),
    db.transactions[i]? = some tx → tx.phase.event? = some (v, p, e) → Numbered db tx e
  distinct : ∀ (i j : Nat) (tx tx' : Transaction) (v w : Variant) (p q : Price)
    (e e' : PriceChangeEvent),
    db.transactions[i]? = some tx → db.transactions[j]? = some tx' →
    tx.phase.event? = some (v, p, e) → tx'.phase.event? = some (w, q, e') →
    e.sequence = e'.sequence → i = j

section Journal

variable {db u : Database}

/-- A transaction that writes no event moves on. -/
theorem Journal.setPhase (h : Journal db) {i : Nat} {tx : Transaction} {phase : Catalog.Phase}
    (hi : db.transactions[i]? = some tx)
    (htransactions : u.transactions = (setPhase db i tx phase).transactions)
    (hevents : u.events = db.events) (hnext : u.nextSequence = db.nextSequence)
    (hnone : phase.event? = none) : Journal u := by
  have hold : ∀ (j : Nat) (tx' : Transaction) (v : Variant) (p : Price) (e : PriceChangeEvent),
      u.transactions[j]? = some tx' → tx'.phase.event? = some (v, p, e) →
        db.transactions[j]? = some tx' := by
    intro j tx' v p e hj he
    rw [htransactions] at hj
    rcases setPhase_cases hi hj with ⟨rfl, rfl⟩ | ⟨-, hj⟩
    · rw [hnone] at he
      cases he
    · exact hj
  refine ⟨by rw [hevents]; exact h.unique, ?_, by rw [hnext]; exact h.positive, ?_, ?_⟩
  · rw [hevents, hnext]
    exact h.next
  · intro j tx' v p e hj he
    have hok := h.numbered j tx' v p e (hold j tx' v p e hj he) he
    refine ⟨by rw [hnext]; exact hok.next, hok.positive, hok.tenant, hok.sku, ?_, ?_⟩
    · rw [hevents]
      exact hok.fresh
    · rw [hevents]
      exact hok.inOrder
  · intro j k tx₁ tx₂ v w p q e e' hj hk he he' hsame
    exact h.distinct j k tx₁ tx₂ v w p q e e' (hold j tx₁ v p e hj he)
      (hold k tx₂ w q e' hk he') he he' hsame

/-- An event takes the next number. -/
theorem Journal.record (h : Journal db) {i : Nat} {tx : Transaction} {v : Variant}
    {ids : List Nat} {price : Price} (hi : db.transactions[i]? = some tx) :
    Journal (insertEvent db i tx v ids price) := by
  have hother : ∀ (j : Nat) (tx' : Transaction) (w : Variant) (q : Price)
      (e : PriceChangeEvent), db.transactions[j]? = some tx' →
        tx'.phase.event? = some (w, q, e) → e.sequence ≠ db.nextSequence := by
    intro j tx' w q e hj he
    exact (h.numbered j tx' w q e hj he).next.ne
  refine ⟨h.unique, fun e he => (h.next e he).trans (Nat.lt_succ_self _), Nat.succ_pos _,
    fun j tx' w q e hj he => ?_, fun j k tx₁ tx₂ w w' q q' e e' hj hk he he' hsame => ?_⟩
  · rcases setPhase_cases hi hj with ⟨rfl, rfl⟩ | ⟨-, hj⟩
    · cases he
      exact ⟨Nat.lt_succ_self _, h.positive, rfl, rfl, fun e' he' => (h.next e' he').ne,
        fun e' he' _ _ => h.next e' he'⟩
    · have hok := h.numbered j tx' w q e hj he
      exact ⟨hok.next.trans (Nat.lt_succ_self _), hok.positive, hok.tenant, hok.sku, hok.fresh,
        hok.inOrder⟩
  · rcases setPhase_cases hi hj with ⟨rfl, rfl⟩ | ⟨-, hj'⟩
    · rcases setPhase_cases hi hk with ⟨rfl, rfl⟩ | ⟨-, hk'⟩
      · rfl
      · cases he
        exact absurd hsame.symm (hother k tx₂ w' q' e' hk' he')
    · rcases setPhase_cases hi hk with ⟨rfl, rfl⟩ | ⟨-, hk'⟩
      · cases he'
        exact absurd hsame (hother j tx₁ w q e hj' he)
      · exact h.distinct j k tx₁ tx₂ w w' q q' e e' hj' hk' he he' hsame

/-- A commit: the events of another transaction are of another SKU. -/
theorem Journal.commit (h : Journal db) (hl : Locks db) {i : Nat} {tx : Transaction}
    {v : Variant} {ids : List Nat} {price : Price} {event : PriceChangeEvent}
    (hi : db.transactions[i]? = some tx) (hphase : tx.phase = .recorded v ids price event) :
    Journal (Catalog.commit db i tx ids price event) := by
  have hevent : tx.phase.event? = some (v, price, event) := by
    rw [hphase]
    rfl
  have hnew := h.numbered i tx v price event hi hevent
  refine ⟨KeyUnique.append_singleton h.unique hnew.fresh, fun e he => ?_, h.positive,
    fun j tx' w q e hj he => ?_, fun j k tx₁ tx₂ w w' q q' e e' hj hk he he' hsame => ?_⟩
  · rcases List.mem_append.mp he with he | he
    · exact h.next e he
    · rw [List.mem_singleton.mp he]
      exact hnew.next
  · rcases setPhase_cases hi hj with ⟨rfl, rfl⟩ | ⟨hji, hj'⟩
    · cases he
    · have hok := h.numbered j tx' w q e hj' he
      refine ⟨hok.next, hok.positive, hok.tenant, hok.sku, fun e' he' => ?_,
        fun e' he' htenant hsku => ?_⟩
      · rcases List.mem_append.mp he' with he' | he'
        · exact hok.fresh e' he'
        · rw [List.mem_singleton.mp he']
          exact fun hsame => hji (h.distinct j i tx' tx w v q price e event hj' hi he hevent
            hsame.symm)
      · rcases List.mem_append.mp he' with he' | he'
        · exact hok.inOrder e' he' htenant hsku
        · obtain rfl := List.mem_singleton.mp he'
          have hv := Phase.variant?_of_event hevent
          have hw := Phase.variant?_of_event he
          have hsame := findVariant_same (hl.found j tx' w hj' hw) (hl.found i tx v hi hv)
            (by rw [← hok.tenant, ← htenant, hnew.tenant])
            (by rw [← hok.sku, ← hsku, hnew.sku])
          have hrow : w.sameRow v = true := sameRow_iff.mpr ⟨by rw [hsame], by rw [hsame]⟩
          exact absurd (hl.exclusive j i tx' tx w v hj' hi hw hv hrow) hji
  · rcases setPhase_cases hi hj with ⟨rfl, rfl⟩ | ⟨-, hj'⟩
    · cases he
    · rcases setPhase_cases hi hk with ⟨rfl, rfl⟩ | ⟨-, hk'⟩
      · cases he'
      · exact h.distinct j k tx₁ tx₂ w w' q q' e e' hj' hk' he he' hsame

theorem Journal.step {a : Catalog.Action} (h : Journal db) (hl : Locks db) (hm : Move db a u) :
    Journal u := by
  cases hm with
  | begin haccepted =>
    refine ⟨h.unique, h.next, h.positive, fun i tx v p e hi he => ?_,
      fun i j tx tx' v w p q e e' hi hj he he' hsame => ?_⟩
    · rcases begin_cases hi with rfl | hi
      · cases he
      · have hok := h.numbered i tx v p e hi he
        exact ⟨hok.next, hok.positive, hok.tenant, hok.sku, hok.fresh, hok.inOrder⟩
    · rcases begin_cases hi with rfl | hi
      · cases he
      · rcases begin_cases hj with rfl | hj
        · cases he'
        · exact h.distinct i j tx tx' v w p q e e' hi hj he he' hsame
  | elapse n =>
    refine ⟨h.unique, h.next, h.positive, fun i tx v p e hi he => ?_, h.distinct⟩
    have hok := h.numbered i tx v p e hi he
    exact ⟨hok.next, hok.positive, hok.tenant, hok.sku, hok.fresh, hok.inOrder⟩
  | reject hi => exact h.setPhase hi rfl rfl rfl rfl
  | lock hi => exact h.setPhase hi rfl rfl rfl rfl
  | expire hi => exact h.setPhase hi rfl rfl rfl rfl
  | insert hi => exact h.setPhase hi rfl rfl rfl rfl
  | record hi => exact h.record hi
  | violate hi => exact h.setPhase hi rfl rfl rfl rfl
  | commit hi hphase => exact h.commit hl hi hphase

end Journal

/-! ## Readers -/

/-- The events a reader has read and not passed on. -/
def Phase.events : Phase → List PriceChangeEvent
  | .response events _ => events
  | .handing events _ => events
  | _ => []

/-- Whatever happens, the reader will query the journal again before it waits. -/
def Phase.willQuery : Phase → Bool
  | .response _ received => received
  | .handing _ received => received
  | .waiting => false
  | _ => true

/-- Something will make the reader query the journal again, or its connection is lost. -/
def Reader.Alert (r : Reader) : Prop :=
  r.phase.willQuery = true ∨ 0 < r.pending ∨ r.registered = false

/-- What a reader has passed on, of the events that have committed. -/
structure Passed (shows : PriceChangeEvent → Bool) (events : List PriceChangeEvent)
    (r : Reader) : Prop where
  sorted : r.handed.Pairwise fun a b => a.sequence < b.sequence
  below : ∀ e ∈ r.handed, e.sequence ≤ r.sequence
  sent : r.sent = r.handed.filter fun e => decide (r.service = .catalog) || shows e
  mark : r.sequence = 0 ∨ ∃ e ∈ events, r.covers e = true ∧ e.sequence = r.sequence
  past : ∀ b, r.baseline = some b → b ≤ events.length ∧
    ∀ e ∈ events.take b, r.covers e = true → e.sequence ≤ r.sequence
  only : ∀ b, r.baseline = some b → ∀ e ∈ r.handed,
    e ∈ events.drop b ∧ r.covers e = true
  /-- Nothing has been left out. -/
  kept : ∀ b, r.baseline = some b → ∀ e ∈ events.drop b, r.covers e = true →
    e.sequence ≤ r.sequence → e ∈ r.handed

/-- What a reader has in its hands. -/
structure InHand (events : List PriceChangeEvent) (r : Reader) : Prop where
  hand : ∀ e ∈ r.phase.events, e ∈ events ∧ r.covers e = true
  sorted : r.phase.events.Pairwise fun a b => a.sequence ≤ b.sequence
  /-- Before the baseline nothing has been handed on. -/
  start : r.baseline = none → r.handed = [] ∧
    (r.phase = .baseline ∨ r.phase = .ended ∨ r.phase = .connect ∧ r.service = .storefront)
  first : r.phase = .baseline → r.baseline = none
  complete : ∀ e ∈ events, r.covers e = true → r.sequence < e.sequence →
    e ∈ r.phase.events ∨ r.Alert
  /-- For one SKU, what has not been read is beyond what has. -/
  ordered : ∀ sku, r.sku = some sku → ∀ e ∈ events, r.covers e = true →
    r.sequence < e.sequence →
      e ∈ r.phase.events ∨ ∀ e' ∈ r.phase.events, e'.sequence < e.sequence

structure ReaderOk (shows : PriceChangeEvent → Bool) (events : List PriceChangeEvent)
    (r : Reader) : Prop where
  passed : Passed shows events r
  inHand : InHand events r

section Readers

variable {shows : PriceChangeEvent → Bool} {db : Database} {events : List PriceChangeEvent}
  {r r' : Reader}

theorem Reader.covers_iff {e : PriceChangeEvent} :
    r.covers e = true ↔
      e.tenantId = r.tenantId ∧ ∀ sku, r.sku = some sku → e.sku = sku := by
  simp only [Reader.covers, Bool.and_eq_true, decide_eq_true_eq, Option.all_eq_true]

/-- The phase and the connection say nothing of what has been passed on. -/
theorem Passed.move (h : Passed shows events r) (registered : Bool) (pending : Nat)
    (phase : Phase) :
    Passed shows events { r with registered := registered, pending := pending, phase := phase } :=
  ⟨h.sorted, h.below, h.sent, h.mark, h.past, h.only, h.kept⟩

/-- A phase with nothing in hand, after which the reader will query. -/
theorem InHand.empty (hevents : r.phase.events = []) (hquery : r.phase.willQuery = true)
    (hstart : r.baseline = none → r.handed = [] ∧
      (r.phase = .baseline ∨ r.phase = .ended ∨
        r.phase = .connect ∧ r.service = .storefront))
    (hfirst : r.phase = .baseline → r.baseline = none) : InHand events r := by
  refine ⟨?_, ?_, hstart, hfirst, fun _ _ _ _ => .inr (.inl hquery),
    fun _ _ _ _ _ _ => .inr ?_⟩
  · rw [hevents]
    exact fun e he => absurd he List.not_mem_nil
  · rw [hevents]
    exact .nil
  · rw [hevents]
    exact fun e he => absurd he List.not_mem_nil

/-- A reader whose hands stay as they are, and which is as alert as before. -/
theorem InHand.same (h : InHand events r) (registered : Bool) (pending : Nat) (phase : Phase)
    (hevents : phase.events = r.phase.events) (hstart : r.baseline = none → phase = r.phase)
    (hfirst : phase = .baseline → r.baseline = none)
    (halert : r.Alert → Reader.Alert
      { r with registered := registered, pending := pending, phase := phase }) :
    InHand events { r with registered := registered, pending := pending, phase := phase } := by
  refine ⟨?_, ?_, fun hnone => ?_, hfirst, fun e he hcovers hbeyond => ?_, ?_⟩
  · show ∀ e ∈ phase.events, _
    rw [hevents]
    exact h.hand
  · show phase.events.Pairwise _
    rw [hevents]
    exact h.sorted
  · have hnone : r.baseline = none := hnone
    show r.handed = [] ∧ (phase = _ ∨ phase = _ ∨ phase = _ ∧ _)
    rw [hstart hnone]
    exact h.start hnone
  · show e ∈ phase.events ∨ _
    rw [hevents]
    exact (h.complete e he hcovers hbeyond).imp id halert
  · show ∀ sku, r.sku = some sku → ∀ e ∈ events, r.covers e = true →
      r.sequence < e.sequence → e ∈ phase.events ∨ ∀ e' ∈ phase.events, _
    rw [hevents]
    exact h.ordered

instance : Std.Total fun a b : PriceChangeEvent => a.sequence ≤ b.sequence :=
  ⟨fun a b => Nat.le_total a.sequence b.sequence⟩

instance : IsTrans PriceChangeEvent fun a b => a.sequence ≤ b.sequence :=
  ⟨fun _ _ _ => Nat.le_trans⟩

theorem mem_eventsAfter {e : PriceChangeEvent} : e ∈ eventsAfter db r ↔
    e ∈ db.events ∧ r.covers e = true ∧ r.sequence < e.sequence := by
  unfold eventsAfter
  rw [List.mem_insertionSort, List.mem_filter, Bool.and_eq_true, decide_eq_true_eq]

theorem eventsAfter_sorted :
    (eventsAfter db r).Pairwise fun a b => a.sequence ≤ b.sequence :=
  List.pairwise_insertionSort _ _

/-- The query finds everything beyond the number reached. -/
theorem InHand.read (hbaseline : r.baseline ≠ none) (received : Bool) :
    InHand db.events { r with phase := .response (eventsAfter db r) received } := by
  refine ⟨fun e he => ?_, eventsAfter_sorted, fun hnone => absurd hnone hbaseline, nofun,
    fun e he hcovers hbeyond => .inl (mem_eventsAfter.mpr ⟨he, hcovers, hbeyond⟩),
    fun _ _ e he hcovers hbeyond => .inl (mem_eventsAfter.mpr ⟨he, hcovers, hbeyond⟩)⟩
  obtain ⟨hmem, hcovers, -⟩ := mem_eventsAfter.mp he
  exact ⟨hmem, hcovers⟩

/-- The first event of those in hand is done with: the others stay. -/
theorem InHand.tail (h : InHand events r) {e : PriceChangeEvent} {rest : List PriceChangeEvent}
    {received : Bool} (hphase : r.phase = .handing (e :: rest) received)
    (hbaseline : r'.baseline ≠ none) (hphase' : r'.phase = .handing rest received)
    (hcovers : ∀ e', r'.covers e' = r.covers e') (hsku : r'.sku = r.sku)
    (hpending : r'.pending = r.pending) (hregistered : r'.registered = r.registered)
    (hmark : r.sequence ≤ r'.sequence) (hpassed : e.sequence ≤ r'.sequence) :
    InHand events r' := by
  have hevents : r.phase.events = e :: rest := by
    rw [hphase]
    rfl
  have hevents' : r'.phase.events = rest := by
    rw [hphase']
    rfl
  have halert : r.Alert → r'.Alert := by
    unfold Reader.Alert
    rw [hphase, hphase', hpending, hregistered]
    exact id
  have hne : ∀ e', r'.sequence < e'.sequence → e' ≠ e := by
    rintro e' hbeyond rfl
    omega
  refine ⟨fun e' he' => ?_, ?_, fun hnone => absurd hnone hbaseline,
    (fun hb => by rw [hphase'] at hb; cases hb), fun e' he' hc hbeyond => ?_,
    fun sku hs e' he' hc hbeyond => ?_⟩
  · rw [hcovers]
    rw [hevents'] at he'
    exact h.hand e' (by rw [hevents]; exact List.mem_cons_of_mem _ he')
  · have hsorted := h.sorted
    rw [hevents] at hsorted
    rw [hevents']
    exact (List.pairwise_cons.mp hsorted).2
  · rw [hcovers] at hc
    rw [hevents']
    refine (h.complete e' he' hc (Nat.lt_of_le_of_lt hmark hbeyond)).imp (fun hin => ?_) halert
    rw [hevents] at hin
    exact List.mem_of_ne_of_mem (hne e' hbeyond) hin
  · rw [hcovers] at hc
    rw [hevents']
    rcases h.ordered sku (hsku ▸ hs) e' he' hc (Nat.lt_of_le_of_lt hmark hbeyond) with
      hin | hall
    · rw [hevents] at hin
      exact .inl (List.mem_of_ne_of_mem (hne e' hbeyond) hin)
    · rw [hevents] at hall
      exact .inr fun e'' he'' => hall e'' (List.mem_cons_of_mem _ he'')

/-- Only a captured baseline lets a reader get beyond the first phases. -/
theorem InHand.captured (h : InHand events r) (hconnect : r.phase ≠ .connect)
    (hbaseline : r.phase ≠ .baseline) (hended : r.phase ≠ .ended) : r.baseline ≠ none := by
  intro hnone
  rcases (h.start hnone).2 with hphase | hphase | ⟨hphase, -⟩
  · exact hbaseline hphase
  · exact hended hphase
  · exact hconnect hphase

theorem latestSequence_spec : (latestSequence db r = 0 ∨ ∃ e ∈ db.events,
      r.covers e = true ∧ e.sequence = latestSequence db r) ∧
    ∀ e ∈ db.events, r.covers e = true → e.sequence ≤ latestSequence db r := by
  unfold latestSequence
  constructor
  · rcases foldr_max_mem ((db.events.filter r.covers).map PriceChangeEvent.sequence) with
      hzero | hmem
    · exact .inl hzero
    · obtain ⟨e, he, hsequence⟩ := List.mem_map.mp hmem
      obtain ⟨he, hcovers⟩ := List.mem_filter.mp he
      exact .inr ⟨e, he, hcovers, hsequence⟩
  · intro e he hcovers
    exact le_foldr_max (List.mem_map_of_mem (List.mem_filter.mpr ⟨he, hcovers⟩))

theorem ReaderOk.restart (h : ReaderOk shows events r) : ReaderOk shows events r.restart := by
  have hphase : r.restart.phase = .baseline ∧ r.service = .catalog ∧ r.baseline = none ∨
      r.restart.phase = .connect ∧ (r.baseline = none → r.service = .storefront) := by
    unfold Reader.restart
    split
    · next hfirst => exact .inl ⟨rfl, hfirst⟩
    · next hlater =>
      refine .inr ⟨rfl, fun hnone => ?_⟩
      cases hservice : r.service with
      | storefront => rfl
      | catalog => exact absurd ⟨hservice, hnone⟩ hlater
  refine ⟨h.passed.move _ _ _, ?_⟩
  rcases hphase with ⟨hphase, -, hnone⟩ | ⟨hphase, hservice⟩
  · exact .empty (by rw [hphase]; rfl) (by rw [hphase]; rfl)
      (fun _ => ⟨(h.inHand.start hnone).1, .inl hphase⟩) fun _ => hnone
  · refine .empty (by rw [hphase]; rfl) (by rw [hphase]; rfl) (fun hb => ?_)
      fun hb => by rw [hphase] at hb; cases hb
    exact ⟨(h.inHand.start hb).1, .inr (.inr ⟨hphase, hservice hb⟩)⟩

/-- The baseline: nothing in scope has a larger number. -/
theorem ReaderOk.baseline (h : ReaderOk shows db.events r) (hphase : r.phase = .baseline)
    (phase : Phase) (hevents : phase.events = []) (hquery : phase.willQuery = true)
    (hlater : phase ≠ .baseline) :
    ReaderOk shows db.events
      { r with
        sequence := latestSequence db r
        baseline := some db.events.length
        phase := phase } := by
  obtain ⟨hmark, hlatest⟩ : (latestSequence db r = 0 ∨ ∃ e ∈ db.events,
      r.covers e = true ∧ e.sequence = latestSequence db r) ∧
      ∀ e ∈ db.events, r.covers e = true → e.sequence ≤ latestSequence db r :=
    latestSequence_spec
  have hnothing : r.handed = [] := (h.inHand.start (h.inHand.first hphase)).1
  have hnone : ∀ e ∈ r.handed, False := by
    rw [hnothing]
    exact fun e he => absurd he List.not_mem_nil
  refine ⟨⟨h.passed.sorted, fun e he => (hnone e he).elim, h.passed.sent, hmark,
    fun b hb => ?_, fun b hb e he => (hnone e he).elim, fun b hb e he => ?_⟩,
    .empty hevents hquery nofun fun hb => absurd hb hlater⟩
  · cases hb
    exact ⟨le_rfl, fun e he hcovers => hlatest e (List.mem_of_mem_take he) hcovers⟩
  · cases hb
    rw [List.drop_length] at he
    cases he

/-- An event is passed on that leaves no other behind. -/
theorem ReaderOk.handOn (h : ReaderOk shows db.events r)
    (hunique : KeyUnique PriceChangeEvent.sequence db.events) {e : PriceChangeEvent}
    {rest : List PriceChangeEvent} {received : Bool}
    (hphase : r.phase = .handing (e :: rest) received) (hnew : r.sequence < e.sequence)
    (hbehind : ∀ e' ∈ db.events, r.covers e' = true → r.sequence < e'.sequence →
      e.sequence ≤ e'.sequence) :
    ReaderOk shows db.events (r.handOn shows e rest received) := by
  have hcaptured : r.baseline ≠ none :=
    h.inHand.captured (by rw [hphase]; nofun) (by rw [hphase]; nofun) (by rw [hphase]; nofun)
  obtain ⟨hmem, hcovers⟩ := h.inHand.hand e (by rw [hphase]; exact List.mem_cons_self)
  refine ⟨⟨?_, fun e' he' => ?_, ?_, .inr ⟨e, hmem, hcovers, rfl⟩, fun b hb => ?_,
    fun b hb e' he' => ?_, fun b hb e' he' hc hle => ?_⟩,
    h.inHand.tail hphase hcaptured rfl (fun _ => rfl) rfl rfl rfl hnew.le le_rfl⟩
  · refine List.pairwise_append.mpr ⟨h.passed.sorted, List.pairwise_singleton _ _, ?_⟩
    intro a ha b hb
    rw [List.mem_singleton.mp hb]
    exact (h.passed.below a ha).trans_lt hnew
  · rcases List.mem_append.mp he' with he' | he'
    · exact (h.passed.below e' he').trans hnew.le
    · rw [List.mem_singleton.mp he']
      exact le_rfl
  · show (if decide (r.service = .catalog) || shows e then r.sent ++ [e] else r.sent) =
      (r.handed ++ [e]).filter fun e => decide (r.service = .catalog) || shows e
    rw [List.filter_append, List.filter_singleton, ← h.passed.sent]
    cases decide (r.service = .catalog) || shows e with
    | true => rfl
    | false => exact (List.append_nil _).symm
  · obtain ⟨hlength, hpast⟩ := h.passed.past b hb
    exact ⟨hlength, fun e' he' hc => (hpast e' he' hc).trans hnew.le⟩
  · rcases List.mem_append.mp he' with he' | he'
    · exact h.passed.only b hb e' he'
    · rw [List.mem_singleton.mp he']
      refine ⟨?_, hcovers⟩
      -- it is beyond the number reached, and so from after the baseline
      rw [← List.take_append_drop b db.events] at hmem
      rcases List.mem_append.mp hmem with hold | hlate
      · exact absurd ((h.passed.past b hb).2 e hold hcovers) (not_le.mpr hnew)
      · exact hlate
  · by_cases hold : e'.sequence ≤ r.sequence
    · exact List.mem_append_left _ (h.passed.kept b hb e' he' hc hold)
    · have hmem' := List.mem_of_mem_drop he'
      have hge := hbehind e' hmem' hc (not_le.mp hold)
      have hsame := hunique.eq_of_mem hmem' hmem (le_antisymm hle hge)
      exact List.mem_append_right _ (List.mem_singleton.mpr hsame)

/-- A reader of one SKU leaves nothing behind. -/
theorem InHand.notBehind (h : InHand events r) {sku : Text} (hsku : r.sku = some sku)
    {e : PriceChangeEvent} {rest : List PriceChangeEvent} {received : Bool}
    (hphase : r.phase = .handing (e :: rest) received) :
    ∀ e' ∈ events, r.covers e' = true → r.sequence < e'.sequence →
      e.sequence ≤ e'.sequence := by
  intro e' he' hcovers hbeyond
  have hevents : r.phase.events = e :: rest := by
    rw [hphase]
    rfl
  have hsorted := h.sorted
  rw [hevents] at hsorted
  rcases h.ordered sku hsku e' he' hcovers hbeyond with hin | hall
  · rw [hevents] at hin
    rcases List.mem_cons.mp hin with rfl | hin
    · exact le_rfl
    · exact (List.pairwise_cons.mp hsorted).1 e' hin
  · exact (hall e (by rw [hevents]; exact List.mem_cons_self)).le

theorem ReaderOk.proceed (h : ReaderOk shows db.events r)
    (hunique : KeyUnique PriceChangeEvent.sequence db.events)
    (hbehind : ∀ e rest received, r.phase = .handing (e :: rest) received →
      ∀ e' ∈ db.events, r.covers e' = true → r.sequence < e'.sequence →
        e.sequence ≤ e'.sequence)
    (hs : r.proceed shows db = some r') : ReaderOk shows db.events r' := by
  have hcaptured := h.inHand.captured
  unfold Reader.proceed at hs
  split at hs
  · next hphase =>
    cases hs
    refine ⟨h.passed.move _ _ _, ?_⟩
    split
    · next hfirst =>
      exact .empty rfl rfl (fun hnone => ⟨(h.inHand.start hnone).1, .inl rfl⟩)
        fun _ => hfirst.2
    · next hlater =>
      refine .empty rfl rfl (fun hnone => ?_) nofun
      rcases (h.inHand.start hnone).2 with hb | hb | ⟨-, hservice⟩
      · rw [hphase] at hb
        cases hb
      · rw [hphase] at hb
        cases hb
      · exact absurd ⟨hservice, hnone⟩ hlater
  · next hphase =>
    split at hs
    · cases hs
      exact h.baseline hphase _ (by cases r.service <;> rfl) (by cases r.service <;> rfl)
        (by cases r.service <;> simp)
    · cases hs
  · next received hphase =>
    split at hs
    · cases hs
      refine ⟨h.passed.move _ _ _, .read ?_ received⟩
      exact hcaptured (by rw [hphase]; nofun) (by rw [hphase]; nofun) (by rw [hphase]; nofun)
    · cases hs
  · next inHand received hphase =>
    split at hs
    · cases hs
      have hb := hcaptured (by rw [hphase]; nofun) (by rw [hphase]; nofun) (by rw [hphase]; nofun)
      refine ⟨h.passed.move _ _ _, h.inHand.same _ _ _ (by rw [hphase]; rfl)
        (fun hnone => absurd hnone hb) nofun ?_⟩
      unfold Reader.Alert
      rw [hphase]
      exact id
    · cases hs
  · next received hphase =>
    cases hs
    have hb := hcaptured (by rw [hphase]; nofun) (by rw [hphase]; nofun) (by rw [hphase]; nofun)
    refine ⟨h.passed.move _ _ _, ?_⟩
    cases received with
    | true => exact .empty rfl rfl (fun hnone => absurd hnone hb) nofun
    | false =>
      refine h.inHand.same _ _ _ (by rw [hphase]; rfl) (fun hnone => absurd hnone hb) nofun ?_
      unfold Reader.Alert
      rw [hphase]
      exact id
  · next e rest received hphase =>
    split at hs
    · next hold =>
      cases hs
      have hb := hcaptured (by rw [hphase]; nofun) (by rw [hphase]; nofun) (by rw [hphase]; nofun)
      exact ⟨h.passed.move _ _ _, h.inHand.tail hphase hb rfl (fun _ => rfl) rfl rfl rfl le_rfl
        hold⟩
    · next hnew =>
      cases hs
      exact h.handOn hunique hphase (not_le.mp hnew) (hbehind e rest received hphase)
  · cases hs
  · cases hs

theorem ReaderOk.poll (h : ReaderOk shows events r) {n : Nat} (hs : r.poll n = some r') :
    ReaderOk shows events r' := by
  have hcaptured := h.inHand.captured
  unfold Reader.poll at hs
  split at hs
  · cases hs
  · split at hs
    · next hphase =>
      cases hs
      have hb := hcaptured (by rw [hphase]; nofun) (by rw [hphase]; nofun) (by rw [hphase]; nofun)
      exact ⟨h.passed.move _ _ _, .empty rfl rfl (fun hnone => absurd hnone hb) nofun⟩
    · next hservice hphase =>
      cases hs
      exact ⟨h.passed.move _ _ _, .empty (by rw [hphase]; rfl) (by rw [hphase]; rfl)
        h.inHand.start h.inHand.first⟩
    · next received hservice hphase =>
      cases hs
      have hb := hcaptured (by rw [hphase]; nofun) (by rw [hphase]; nofun) (by rw [hphase]; nofun)
      exact ⟨h.passed.move _ _ _, .empty rfl rfl (fun hnone => absurd hnone hb) nofun⟩
    · next inHand received hservice hphase =>
      cases hs
      have hb := hcaptured (by rw [hphase]; nofun) (by rw [hphase]; nofun) (by rw [hphase]; nofun)
      exact ⟨h.passed.move _ _ _, h.inHand.same _ _ _ (by rw [hphase]; rfl)
        (fun hnone => absurd hnone hb) nofun fun _ => .inl rfl⟩
    · cases hs

theorem ReaderOk.fail (h : ReaderOk shows events r) (hs : r.fail = some r') :
    ReaderOk shows events r' := by
  unfold Reader.fail at hs
  split at hs
  · cases hs
  · split at hs
    · cases hs
      exact h.restart
    · cases hs
  · cases hs
  · cases hs
    exact h.restart

theorem ReaderOk.step (h : ReaderOk shows db.events r)
    (hunique : KeyUnique PriceChangeEvent.sequence db.events) {a : ReaderAction}
    (hbehind : a = .proceed → ∀ e rest received, r.phase = .handing (e :: rest) received →
      ∀ e' ∈ db.events, r.covers e' = true → r.sequence < e'.sequence →
        e.sequence ≤ e'.sequence)
    (hs : r.step shows db a = some r') : ReaderOk shows db.events r' := by
  cases a with
  | proceed => exact h.proceed hunique (hbehind rfl) hs
  | poll n => exact h.poll hs
  | fail => exact h.fail hs
  | lose =>
    cases hs
    exact ⟨h.passed.move _ _ _, h.inHand.same _ _ _ rfl (fun _ => rfl) h.inHand.first
      fun _ => .inr (.inr rfl)⟩
  | cancel =>
    cases hs
    exact ⟨h.passed.move _ _ _, .empty rfl rfl
      (fun hnone => ⟨(h.inHand.start hnone).1, .inr (.inl rfl)⟩) nofun⟩

/-- An event commits beyond the number reached, and the reader is notified. -/
theorem ReaderOk.notify (h : ReaderOk shows events r) {event : PriceChangeEvent}
    (hmark : r.baseline.isSome = true → r.covers event = true → r.sequence < event.sequence)
    (horder : ∀ sku, r.sku = some sku → r.covers event = true →
      ∀ e ∈ events, r.covers e = true → e.sequence < event.sequence) :
    ReaderOk shows (events ++ [event]) r.notify := by
  have hpassed : Passed shows (events ++ [event]) r := by
    refine ⟨h.passed.sorted, h.passed.below, h.passed.sent, ?_, fun b hb => ?_,
      fun b hb e he => ?_, fun b hb e he hc hle => ?_⟩
    · refine h.passed.mark.imp id ?_
      rintro ⟨e, he, hc, hsequence⟩
      exact ⟨e, List.mem_append_left _ he, hc, hsequence⟩
    · obtain ⟨hlength, hpast⟩ := h.passed.past b hb
      rw [List.take_append_of_le_length hlength, List.length_append]
      exact ⟨hlength.trans (Nat.le_add_right _ _), hpast⟩
    · obtain ⟨hmem, hc⟩ := h.passed.only b hb e he
      rw [List.drop_append_of_le_length (h.passed.past b hb).1]
      exact ⟨List.mem_append_left _ hmem, hc⟩
    · rw [List.drop_append_of_le_length (h.passed.past b hb).1] at he
      rcases List.mem_append.mp he with he | he
      · exact h.passed.kept b hb e he hc hle
      · rw [List.mem_singleton.mp he] at hc hle
        exact absurd (hmark (by rw [hb]; rfl) hc) (not_lt.mpr hle)
  have hinHand : InHand (events ++ [event]) r.notify := by
    have halert : r.notify.Alert := by
      unfold Reader.notify
      split
      · exact .inr (.inl (Nat.succ_pos _))
      · next hdown => exact .inr (.inr (by simpa using hdown))
    have hphase : r.notify.phase = r.phase := by
      unfold Reader.notify
      split <;> rfl
    have hsame : r.notify.covers = r.covers ∧ r.notify.sequence = r.sequence ∧
        r.notify.baseline = r.baseline ∧ r.notify.handed = r.handed ∧
          r.notify.service = r.service ∧ r.notify.sku = r.sku := by
      unfold Reader.notify
      split <;> exact ⟨rfl, rfl, rfl, rfl, rfl, rfl⟩
    obtain ⟨hcovers, hsequence, hbaseline, hhanded, hservice, hsku⟩ := hsame
    refine ⟨fun e he => ?_, by rw [hphase]; exact h.inHand.sorted, ?_, ?_,
      fun _ _ _ _ => .inr halert, fun sku hs e he hc hbeyond => ?_⟩
    · rw [hphase] at he
      obtain ⟨hmem, hc⟩ := h.inHand.hand e he
      exact ⟨List.mem_append_left _ hmem, by rw [hcovers]; exact hc⟩
    · rw [hbaseline, hhanded, hphase, hservice]
      exact h.inHand.start
    · rw [hphase, hbaseline]
      exact h.inHand.first
    · rw [hsku] at hs
      rw [hcovers] at hc
      rw [hsequence] at hbeyond
      rw [hphase]
      rcases List.mem_append.mp he with he | he
      · exact h.inHand.ordered sku hs e he hc hbeyond
      · rw [List.mem_singleton.mp he] at hc ⊢
        refine .inr fun e' he' => ?_
        obtain ⟨hmem, hc'⟩ := h.inHand.hand e' he'
        exact horder sku hs hc e' hmem hc'
  refine ⟨?_, hinHand⟩
  unfold Reader.notify
  split
  · exact hpassed.move _ _ _
  · exact hpassed

theorem Reader.notify_sku (r : Reader) : r.notify.sku = r.sku := by
  unfold Reader.notify
  split <;> rfl

theorem Reader.step_sku {a : ReaderAction} (hs : r.step shows db a = some r') :
    r'.sku = r.sku := by
  cases a with
  | proceed =>
    simp only [Reader.step, Reader.proceed] at hs
    (repeat' split at hs) <;> cases hs <;> rfl
  | poll n =>
    simp only [Reader.step, Reader.poll] at hs
    (repeat' split at hs) <;> cases hs <;> rfl
  | fail =>
    simp only [Reader.step, Reader.fail] at hs
    (repeat' split at hs) <;> cases hs <;> rfl
  | lose =>
    cases hs
    rfl
  | cancel =>
    cases hs
    rfl

end Readers

/-! ## Whole runs -/

/-- What holds of the subscriptions with these filters. -/
structure Inv (filters : Option Text → Prop) (shows : PriceChangeEvent → Bool) (s : State) :
    Prop where
  locks : Locks s.db
  journal : Journal s.db
  readers : ∀ r ∈ s.readers, filters r.sku → ReaderOk shows s.db.events r

section Steps

variable {filters : Option Text → Prop} {shows : PriceChangeEvent → Bool} {s s' : State}

theorem readerOk_subscription (events : List PriceChangeEvent) (service : Service)
    (tenantId : Text) (sku : Option Text) :
    ReaderOk shows events (subscription service tenantId sku) := by
  refine ⟨⟨.nil, nofun, rfl, .inl rfl, nofun, nofun, nofun⟩, ?_⟩
  cases service with
  | storefront => exact .empty rfl rfl (fun _ => ⟨rfl, .inr (.inr ⟨rfl, rfl⟩)⟩) nofun
  | catalog => exact .empty rfl rfl (fun _ => ⟨rfl, .inl rfl⟩) fun _ => rfl

/-- A commit, and the notifications that go with it. -/
theorem Inv.commit (h : Inv filters shows s) {i : Nat} {tx : Transaction} {v : Variant}
    {ids : List Nat} {price : Price} {event : PriceChangeEvent}
    (hi : s.db.transactions[i]? = some tx) (hphase : tx.phase = .recorded v ids price event)
    (hbehind : filters none → FallsBehindNone s (.price (.statement i))) :
    ∀ r ∈ s.readers, filters r.sku → ReaderOk shows (s.db.events ++ [event]) r.notify := by
  have hnumbered := h.journal.numbered i tx v price event hi (by rw [hphase]; rfl)
  intro r hr hfilter
  have hok := h.readers r hr hfilter
  have horder : ∀ sku, r.sku = some sku → r.covers event = true →
      ∀ e ∈ s.db.events, r.covers e = true → e.sequence < event.sequence := by
    intro sku hsku hc e he hc'
    obtain ⟨htenant, hskus⟩ := Reader.covers_iff.mp hc
    obtain ⟨htenant', hskus'⟩ := Reader.covers_iff.mp hc'
    exact hnumbered.inOrder e he (by rw [htenant, htenant'])
      (by rw [hskus sku hsku, hskus' sku hsku])
  refine hok.notify (fun hbaseline hc => ?_) horder
  cases hsku : r.sku with
  | none =>
    exact hbehind (hsku ▸ hfilter) tx v ids price event hi hphase r hr hsku hbaseline hc
  | some sku =>
    rcases hok.passed.mark with hzero | ⟨e, he, hc', hsequence⟩
    · rw [hzero]
      exact hnumbered.positive
    · rw [← hsequence]
      exact horder sku hsku hc e he hc'

theorem Inv.price (h : Inv filters shows s) {a : Catalog.Action} {db : Database}
    (hm : Move s.db a db)
    (hbehind : filters none → FallsBehindNone s (.price a)) :
    Inv filters shows ⟨db, if db.events.length = s.db.events.length then s.readers
      else s.readers.map Reader.notify⟩ := by
  refine ⟨h.locks.step hm, h.journal.step h.locks hm, ?_⟩
  have hkeep : db.events = s.db.events →
      ∀ r ∈ (if db.events.length = s.db.events.length then s.readers
        else s.readers.map Reader.notify), filters r.sku →
          ReaderOk shows db.events r := by
    intro hevents
    rw [hevents, if_pos rfl]
    exact h.readers
  cases hm with
  | @commit i tx v ids price event hi hphase =>
    have hlonger : ¬ (s.db.events ++ [event]).length = s.db.events.length := by simp
    show ∀ r ∈ (if (s.db.events ++ [event]).length = s.db.events.length then s.readers
      else s.readers.map Reader.notify), filters r.sku →
        ReaderOk shows (s.db.events ++ [event]) r
    rw [if_neg hlonger]
    intro r hr hfilter
    obtain ⟨q, hq, rfl⟩ := List.mem_map.mp hr
    exact h.commit hi hphase hbehind q hq (q.notify_sku ▸ hfilter)
  | begin => exact hkeep rfl
  | elapse => exact hkeep rfl
  | reject => exact hkeep rfl
  | lock => exact hkeep rfl
  | expire => exact hkeep rfl
  | insert => exact hkeep rfl
  | record => exact hkeep rfl
  | violate => exact hkeep rfl

theorem Inv.read (h : Inv filters shows s) {i : Nat} {r r' : Reader} {a : ReaderAction}
    (hi : s.readers[i]? = some r) (hbehind : filters none → FallsBehindNone s (.read i a))
    (hs : r.step shows s.db a = some r') :
    Inv filters shows { s with readers := s.readers.set i r' } := by
  refine ⟨h.locks, h.journal, fun q hq hfilter => ?_⟩
  rcases List.mem_or_eq_of_mem_set hq with hold | rfl
  · exact h.readers q hold hfilter
  · rw [Reader.step_sku hs] at hfilter
    have hok := h.readers r (List.mem_of_getElem? hi) hfilter
    refine hok.step h.journal.unique (fun ha e rest received hphase => ?_) hs
    subst ha
    cases hsku : r.sku with
    | none => exact hbehind (hsku ▸ hfilter) r e rest received hi hsku hphase
    | some sku => exact hok.inHand.notBehind hsku hphase

theorem Inv.step (h : Inv filters shows s) {a : Action}
    (hbehind : filters none → FallsBehindNone s a)
    (hs : step shows s a = some s') : Inv filters shows s' := by
  cases a with
  | price action =>
    obtain ⟨db, hstep, rfl⟩ := Option.map_eq_some_iff.mp hs
    exact h.price (move_of_step hstep) hbehind
  | subscribe service tenantId sku =>
    cases hs
    refine ⟨h.locks, h.journal, fun r hr hfilter => ?_⟩
    rcases List.mem_append.mp hr with hr | hr
    · exact h.readers r hr hfilter
    · rw [List.mem_singleton.mp hr]
      exact readerOk_subscription _ service tenantId sku
  | read i action =>
    obtain ⟨r, hi, hs⟩ := Option.bind_eq_some_iff.mp hs
    obtain ⟨r', hstep, rfl⟩ := Option.map_eq_some_iff.mp hs
    exact h.read hi hbehind hstep

theorem Inv.initial (h : Initial s) : Inv filters shows s := by
  have htransactions : ∀ (i : Nat) (tx : Transaction), s.db.transactions[i]? ≠ some tx := by
    rw [h.transactions]
    simp
  refine ⟨⟨?_, ?_⟩, ⟨h.unique, h.next, h.positive, ?_, ?_⟩, ?_⟩
  · exact fun i _ tx _ _ _ hi => absurd hi (htransactions i tx)
  · exact fun i tx _ hi => absurd hi (htransactions i tx)
  · exact fun i tx _ _ _ hi => absurd hi (htransactions i tx)
  · exact fun i _ tx _ _ _ _ _ _ _ hi => absurd hi (htransactions i tx)
  · rw [h.readers]
    exact fun r hr => absurd hr List.not_mem_nil

end Steps

/-- What a subscription promises: the events it has passed on came in increasing order, none
of them twice and none from before the baseline; the ones it has sent are those whose product
is shown; and a reader that has caught up has passed on every event in its scope that has
committed since. -/
structure Delivers (shows : PriceChangeEvent → Bool) (events : List PriceChangeEvent)
    (r : Reader) : Prop where
  increasing : r.handed.Pairwise fun a b => a.sequence < b.sequence
  scope : ∀ b, r.baseline = some b → ∀ e ∈ r.handed,
    e ∈ events.drop b ∧ r.covers e = true
  sent : r.sent = r.handed.filter fun e => decide (r.service = .catalog) || shows e
  once : r.CaughtUp → ∀ b, r.baseline = some b → ∀ e ∈ events.drop b,
    r.covers e = true → r.handed.count e = 1

theorem ReaderOk.delivers {shows : PriceChangeEvent → Bool} {events : List PriceChangeEvent}
    {r : Reader} (h : ReaderOk shows events r) : Delivers shows events r := by
  refine ⟨h.passed.sorted, h.passed.only, h.passed.sent, fun hup b hb e he hc => ?_⟩
  obtain ⟨hphase, hregistered, hpending⟩ := hup
  have hreached : e.sequence ≤ r.sequence := by
    by_contra hbeyond
    rcases h.inHand.complete e (List.mem_of_mem_drop he) hc (not_le.mp hbeyond) with
      hin | hquery | hsome | hdown
    · rw [hphase] at hin
      cases hin
    · rw [hphase] at hquery
      cases hquery
    · omega
    · rw [hregistered] at hdown
      cases hdown
  have hnodup : r.handed.Nodup := h.passed.sorted.imp fun hlt heq => by
    rw [heq] at hlt
    exact absurd hlt (lt_irrefl _)
  exact List.count_eq_one_of_mem hnodup (h.passed.kept b hb e he hc hreached)

/-- In every run, a subscription to one SKU delivers what it promises. -/
theorem sku_changes_handed_once {shows : PriceChangeEvent → Bool} {s₀ s : State}
    (h₀ : Initial s₀) (h : Reach (step shows) (fun _ _ => True) s₀ s) :
    ∀ r ∈ s.readers, r.sku.isSome = true → Delivers shows s.db.events r := by
  have hinv : Inv (fun sku => sku.isSome = true) shows s :=
    h.invariant (Inv.initial h₀) fun _ _ _ hi _ hs => hi.step nofun hs
  exact fun r hr hsku => (hinv.readers r hr hsku).delivers

def lampVariant (sku : String) : Variant :=
  ⟨"acme".toList, sku.toList, "p".toList, sku.toList⟩

def lampPrice (id : Nat) (sku : String) : Price :=
  ⟨id, "acme".toList, sku.toList, "USD".toList, 100, none, 1, none, true⟩

/-- Two SKUs of one tenant. -/
def lamps : Database where
  now := 5
  tenants := [⟨"acme".toList, "USD".toList⟩]
  variants := [lampVariant "a", lampVariant "b"]
  prices := [lampPrice 0 "a", lampPrice 1 "b"]
  events := []
  nextSequence := 1
  nextPrice := 2
  transactions := []

def lampStart : State := ⟨lamps, []⟩

theorem lampStart_initial : Initial lampStart where
  readers := rfl
  transactions := rfl
  unique := List.nodup_nil
  next := nofun
  positive := Nat.one_pos

def lampUpdate (sku : String) : Action :=
  .price (.begin ⟨"acme".toList, sku.toList, "USD".toList, 200, none⟩)

def statements (transaction n : Nat) : List Action :=
  List.replicate n (.price (.statement transaction))

def proceeds (reader n : Nat) : List Action := List.replicate n (.read reader .proceed)

/-- Both services subscribe, each with the filter, and get ready. -/
def subscribed (sku : Option Text) : List Action :=
  [.subscribe .storefront "acme".toList sku, .subscribe .catalog "acme".toList sku] ++
    proceeds 0 5 ++ proceeds 1 5

/-- Both read what is new, and wait. -/
def bothRead (events : Nat) : List Action :=
  [.read 0 (.poll 1)] ++ proceeds 0 (3 + events) ++ [.read 1 (.poll 1)] ++ proceeds 1 (3 + events)

def inOrderRun (sku : Option Text) : List Action :=
  subscribed sku ++ [lampUpdate "a"] ++ statements 0 5 ++ bothRead 1

/-- The update of `a` takes its number before that of `b` and commits after it. -/
def lateRun : List Action :=
  subscribed none ++ [lampUpdate "a"] ++ statements 0 4 ++ [lampUpdate "b"] ++ statements 1 5 ++
    bothRead 1 ++ statements 0 1 ++ bothRead 0

def shown (_ : PriceChangeEvent) : Bool := true

/-- The condition, where the reader passes nothing that it has not read. -/
def behindNone (s : State) : Action → Bool
  | .price (.statement i) => (s.db.transactions[i]?).all fun tx =>
    tx.phase.event?.all fun p => s.readers.all fun r =>
      !r.covers p.2.2 || decide (r.sequence < p.2.2.sequence)
  | .read i _ => (s.readers[i]?).all fun r =>
    (r.phase.events.head?).all fun e => s.db.events.all fun e' =>
      !r.covers e' || decide (e'.sequence ≤ r.sequence ∨ e.sequence ≤ e'.sequence)
  | _ => true

theorem fallsBehindNone_of_behindNone {s : State} {a : Action} (h : behindNone s a = true) :
    FallsBehindNone s a := by
  cases a with
  | price action =>
    cases action with
    | statement i =>
      intro tx v ids price event hi hphase r hr _ _ hc
      simp only [behindNone, hi, Option.all_some, hphase, Catalog.Phase.event?, List.all_eq_true,
        Bool.or_eq_true, Bool.not_eq_true', decide_eq_true_eq] at h
      rcases h r hr with hout | hlt
      · rw [hc] at hout
        cases hout
      · exact hlt
    | begin | elapse => trivial
  | subscribe => trivial
  | read i action =>
    cases action with
    | proceed =>
      intro r e rest received hi _ hphase e' he' hc hbeyond
      simp only [behindNone, hi, Option.all_some, hphase, Phase.events, List.head?_cons,
        List.all_eq_true, Bool.or_eq_true, Bool.not_eq_true', decide_eq_true_eq] at h
      rcases h e' he' with hout | hle | hle
      · rw [hc] at hout
        cases hout
      · omega
      · exact hle
    | poll | fail | lose | cancel => trivial

def after (ok : State → Action → Bool) (actions : List Action) : State :=
  (runWhere (step shown) ok lampStart actions).getD lampStart

theorem after_reached {ok : State → Action → Bool} {actions : List Action}
    (h : (runWhere (step shown) ok lampStart actions).isSome = true) :
    Reach (step shown) (fun s a => ok s a = true) lampStart (after ok actions) := by
  obtain ⟨s, hs⟩ := Option.isSome_iff_exists.mp h
  refine reach_of_runWhere (hs.trans ?_)
  unfold after
  rw [hs]
  rfl

theorem sku_changes_handed_once_lamp :
    let s := after (fun _ _ => true) (inOrderRun (some "a".toList))
    (s.readers.map fun r => (r.sku, r.handed.map PriceChangeEvent.sequence)) =
        [(some "a".toList, [1]), (some "a".toList, [1])] ∧
      ∀ r ∈ s.readers, r.sku.isSome = true → Delivers shown s.db.events r :=
  ⟨rfl, sku_changes_handed_once lampStart_initial
    ((after_reached rfl).weaken fun _ _ _ => trivial)⟩

/-- Without the condition, both services lose the event of the late commit. -/
example : ((after (fun _ _ => true) lateRun).db.events.map PriceChangeEvent.sequence,
    (after (fun _ _ => true) lateRun).readers.map fun r =>
      (decide r.CaughtUp, r.handed.map PriceChangeEvent.sequence)) =
    ([2, 1], [(true, [2]), (true, [2])]) := rfl

end CommercePlayground.Catalog.Subscriptions
