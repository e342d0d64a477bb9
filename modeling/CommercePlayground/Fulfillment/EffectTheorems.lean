/-
CommercePlayground.Fulfillment.EffectTheorems — whether an effect is lost.

`claimEffects` takes the effects that are queued and those whose claim has
expired, and the delivery completes its own claim when it has published what it
took. It does not look at an effect another attempt took and still has: when
that attempt failed on a different effect, it released only the one it failed
on, and the retry completes without the other. As long as no attempt claims
effects past an unexpired claim, nothing is lost.
-/
import CommercePlayground.Fulfillment.DeliveryTheorems

namespace CommercePlayground.Fulfillment

open Lib

/-! ## Steps of a delivery -/

/-- What a step of a delivery has to keep. -/
structure Advance (s : Store) (d : Delivery) (u : Store) (d' : Delivery) : Prop where
  store : StoreInv u
  ledger : Ledger u
  self : DeliveryOk u d'
  others : ∀ d₁, Apart d d₁ → DeliveryOk s d₁ → DeliveryOk u d₁
  apart : ∀ d₁, Apart d d₁ → DeliveryOk s d₁ → Apart d' d₁

section Advancing

variable {s u : Store} {d d' : Delivery}

theorem Advance.still (hi : StoreInv s) (hl : Ledger s) (hd : DeliveryOk s d)
    (hw : Within d d') : Advance s d s d' :=
  ⟨hi, hl, hd.within hw, fun _ _ h => h, fun _ ha _ => ha.within hw⟩

/-- The claims move and none is completed. -/
theorem Advance.lease (hi : StoreInv s) (hl : Ledger s) (hd : DeliveryOk s d) (hm : Moved s u)
    (heq : u.effects = s.effects)
    (hdone : ∀ r ∈ u.claims, r.status = .completed → r ∈ s.claims) (hw : Within d d') :
    Advance s d u d' where
  store := hi.moved hm
  ledger := hl.frame_effects hi hm heq hdone
  self := (hd.frame_effects hi hm heq).within hw
  others _ _ h := h.frame_effects hi hm heq
  apart _ ha _ := ha.within hw

theorem completed_of_updateWhere {claims : List ProcessedEvent} {sel : ProcessedEvent → Bool}
    {f : ProcessedEvent → ProcessedEvent}
    (hf : ∀ r, sel r = true → (f r).status ≠ .completed) :
    ∀ r ∈ updateWhere sel f claims, r.status = .completed → r ∈ claims := by
  intro r' hr' hst
  obtain ⟨r, hr, rfl⟩ := mem_updateWhere.mp hr'
  by_cases hsel : sel r = true
  · rw [if_pos hsel] at hst
    exact absurd hst (hf r hsel)
  · rw [if_neg hsel]
    exact hr

theorem renewLease_frame {t : TenantId} {c : Consumer} {k : EventKey} {token : Nat} {r : Unit}
    (h : renewLease t c k token s = .ok (r, u)) :
    u.effects = s.effects ∧ ∀ r ∈ u.claims, r.status = .completed → r ∈ s.claims := by
  obtain ⟨rfl, -⟩ := updateHeld_ok h
  refine ⟨rfl, completed_of_updateWhere fun r hsel => ?_⟩
  rw [Bool.and_eq_true] at hsel
  rw [(isHeld_iff.mp hsel.2).1]
  nofun

theorem markFailed_frame {t : TenantId} {c : Consumer} {k : EventKey} {token : Nat}
    {permanent : Bool} {r : Unit} (h : markFailed c t k token permanent s = .ok (r, u)) :
    u.effects = s.effects ∧ ∀ r ∈ u.claims, r.status = .completed → r ∈ s.claims := by
  obtain ⟨rfl, -⟩ := updateHeld_ok h
  refine ⟨rfl, completed_of_updateWhere fun r _ => ?_⟩
  rcases failedClaim_status permanent r with hst | hst <;> rw [hst] <;> nofun

theorem acquireClaim_frame {c : Consumer} {k : EventKey} {event : CommerceEvent}
    {answer : ClaimDecision} (hi : ClaimInv s.claims s.nextToken)
    (h : acquireClaim c k event s = .ok (answer, u)) :
    u.effects = s.effects ∧ ∀ r ∈ u.claims, r.status = .completed → r ∈ s.claims := by
  have hspec := acquireClaim_spec hi c k event
  rw [h] at hspec
  cases hspec with
  | exhaust => exact ⟨rfl, completed_of_updateWhere fun r _ => nofun⟩
  | reclaim => exact ⟨rfl, completed_of_updateWhere fun r _ => nofun⟩
  | completed => exact ⟨rfl, fun r hr _ => hr⟩
  | active => exact ⟨rfl, fun r hr _ => hr⟩
  | deadLettered => exact ⟨rfl, fun r hr _ => hr⟩
  | insert =>
    refine ⟨rfl, fun r hr hst => ?_⟩
    rcases List.mem_append.mp hr with hr | hr
    · exact hr
    · rw [List.mem_singleton.mp hr] at hst
      cases hst

/-- A new claim: the effects have had fewer attempts than it. -/
theorem Advance.acquired {token : Nat} (hi : StoreInv s) (hl : Ledger s)
    (h : acquireClaim .orders d.event.processingKey d.event s = .ok (.acquired token, u)) :
    Advance s d u (d.to (.process token)) := by
  have hm := acquireClaim_moved hi.claims h
  have hframe := acquireClaim_frame hi.claims h
  have hatt := attemptsOf_acquire hi.claims .orders d.event.processingKey d.event
    (purposeClaim d.event.purpose)
  rw [h] at hatt
  have hone : acquires s (purposeClaim d.event.purpose)
      (.acquire .orders d.event.processingKey d.event) = true := by
    rw [acquires, h, isAcquired, Bool.and_true, decide_eq_true_eq]
    rfl
  rw [hone, if_pos rfl] at hatt
  have htoken : token = s.nextToken ∧ u.nextToken = s.nextToken + 1 := by
    have hspec := acquireClaim_spec hi.claims .orders d.event.processingKey d.event
    rw [h] at hspec
    cases hspec <;> exact ⟨rfl, rfl⟩
  refine ⟨hi.moved hm, hl.frame_effects hi hm hframe.1 hframe.2, ?_,
    fun _ _ h => h.frame_effects hi hm hframe.1,
    fun d₁ _ h₁ => ⟨?_, fun _ hf => absurd hf List.not_mem_nil⟩⟩
  · refine ⟨?_, fun _ hf => absurd hf List.not_mem_nil, ?_, ?_, ?_⟩
    · rintro n ⟨⟩
      omega
    · intro n _ _ e he hp
      have hle := hl.attempts e (hframe.1 ▸ he)
      have hp : e.purpose = d.event.purpose := hp
      rw [hp] at hle
      show e.attempts < attemptsOf u (purposeClaim d.event.purpose)
      have hatt : attemptsOf u (purposeClaim d.event.purpose) =
        attemptsOf s (purposeClaim d.event.purpose) + 1 := hatt
      omega
    · intro hp
      cases hp
    · intro n es hp
      cases hp
  · rintro n ⟨⟩ hn
    have := h₁.token token hn
    omega

/-- Processing, without a result. -/
theorem Advance.process {event : CommerceEvent} (hi : StoreInv s) (hl : Ledger s)
    (hd : DeliveryOk s d) (hp : Processing event s u) (hw : Within d d') : Advance s d u d' where
  store := hi.processing hp
  ledger := hl.process hi hp
  self := (hd.process hi hp).within hw
  others _ _ h := h.process hi hp
  apart _ ha _ := ha.within hw

/-- Processing, with one. -/
theorem Advance.processed {token : Nat} (hi : StoreInv s) (hl : Ledger s) (hd : DeliveryOk s d)
    (hphase : d.phase = .process token) (hp : Processing d.event s u) :
    Advance s d u { d with phase := .renew token, lost := false } where
  store := hi.processing hp
  ledger := hl.process hi hp
  self := by
    have hself := hd.process hi hp
    refine ⟨fun n hn => hself.token n ?_, fun _ hf => absurd hf List.not_mem_nil,
      fun n hn => hself.fresh n ?_, fun _ => hp.spent, nofun⟩
    · rw [hphase]
      exact hn
    · rw [hphase]
      exact hn
  others _ _ h := h.process hi hp
  apart _ ha _ := ⟨fun n hn => ha.lease n (by rw [hphase]; exact hn),
    fun _ hf => absurd hf List.not_mem_nil⟩

theorem isCurrent_of_fenced {e : EffectRow} (h : e.Fenced s.orders) : isCurrent s e = true := by
  obtain ⟨o, ho, hk, hv, hst⟩ := h
  refine List.any_eq_true.mpr ⟨o, ho, ?_⟩
  simp only [Bool.and_eq_true, decide_eq_true_eq]
  refine ⟨⟨isOrder_iff.mpr hk, hv⟩, ?_⟩
  rw [hst]
  cases e.operation <;> rfl

/-- No effect of an operation is under a claim that has not expired. -/
def Unclaimed (s : Store) (p : TenantId × OrderId × Operation) : Prop :=
  ∀ e ∈ s.effects, e.purpose = p → e.status = .publishing →
    ∀ t, e.claimUntil = some t → t ≤ s.now

/-- A delivery under a live lease takes every effect that is not out. -/
theorem covered_claimEffects {token : Nat} (hi : StoreInv s) (hd : DeliveryOk s d)
    (hphase : d.phase = .claim token)
    (hlive : LiveLease s (purposeClaim d.event.purpose) token)
    (hfree : Unclaimed s d.event.purpose) :
    Covered
      { s with
        nextToken := s.nextToken + 1
        effects := updateWhere (isClaimable s d.event token) (claimedEffect s) s.effects }
      d.event.purpose
      ((s.effects.filter (isClaimable s d.event token)).map (claimedEffect s)) := by
  intro e he hp
  obtain ⟨e₀, he₀, rfl⟩ := mem_updateWhere.mp he
  by_cases hsel : isClaimable s d.event token e₀ = true
  · rw [if_pos hsel]
    exact .inr ⟨rfl, claimedEffect s e₀,
      List.mem_map.mpr ⟨e₀, List.mem_filter.mpr ⟨he₀, hsel⟩, rfl⟩, rfl, rfl⟩
  · rw [if_neg hsel] at hp ⊢
    refine .inl ?_
    have hfresh := hd.fresh token (by rw [hphase]; rfl) hlive.hasToken e₀ he₀ hp
    have hmax := hi.claims.attemptsOf_le (purposeClaim d.event.purpose)
    have hrow := hi.rows e₀ he₀
    -- it waits, so it would have been claimed, but for its attempts
    cases hst : e₀.status with
    | published => exact .inl hst
    | cancelled => exact .inr hst
    | queued =>
      refine absurd (isClaimable_iff.mpr ⟨hp, .inl hst, ?_, ?_, hlive⟩) hsel
      · omega
      · exact isCurrent_of_fenced (hrow.fenced (.inl hst))
    | publishing =>
      obtain ⟨t, ht⟩ := Option.isSome_iff_exists.mp (hrow.claimed hst)
      refine absurd (isClaimable_iff.mpr
        ⟨hp, .inr ⟨hst, t, ht, hfree e₀ he₀ hp hst t ht⟩, ?_, ?_, hlive⟩) hsel
      · omega
      · exact isCurrent_of_fenced (hrow.fenced (.inr (.inl hst)))
    | failed =>
      have := hrow.failed hst
      omega

/-- The effects are claimed. -/
theorem Advance.claimed {token : Nat} (hi : StoreInv s) (hl : Ledger s) (hd : DeliveryOk s d)
    (hphase : d.phase = .claim token)
    (hfree : LiveLease s (purposeClaim d.event.purpose) token → Unclaimed s d.event.purpose) :
    Advance s d
      { s with
        nextToken := s.nextToken + 1
        effects := updateWhere (isClaimable s d.event token) (claimedEffect s) s.effects }
      (d.to (.next token
        ((s.effects.filter (isClaimable s d.event token)).map (claimedEffect s)))) := by
  have hlease : d.phase.leaseToken = some token := by
    rw [hphase]
    rfl
  have hin : ∀ f ∈ (s.effects.filter (isClaimable s d.event token)).map (claimedEffect s),
      f.claimToken = some s.nextToken := by
    intro f hf
    obtain ⟨e, -, rfl⟩ := List.mem_map.mp hf
    rfl
  have hm : Moved s _ := .claimEffects d.event token
  refine ⟨hi.claimEffects d.event token, hl.claimEffects hi (hd.fresh token ?_), ?_,
    fun d₁ ha h₁ => h₁.claimEffects hi (ha.lease token hlease), fun d₁ ha h₁ => ⟨?_, ?_⟩⟩
  · rw [hphase]
    rfl
  · refine ⟨?_, ?_, nofun, fun _ => ?_, ?_⟩
    · rintro n ⟨⟩
      exact Nat.lt_succ_of_lt (hd.token token hlease)
    · exact fun f hf => ⟨s.nextToken, hin f hf, Nat.lt_succ_self _⟩
    · exact (hd.spent (by rw [hphase]; rfl)).moved hm
    · rintro n es ⟨⟩ hlive
      have hold := (hm.leases hi).live _ token (hd.token token hlease) hlive
      exact covered_claimEffects hi hd hphase hold (hfree hold)
  · rintro n ⟨⟩
    exact ha.lease token hlease
  · intro f hf f' hf' heq
    obtain ⟨n, hn, hlt⟩ := h₁.hand f' hf'
    rw [hin f hf, hn] at heq
    cases heq
    exact Nat.lt_irrefl _ hlt

/-- The effects are claimed and the answer is lost. -/
theorem Advance.claimLost {token : Nat} {error : Failure} (hi : StoreInv s) (hl : Ledger s)
    (hd : DeliveryOk s d) (hphase : d.phase = .claim token) :
    Advance s d
      { s with
        nextToken := s.nextToken + 1
        effects := updateWhere (isClaimable s d.event token) (claimedEffect s) s.effects }
      (d.to (.fail token error)) := by
  have hlease : d.phase.leaseToken = some token := by
    rw [hphase]
    rfl
  refine ⟨hi.claimEffects d.event token, hl.claimEffects hi (hd.fresh token ?_), ?_,
    fun d₁ ha h₁ => h₁.claimEffects hi (ha.lease token hlease), fun d₁ ha h₁ => ?_⟩
  · rw [hphase]
    rfl
  · refine ⟨?_, fun _ hf => absurd hf List.not_mem_nil, nofun, nofun, nofun⟩
    rintro n ⟨⟩
    exact Nat.lt_succ_of_lt (hd.token token hlease)
  · refine ⟨?_, fun _ hf => absurd hf List.not_mem_nil⟩
    rintro n ⟨⟩
    exact ha.lease token hlease

/-- The claim is completed when nothing is left in hand. -/
theorem Ledger.complete {token : Nat} {r : Unit} (hi : StoreInv s) (hl : Ledger s)
    (hd : DeliveryOk s d) (hphase : d.phase = .next token [])
    (h : markCompleted d.event.tenantId .orders d.event.processingKey token s = .ok (r, u)) :
    Ledger u := by
  have hm := markCompleted_moved h
  obtain ⟨hu, -⟩ := updateHeld_ok h
  have heq : u.effects = s.effects := by
    rw [hu]
    rfl
  refine ⟨fun e he => ?_, fun p r' hr' hk hst => ?_⟩
  · exact (hl.attempts e (heq ▸ he)).trans ((hm.leases hi).attempts _)
  · rw [hu] at hr'
    obtain ⟨r, hr, hr'⟩ := mem_updateWhere.mp hr'
    rw [heq]
    by_cases hsel : (isClaim d.event.tenantId .orders d.event.processingKey r &&
        isHeld s.now token r) = true
    · -- its own claim: the effects are out
      rw [if_pos hsel] at hr'
      rw [Bool.and_eq_true, isClaim_iff] at hsel
      have hp : purposeClaim d.event.purpose = purposeClaim p := by
        rw [← hk, hr']
        exact hsel.1.symm
      have hpur : d.event.purpose = p := by
        simp only [purposeClaim, Prod.mk.injEq, EventKey.processing.injEq, true_and] at hp
        exact Prod.ext hp.1 (Prod.ext hp.2.2.2 hp.2.1)
      subst hpur
      have hcov := hd.covers token [] (by rw [hphase]; rfl) ⟨r, hr, hsel⟩
      refine ⟨(hd.spent (by rw [hphase]; rfl)).moved hm, fun e he hpe => ?_⟩
      rcases hcov e he hpe with hout | ⟨-, f, hf, -⟩
      · exact hout
      · cases hf
    · rw [if_neg hsel] at hr'
      subst hr'
      obtain ⟨hspent, hout⟩ := hl.done p r' hr hk hst
      exact ⟨hspent.moved hm, hout⟩

theorem Advance.completed {token : Nat} {r : Unit} (hi : StoreInv s) (hl : Ledger s)
    (hd : DeliveryOk s d) (hphase : d.phase = .next token [])
    (h : markCompleted d.event.tenantId .orders d.event.processingKey token s = .ok (r, u))
    (hw : Within d d') : Advance s d u d' := by
  have hm := markCompleted_moved h
  have heq : u.effects = s.effects := by
    rw [(updateHeld_ok h).1]
    rfl
  exact ⟨hi.moved hm, hl.complete hi hd hphase h, (hd.frame_effects hi hm heq).within hw,
    fun _ _ h₁ => h₁.frame_effects hi hm heq, fun _ ha _ => ha.within hw⟩

/-- A published effect leaves the hand. -/
theorem Advance.published {token : Nat} {effect : EffectRow} {rest : List EffectRow} {r : Unit}
    (hi : StoreInv s) (hl : Ledger s) (hd : DeliveryOk s d)
    (hphase : d.phase = .publish token effect rest)
    (h : publishEffect effect d.event.processingKey token s = .ok (r, u)) :
    Advance s d u (d.to (.next token rest)) := by
  have hself := hd.publish hi h
  have hlease : d.phase.leaseToken = some token := by
    rw [hphase]
    rfl
  have hhand : d.phase.inHand = effect :: rest := by
    rw [hphase]
    rfl
  refine ⟨hi.publishEffect h, hl.publish hi h, ?_, fun _ _ h₁ => h₁.publish hi h,
    fun d₁ ha _ => ⟨?_, fun f hf => ha.hand f (by rw [hhand]; exact List.mem_cons_of_mem _ hf)⟩⟩
  · refine ⟨?_, fun f hf => hself.hand f (by rw [hhand]; exact List.mem_cons_of_mem _ hf),
      nofun, fun _ => hself.spent (by rw [hphase]; rfl), ?_⟩
    · rintro n ⟨⟩
      exact hself.token token hlease
    · rintro n es ⟨⟩ hlive e he hp
      rcases hself.covers token (effect :: rest) (by rw [hphase]; rfl) hlive e he hp with
        hout | ⟨hst, f, hf, hk, hclaim⟩
      · exact .inl hout
      · rcases List.mem_cons.mp hf with rfl | hf
        · -- the effect that has just gone out
          obtain ⟨hone, rfl⟩ := publishEffect_ok h
          obtain ⟨e₁, he₁, hsel₁⟩ :=
            exists_of_affected_ne_zero (ne_of_eq_of_ne hone Nat.one_ne_zero)
          obtain ⟨e₀, he₀, rfl⟩ := mem_updateWhere.mp he
          have hkeys : effectKey e₁ = effectKey f := by
            simp only [isDispatchable, Bool.and_eq_true, decide_eq_true_eq] at hsel₁
            exact Prod.ext hsel₁.1.1.1.1.1 hsel₁.1.1.1.1.2.2
          by_cases hsel : isDispatchable s f d.event.processingKey token e₀ = true
          · rw [if_pos hsel]
            exact .inl (.inl rfl)
          · rw [if_neg hsel] at hk
            cases hi.effects.eq_of_mem he₁ he₀ (hkeys.trans hk)
            exact absurd hsel₁ hsel
        · exact .inr ⟨hst, f, hf, hk, hclaim⟩
  · rintro n ⟨⟩
    exact ha.lease token hlease

/-- A delivery that publishes and does not learn of it releases nothing. -/
theorem Advance.publishLost {effect : EffectRow} {key : EventKey} {token : Nat} {r : Unit}
    (hi : StoreInv s) (hl : Ledger s) (hd : DeliveryOk s d)
    (h : publishEffect effect key token s = .ok (r, u)) (hw : Within d d') :
    Advance s d u d' :=
  ⟨hi.publishEffect h, hl.publish hi h, (hd.publish hi h).within hw,
    fun _ _ h₁ => h₁.publish hi h, fun _ ha _ => ha.within hw⟩

/-- A delivery releases the effect it failed on. -/
theorem Advance.released {token : Nat} {effect : EffectRow} {error : Failure} {r : Unit}
    (hi : StoreInv s) (hl : Ledger s) (hd : DeliveryOk s d)
    (hphase : d.phase = .release token effect error)
    (h : releaseEffect effect s = .ok (r, u)) : Advance s d u (d.to (.fail token error)) := by
  have hlease : d.phase.leaseToken = some token := by
    rw [hphase]
    rfl
  have hnext : s.nextToken ≤ u.nextToken := ((Moved.release h).leases hi).next
  refine ⟨hi.releaseEffect h, hl.release hi h, ?_,
    fun d₁ ha h₁ => h₁.release hi (fun f hf => ha.hand effect ?_ f hf) h,
    fun d₁ ha _ => ⟨?_, fun _ hf => absurd hf List.not_mem_nil⟩⟩
  · refine ⟨?_, fun _ hf => absurd hf List.not_mem_nil, nofun, nofun, nofun⟩
    rintro n ⟨⟩
    exact Nat.lt_of_lt_of_le (hd.token token hlease) hnext
  · rw [hphase]
    exact List.mem_singleton_self effect
  · rintro n ⟨⟩
    exact ha.lease token hlease

/-- A statement on the claims that completes none. -/
theorem Advance.held {α : Type} {fault : Fault} {r : Outcome α} {x : Except Failure α}
    (hi : StoreInv s) (hl : Ledger s) (hd : DeliveryOk s d) (h : execute unavailable fault s r = (x, u))
    (hok : ∀ a v, r = .ok (a, v) → Moved s v ∧ v.effects = s.effects ∧
      ∀ c ∈ v.claims, c.status = .completed → c ∈ s.claims)
    (hw : Within d d') : Advance s d u d' := by
  rcases execute_store h with rfl | ⟨a, ha⟩
  · exact .still hi hl hd hw
  · obtain ⟨hm, heq, hdone⟩ := hok a u ha
    exact .lease hi hl hd hm heq hdone hw

/-- The effect taken up is in hand, and so are the others. -/
theorem mem_picked {l : List EffectRow} {i : Nat} {x f : EffectRow} (h : l[i]? = some x) :
    f ∈ x :: l.eraseIdx i ↔ f ∈ l := by
  obtain ⟨hlt, rfl⟩ := List.getElem?_eq_some_iff.mp h
  exact (List.getElem_cons_eraseIdx_perm hlt).mem_iff

theorem startStep_advance {c : Choice} (hi : StoreInv s) (hl : Ledger s) (hd : DeliveryOk s d)
    (h : startStep c d s = (d', u)) : Advance s d u d' := by
  have hok : ∀ a v, acquireClaim .orders d.event.processingKey d.event s = .ok (a, v) →
      Moved s v ∧ v.effects = s.effects ∧ ∀ c ∈ v.claims, c.status = .completed → c ∈ s.claims :=
    fun a v hv => ⟨acquireClaim_moved hi.claims hv, acquireClaim_frame hi.claims hv⟩
  unfold startStep at h
  split at h
  · cases h
    exact .still hi hl hd (.leave rfl nofun rfl rfl rfl)
  · split at h <;> rename_i hx <;> cases h
    · exact .held hi hl hd hx hok (.leave rfl nofun rfl rfl rfl)
    · exact .acquired hi hl (execute_ok hx).2
    · exact .held hi hl hd hx hok (.leave rfl nofun rfl rfl rfl)
    · exact .held hi hl hd hx hok (.leave rfl nofun rfl rfl rfl)
    · exact .held hi hl hd hx hok (.leave rfl nofun rfl rfl rfl)

theorem completeStep_advance {c : Choice} {token : Nat} (hi : StoreInv s) (hl : Ledger s)
    (hd : DeliveryOk s d) (hphase : d.phase = .next token [])
    (h : completeStep c d token s = (d', u)) : Advance s d u d' := by
  have hout : ∀ phase : Phase, phase.leaseToken = some token → phase.inHand = [] →
      phase.unclaimed = none → phase.processed = false → Within d (d.to phase) := by
    intro phase ht hh hu hp
    refine .leave rfl (fun n hn => ?_) hh hu hp
    rw [hphase]
    exact ht.symm.trans hn
  unfold completeStep at h
  split at h <;> rename_i hx <;> cases h
  · rcases execute_error hx with rfl | ⟨a, ha⟩
    · exact .still hi hl hd (hout _ rfl rfl rfl rfl)
    · exact .completed hi hl hd hphase ha (hout _ rfl rfl rfl rfl)
  · exact .completed hi hl hd hphase (execute_ok hx).2 (hout _ rfl rfl rfl rfl)

/-- The active effect is released. -/
theorem Within.release {token : Nat} {effect : EffectRow} {error : Failure}
    (ht : d.phase.leaseToken = some token) (hh : effect ∈ d.phase.inHand) :
    Within d (d.to (.release token effect error)) where
  event := rfl
  token := by
    rintro n ⟨⟩
    exact ht
  hand f hf := by
    rw [List.mem_singleton.mp hf]
    exact hh
  fresh := nofun
  spent := nofun
  covers := nofun

/-- The loop takes up one of its effects, or goes on with it. -/
theorem Within.loop {token : Nat} {es es' : List EffectRow} {phase : Phase}
    (h : d.phase.looping = some (token, es)) (h' : phase.looping = some (token, es'))
    (hu : phase.unclaimed = none) (hmem : ∀ f, f ∈ es' ↔ f ∈ es) : Within d (d.to phase) where
  event := rfl
  token n hn := by
    have hn : phase.leaseToken = some n := hn
    rw [(Phase.of_looping h').1] at hn
    exact (Phase.of_looping h).1.trans hn
  hand f hf := by
    have hf : f ∈ phase.inHand := hf
    rw [(Phase.of_looping h').2.2] at hf
    rw [(Phase.of_looping h).2.2]
    exact (hmem f).mp hf
  fresh n hn := by
    have hn : phase.unclaimed = some n := hn
    rw [hu] at hn
    cases hn
  spent _ := (Phase.of_looping h).2.1
  covers n es₁ hn := by
    have hn : phase.looping = some (n, es₁) := hn
    rw [h'] at hn
    cases hn
    exact ⟨es, h, fun f hf => (hmem f).mpr hf⟩

theorem validateStep_advance {c : Choice} {token : Nat} {effects : List EffectRow}
    {effect : EffectRow} (hi : StoreInv s) (hl : Ledger s) (hd : DeliveryOk s d)
    (hphase : d.phase = .next token effects) (hpick : effects[c.pick]? = some effect)
    (h : validateStep c d token effect (effects.eraseIdx c.pick) s = (d', u)) :
    Advance s d u d' := by
  have hrelease : ∀ error, Within d (d.to (.release token effect error)) := by
    intro error
    refine .release (by rw [hphase]; rfl) ?_
    rw [hphase]
    exact (mem_picked hpick).mp List.mem_cons_self
  have hsame : ∀ x v, execute unavailable c.fault s
      (validateEffectClaim effect d.event.processingKey token s) = (x, v) → v = s := by
    intro x v hx
    have hv : ∀ a w, validateEffectClaim effect d.event.processingKey token s = .ok (a, w) →
        w = s := by
      intro a w hw
      unfold validateEffectClaim at hw
      split at hw
      · cases hw
        rfl
      · cases hw
    rcases execute_store hx with hx | ⟨a, ha⟩
    · exact hx
    · exact hv a v ha
  unfold validateStep at h
  split at h
  · cases h
    exact .still hi hl hd (hrelease _)
  · split at h <;> rename_i hx <;> cases h <;> cases hsame _ _ hx
    · exact .still hi hl hd (hrelease _)
    · exact .still hi hl hd (.loop (by rw [hphase]; rfl) rfl rfl fun f => mem_picked hpick)

/-- **The step of a delivery.** What it needs: if it is about to claim effects
under its lease and to hear of it, no other claim on them stands. -/
theorem Delivery.step_advance {c : Choice} (hi : StoreInv s) (hl : Ledger s)
    (hd : DeliveryOk s d)
    (hfree : ∀ token, d.phase = .claim token → c.fault = .none →
      LiveLease s (purposeClaim d.event.purpose) token → Unclaimed s d.event.purpose)
    (h : d.step c s = some (d', u)) : Advance s d u d' := by
  have hfail : ∀ token error, d.phase.leaseToken = some token →
      Within d (d.to (.fail token error)) := by
    intro token error ht
    refine .leave rfl ?_ rfl rfl rfl
    rintro n ⟨⟩
    exact ht
  have hmark : ∀ token permanent, ∀ a v,
      markFailed .orders d.event.tenantId d.event.processingKey token permanent s = .ok (a, v) →
      Moved s v ∧ v.effects = s.effects ∧ ∀ c ∈ v.claims, c.status = .completed → c ∈ s.claims :=
    fun token permanent a v hv => ⟨markFailed_moved hv, markFailed_frame hv⟩
  cases hphase : d.phase with
  | start =>
    simp only [Delivery.step, hphase, Option.some.injEq] at h
    exact startStep_advance hi hl hd h
  | process token =>
    simp only [Delivery.step, hphase] at h
    split at h <;> rename_i hx <;> cases h
    · have hw : ∀ e, Within d (d.to (.failProcess token e)) := by
        intro e
        refine .leave rfl ?_ rfl rfl rfl
        rintro n ⟨⟩
        rw [hphase]
        rfl
      rcases execute_error hx with rfl | ⟨a, ha⟩
      · exact .still hi hl hd (hw _)
      · exact .process hi hl hd (processOrderInTransaction_ok hi.orders ha) (hw _)
    · exact .processed hi hl hd hphase (processOrderInTransaction_ok hi.orders (execute_ok hx).2)
  | failProcess token error =>
    simp only [Delivery.step, hphase] at h
    split at h <;> rename_i hx <;> cases h <;>
      exact .held hi hl hd hx (hmark _ _) (.leave rfl nofun rfl rfl rfl)
  | renew token =>
    have hok : ∀ a v, renewLease d.event.tenantId .orders d.event.processingKey token s =
        .ok (a, v) → Moved s v ∧ v.effects = s.effects ∧
          ∀ c ∈ v.claims, c.status = .completed → c ∈ s.claims :=
      fun a v hv => ⟨renewLease_moved hv, renewLease_frame hv⟩
    simp only [Delivery.step, hphase] at h
    split at h
    · cases h
      exact .still hi hl hd (hfail token _ (by rw [hphase]; rfl))
    · split at h <;> rename_i hx <;> cases h
      · exact .held hi hl hd hx hok (hfail token _ (by rw [hphase]; rfl))
      · refine .held hi hl hd hx hok ⟨rfl, ?_, fun _ hf => absurd hf List.not_mem_nil, ?_, ?_,
          nofun⟩
        · rw [hphase]
          exact fun n hn => hn
        · rw [hphase]
          exact fun n hn => hn
        · rw [hphase]
          exact fun hp => hp
  | claim token =>
    simp only [Delivery.step, hphase] at h
    split at h
    · cases h
      exact .still hi hl hd (hfail token _ (by rw [hphase]; rfl))
    · split at h <;> rename_i hx <;> cases h
      · rcases execute_error hx with rfl | ⟨a, ha⟩
        · exact .still hi hl hd (hfail token _ (by rw [hphase]; rfl))
        · cases ha
          exact .claimLost hi hl hd hphase
      · obtain ⟨hnone, heffects⟩ := execute_ok hx
        cases heffects
        exact .claimed hi hl hd hphase (hfree token hphase hnone)
  | next token effects =>
    cases effects with
    | nil =>
      simp only [Delivery.step, hphase, Option.some.injEq] at h
      exact completeStep_advance hi hl hd hphase h
    | cons effect effects =>
      simp only [Delivery.step, hphase] at h
      split at h
      · cases h
      · rename_i hpick
        exact validateStep_advance hi hl hd hphase hpick (Option.some.inj h)
  | dispatch token effect rest =>
    have hrelease : ∀ error, Within d (d.to (.release token effect error)) := by
      intro error
      exact .release (by rw [hphase]; rfl) (by rw [hphase]; exact List.mem_cons_self)
    simp only [Delivery.step, hphase] at h
    split at h
    · cases h
      exact .still hi hl hd (hrelease _)
    · split at h <;> cases h
      · exact .still hi hl hd (hrelease _)
      · exact .still hi hl hd (.loop (by rw [hphase]; rfl) rfl rfl fun f => Iff.rfl)
  | publish token effect rest =>
    have hrelease : ∀ error, Within d (d.to (.release token effect error)) := by
      intro error
      exact .release (by rw [hphase]; rfl) (by rw [hphase]; exact List.mem_cons_self)
    simp only [Delivery.step, hphase] at h
    split at h
    · cases h
      exact .still hi hl hd (hrelease _)
    · split at h <;> rename_i hx <;> cases h
      · rcases execute_error hx with rfl | ⟨a, ha⟩
        · exact .still hi hl hd (hrelease _)
        · exact .publishLost hi hl hd ha (hrelease _)
      · exact .published hi hl hd hphase (execute_ok hx).2
  | close token =>
    simp only [Delivery.step, hphase] at h
    split at h
    · cases h
      exact .still hi hl hd (.leave rfl nofun rfl rfl rfl)
    · split at h <;> cases h
      · exact .still hi hl hd (hfail token _ (by rw [hphase]; rfl))
      · exact .still hi hl hd (.leave rfl nofun rfl rfl rfl)
  | release token effect error =>
    simp only [Delivery.step, hphase, Option.some.injEq] at h
    have hx : execute unavailable c.fault s (releaseEffect effect s) =
        ((execute unavailable c.fault s (releaseEffect effect s)).1, u) :=
      Prod.ext rfl (Prod.mk.inj h).2
    have hd' : d.to (.fail token error) = d' := (Prod.mk.inj h).1
    subst hd'
    rcases execute_store hx with rfl | ⟨a, ha⟩
    · exact .still hi hl hd (hfail token _ (by rw [hphase]; rfl))
    · exact .released hi hl hd hphase ha
  | fail token error =>
    simp only [Delivery.step, hphase] at h
    split at h <;> rename_i hx <;> cases h
    · exact .held hi hl hd hx (hmark _ _) (.leave rfl nofun rfl rfl rfl)
    · refine .held hi hl hd hx (hmark _ _) ?_
      split <;> exact .leave rfl nofun rfl rfl rfl
  | thrown error =>
    simp only [Delivery.step, hphase] at h
    split at h
    · cases h
      exact .still hi hl hd (.leave rfl nofun rfl rfl rfl)
    · split at h <;> cases h <;> exact .still hi hl hd (.leave rfl nofun rfl rfl rfl)
  | _ =>
    simp only [Delivery.step, hphase] at h
    cases h

theorem Delivery.beat_advance {fault : Fault} (hi : StoreInv s) (hl : Ledger s)
    (hd : DeliveryOk s d) (h : d.beat fault s = some (d', u)) : Advance s d u d' := by
  unfold Delivery.beat at h
  split at h
  · cases h
  · split at h
    · cases h
    · split at h <;> rename_i hx <;> cases h <;>
        exact .held hi hl hd hx (fun a v hv => ⟨renewLease_moved hv, renewLease_frame hv⟩)
          ⟨rfl, fun _ h => h, fun _ h => h, fun _ h => h, fun h => h,
            fun n es hn => ⟨es, hn, fun _ hf => hf⟩⟩

end Advancing

/-! ## The system -/

/-- The invariant of the system. -/
structure SystemInv (st : State) : Prop where
  store : StoreInv st.store
  ledger : Ledger st.store
  each : ∀ d ∈ st.deliveries, DeliveryOk st.store d
  apart : ∀ (i j : Nat) (d d' : Delivery), st.deliveries[i]? = some d →
    st.deliveries[j]? = some d' → i ≠ j → Apart d d'

/-- A delivery goes on. -/
theorem SystemInv.advance {st : State} {i : Nat} {d d' : Delivery} {u : Store}
    (h : SystemInv st) (hd : st.deliveries[i]? = some d) (ha : Advance st.store d u d') :
    SystemInv ⟨u, st.deliveries.set i d'⟩ where
  store := ha.store
  ledger := ha.ledger
  each := by
    intro d₁ hd₁
    obtain ⟨j, hj⟩ := List.mem_iff_getElem?.mp hd₁
    by_cases hij : i = j
    · subst hij
      have hlt : i < st.deliveries.length := (List.getElem?_eq_some_iff.mp hd).1
      rw [List.getElem?_set_self hlt] at hj
      cases hj
      exact ha.self
    · rw [List.getElem?_set_ne hij] at hj
      exact ha.others d₁ (h.apart i j d d₁ hd hj hij) (h.each d₁ (List.mem_of_getElem? hj))
  apart := by
    have hlt : i < st.deliveries.length := (List.getElem?_eq_some_iff.mp hd).1
    have hnew : ∀ j d₁, st.deliveries[j]? = some d₁ → i ≠ j → Apart d' d₁ := fun j d₁ hj hij =>
      ha.apart d₁ (h.apart i j d d₁ hd hj hij) (h.each d₁ (List.mem_of_getElem? hj))
    intro j k d₁ d₂ hj hk hjk
    by_cases hij : i = j
    · subst hij
      rw [List.getElem?_set_self hlt] at hj
      cases hj
      rw [List.getElem?_set_ne hjk] at hk
      exact hnew k d₂ hk hjk
    · rw [List.getElem?_set_ne hij] at hj
      by_cases hik : i = k
      · subst hik
        rw [List.getElem?_set_self hlt] at hk
        cases hk
        exact (hnew j d₁ hj hij).symm
      · rw [List.getElem?_set_ne hik] at hk
        exact h.apart j k d₁ d₂ hj hk hjk

theorem SystemInv.deliver {st : State} {d : Delivery} (h : SystemInv st)
    (ht : d.phase = .start) : SystemInv { st with deliveries := st.deliveries ++ [d] } where
  store := h.store
  ledger := h.ledger
  each := by
    refine forall_append_singleton h.each ⟨?_, ?_, ?_, ?_, ?_⟩
    all_goals
      rw [ht]
    · exact nofun
    · exact fun _ hf => absurd hf List.not_mem_nil
    · exact nofun
    · exact nofun
    · exact nofun
  apart := by
    have hnew : ∀ d₁, Apart d d₁ := by
      intro d₁
      refine ⟨?_, ?_⟩
      · rw [ht]
        exact nofun
      · rw [ht]
        exact fun _ hf => absurd hf List.not_mem_nil
    intro i j d₁ d₂ hi hj hij
    simp only [List.getElem?_append] at hi hj
    split at hi
    · split at hj
      · exact h.apart i j d₁ d₂ hi hj hij
      · cases List.mem_singleton.mp (List.mem_of_getElem? hj)
        exact (hnew d₁).symm
    · cases List.mem_singleton.mp (List.mem_of_getElem? hi)
      exact hnew d₂

/-- **The condition.** A delivery that claims effects under its lease finds none
of them under a claim that has not expired. -/
def claimsAll (st : State) : Action → Bool
  | .run i c =>
    match st.deliveries[i]? with
    | none => true
    | some d =>
      match d.phase with
      | .claim token =>
        decide (c.fault ≠ .none) ||
          !holdsClaim st.store d.event.tenantId d.event.processingKey token ||
          st.store.effects.all fun e =>
            !(decide (e.purpose = d.event.purpose ∧ e.status = .publishing) &&
              e.claimUntil.any fun t => decide (st.store.now < t))
      | _ => true
  | _ => true

theorem claimsAll_run {st : State} {i : Nat} {c : Choice} {d : Delivery} {token : Nat}
    (h : claimsAll st (.run i c) = true) (hd : st.deliveries[i]? = some d)
    (hphase : d.phase = .claim token) (hnone : c.fault = .none)
    (hlive : LiveLease st.store (purposeClaim d.event.purpose) token) :
    Unclaimed st.store d.event.purpose := by
  simp only [claimsAll, hd, hphase, hnone, holdsClaim_iff.mpr hlive, ne_eq, not_true,
    decide_false, Bool.not_true, Bool.false_or, List.all_eq_true] at h
  intro e he hp hst t ht
  have := h e he
  simp only [hp, hst, ht, and_self, decide_true, Bool.true_and, Option.any_some,
    Bool.not_eq_true', decide_eq_false_iff_not] at this
  omega

theorem SystemInv.step {st st' : State} {a : Action} (h : SystemInv st)
    (hok : claimsAll st a = true) (hs : Fulfillment.step st a = some st') : SystemInv st' := by
  cases a with
  | deliver event =>
    cases hs
    exact h.deliver rfl
  | run i c =>
    simp only [Fulfillment.step] at hs
    split at hs
    · cases hs
    · rename_i d hd
      obtain ⟨⟨d', u⟩, hstep, rfl⟩ := Option.map_eq_some_iff.mp hs
      refine h.advance hd (Delivery.step_advance h.store h.ledger
        (h.each d (List.mem_of_getElem? hd)) (fun token hphase hnone hlive => ?_) hstep)
      exact claimsAll_run hok hd hphase hnone hlive
  | heartbeat i fault =>
    simp only [Fulfillment.step] at hs
    split at hs
    · cases hs
    · rename_i d hd
      obtain ⟨⟨d', u⟩, hstep, rfl⟩ := Option.map_eq_some_iff.mp hs
      exact h.advance hd (Delivery.beat_advance h.store h.ledger
        (h.each d (List.mem_of_getElem? hd)) hstep)
  | crash i =>
    simp only [Fulfillment.step] at hs
    split at hs
    · cases hs
    · rename_i d hd
      cases hs
      refine h.advance hd (.still h.store h.ledger (h.each d (List.mem_of_getElem? hd))
        (.leave rfl ?_ rfl rfl rfl))
      intro n hp
      cases hp
  | environment e =>
    obtain ⟨u, hu, rfl⟩ := Option.map_eq_some_iff.mp hs
    have hm : Moved st.store u := .environment hu
    have hf := environment_frame hu
    exact ⟨h.store.moved hm,
      h.ledger.frame_effects h.store hm hf.effects fun r hr _ => hf.claims ▸ hr,
      fun d hd => (h.each d hd).frame_effects h.store hm hf.effects, h.apart⟩

theorem SystemInv.initial {st : State} (h : Initial st) : SystemInv st where
  store := .initial h
  ledger := by
    refine ⟨?_, ?_⟩
    · rw [h.effects]
      exact fun _ he => absurd he List.not_mem_nil
    · rw [h.claims]
      exact fun _ _ hr => absurd hr List.not_mem_nil
  each := by
    rw [h.deliveries]
    exact fun _ hd => absurd hd List.not_mem_nil
  apart i j d d' hi := by
    rw [h.deliveries, List.getElem?_nil] at hi
    cases hi

/-- No effect of an operation whose claim is completed is left behind. -/
def NoEffectLost (s : Store) : Prop :=
  ∀ r ∈ s.claims, r.status = .completed → ∀ e ∈ s.effects,
    claimKey r = purposeClaim e.purpose → e.status = .published ∨ e.status = .cancelled

instance (s : Store) : Decidable (NoEffectLost s) := by
  unfold NoEffectLost
  infer_instance

/-- **No effect is lost** as long as no attempt claims effects past the
unexpired claim of another. -/
theorem no_effect_lost {st₀ st : State} (h₀ : Initial st₀)
    (h : Reach step (fun st a => claimsAll st a = true) st₀ st) : NoEffectLost st.store := by
  have hinv := h.invariant (I := SystemInv) (.initial h₀) fun _ _ _ hi hok hs => hi.step hok hs
  intro r hr hst e he hk
  exact (hinv.ledger.done e.purpose r hr hk hst).2 e he rfl

/-! The notification of a shipment is claimed with its event, whose dispatch
fails; the retry publishes the event and completes the claim. -/

def sampleLoss : List Action :=
  [.deliver sampleEvent, proceed 0, proceed 0, proceed 0, proceed 0, proceed 0,
    .run 0 ⟨.none, some (.retryable "broker unavailable"), 0⟩] ++
    List.replicate 12 (proceed 0)

theorem retry_loses_effect :
    ¬ ∀ st, Reach step (fun _ _ => True) sampleState st → NoEffectLost st.store := by
  intro hall
  have hlost : (run step sampleState sampleLoss).map (fun st => decide (NoEffectLost st.store)) =
      some false := by
    decide
  obtain ⟨st, hst, hno⟩ := Option.map_eq_some_iff.mp hlost
  exact of_decide_eq_false hno (hall st (reach_of_run hst))

/-! When the retry comes after the claim has expired, it takes both. -/

def sampleWait : List Action :=
  [.deliver sampleEvent, proceed 0, proceed 0, proceed 0, proceed 0, proceed 0,
    .run 0 ⟨.none, some (.retryable "broker unavailable"), 0⟩, proceed 0, proceed 0,
    .environment (.elapse (31 * second))] ++ List.replicate 13 (proceed 0)

theorem no_effect_lost_sample :
    ∃ st, runWhere step claimsAll sampleState sampleWait = some st ∧
      (st.store.claims.map ProcessedEvent.status = [.completed] ∧
        st.store.effects.map EffectRow.status = [.published, .published]) ∧
      NoEffectLost st.store := by
  have hrun : (runWhere step claimsAll sampleState sampleWait).map
      (fun st => (st.store.claims.map ProcessedEvent.status,
        st.store.effects.map EffectRow.status)) =
      some ([.completed], [.published, .published]) := by
    decide
  obtain ⟨st, hst, hrows⟩ := Option.map_eq_some_iff.mp hrun
  have hinit : Initial sampleState := by
    refine ⟨?_, ?_, rfl, rfl, rfl⟩ <;> decide
  exact ⟨st, hst, Prod.mk.inj hrows, no_effect_lost hinit (reach_of_runWhere hst)⟩

end CommercePlayground.Fulfillment
