/-
CommercePlayground.Notifications.CarrierTheorems — a delivery that was recorded is not
quarantined.

`joined_header` of the shared library joins the lines of the baggage before it
validates them, and `header_values` joins them again to store them. Both join all the
lines that were there, because a line that is not ASCII stops the validator. So what is
stored is what was validated, and the headers made of it pass again.

That is one step of `record_delivery` and one of `process_job`. Between them the columns
stay under the id of their row (`CarrierInv`), so it is so in every run.
-/
import CommercePlayground.Notifications.Carrier
import CommercePlayground.Notifications.DeliveryTheorems
import CommercePlayground.Propagation.DurableTheorems

namespace CommercePlayground.Notifications

open Lib
open Propagation (Carrier Printable isHeaderChar toStr_ok_iff validateDurableContext_accepts)
open Propagation.Shared (toStr validateDurableContext)

/-! ## Storing and rebuilding -/

theorem toOption_toStr {value : Text} (h : Printable value) :
    (toStr value).toOption = some value := by
  rw [toStr_ok_iff.mpr ⟨h, rfl⟩]
  rfl

theorem headerValues_of_printable {values : List Text} (hne : values ≠ [])
    (h : ∀ value ∈ values, Printable value) :
    headerValues values = some ([','].intercalate values) := by
  have hall : values.filterMap (fun value => (toStr value).toOption) = values := by
    clear hne
    induction values with
    | nil => rfl
    | cons value values ih =>
      obtain ⟨hvalue, hrest⟩ := List.forall_mem_cons.mp h
      simp only [List.filterMap_cons, toOption_toStr hvalue, ih hrest]
  unfold headerValues
  simp only [hall, List.isEmpty_eq_false_iff.mpr hne, Bool.false_eq_true, if_false]

theorem printable_intercalate {values : List Text} (h : ∀ value ∈ values, Printable value) :
    Printable ([','].intercalate values) := by
  intro c hc
  rcases mem_intercalate hc with rfl | ⟨value, hvalue, hc⟩
  · decide
  · exact h value hvalue c hc

theorem insertHeader_printable (name : String) {value : Text} (h : Printable value) :
    insertHeader name (some value) = .ok [value] := by
  refine if_pos (List.all_eq_true.mpr fun c hc => ?_)
  unfold isHeaderChar
  rcases h c hc with ⟨hlow, hhigh⟩ | rfl
  · rw [Bool.or_eq_true]
    exact .inl (decide_eq_true ⟨hlow, by omega⟩)
  · decide

/-- Headers that pass at the door are stored so that they pass again, and say the same
then. -/
theorem jobContextHeaders_of_valid {headers : Carrier}
    (h : validateDurableContext headers = .ok ()) :
    ∃ headers', jobContextHeaders (storedCarrier headers) = .ok headers' ∧
      validateDurableContext headers' = .ok () ∧ SameContext headers headers' := by
  obtain ⟨parent, state, ha⟩ := validateDurableContext_accepts.mp h
  have hlines : ∀ line ∈ headers.baggage, Printable line := fun line hline =>
    (ha.printableBaggage line hline).1
  have hjoined := printable_intercalate hlines
  have hnonempty : [','].intercalate headers.baggage ≠ [] := by
    intro hnil
    have hvalid := ha.validBaggage
    rw [hnil] at hvalid
    cases hvalid
  have hstored : storedCarrier headers =
      ⟨some parent, some state, some ([','].intercalate headers.baggage)⟩ := by
    unfold storedCarrier headerValue
    rw [ha.traceparent, ha.tracestate, headerValues_of_printable ha.baggage hlines,
      List.head?_cons, List.head?_cons, Option.bind_some, Option.bind_some,
      toOption_toStr ha.printableTraceparent.1, toOption_toStr ha.printableTracestate.1]
  have hvalid : validateDurableContext
      ⟨[parent], [state], [[','].intercalate headers.baggage]⟩ = .ok () :=
    Propagation.validateDurableContext_ok_iff.mpr
      ⟨⟨ha.printableTraceparent, ha.validTraceparent⟩,
        ⟨ha.printableTracestate, ha.validTracestate⟩, ⟨hjoined, hnonempty⟩, ha.validBaggage⟩
  refine ⟨_, ?_, hvalid, ha.traceparent.symm, ha.tracestate.symm, ?_⟩
  · unfold jobContextHeaders
    rw [hstored, insertHeader_printable _ ha.printableTraceparent.1,
      insertHeader_printable _ ha.printableTracestate.1, insertHeader_printable _ hjoined]
    show (validateDurableContext _ >>= fun _ => _) = _
    rw [hvalid]
    rfl
  · unfold baggageMembersOf
    rw [List.flatMap_singleton, splitOn_intercalate_parts ha.baggage]

/-! ## What a step does to the deliveries -/

section

variable {s t : State} {a : Action}

theorem claimNext_nextId (locked : DeliveryId → Bool) (db : Store) :
    (claimNext locked db).2.nextId = db.nextId := by
  unfold claimNext
  split <;> rfl

theorem claimNext_job {locked : DeliveryId → Bool} {db : Store} {job : DeliveryJob}
    (h : (claimNext locked db).1 = some job) : ∃ d ∈ db.deliveries, d.id = job.id := by
  unfold claimNext at h
  split at h
  · cases h
  · rename_i d hd
    cases h
    exact ⟨d, (candidate_mem hd).1, rfl⟩

/-- Only `record_delivery` takes a new id, and only for headers that pass. -/
theorem deliveryStep_nextId (h : deliveryStep s a = some t) : t.db.nextId = s.db.nextId ∨
    ∃ request eventKey fault, a = .record (.ok ()) request eventKey fault := by
  have hfault : ∀ (fault : Fault) (db db' : Store), db'.nextId = db.nextId →
      (underFault fault db db').nextId = db.nextId := by
    intro fault db db' heq
    cases fault
    · exact heq
    · rfl
    · exact heq
  cases a with
  | record carrier request eventKey fault =>
    cases carrier with
    | error message =>
      cases h
      exact .inl (hfault fault _ _ rfl)
    | ok u => exact .inr ⟨request, eventKey, fault, rfl⟩
  | claim locked fault =>
    cases h
    exact .inl (hfault fault _ _ (claimNext_nextId locked s.db))
  | reclaim fault =>
    cases h
    exact .inl (hfault fault _ _ rfl)
  | log i fault =>
    simp only [deliveryStep] at h
    split at h
    · cases h
      exact .inl (hfault fault _ _ rfl)
    · cases h
  | report i how fault =>
    simp only [deliveryStep] at h
    split at h
    · cases h
      dsimp only
      split
      · exact .inl rfl
      · rename_i db hdb
        refine .inl (hfault fault _ _ ?_)
        have hfinish : ∀ {job : DeliveryJob} {f : Delivery → Delivery} {outcome : Outcome}
            {error : Option String} {lost : String},
            finishAttempt job f outcome error lost s.db = .ok db → db.nextId = s.db.nextId := by
          intro job f outcome error lost hok
          unfold finishAttempt at hok
          split at hok
          · cases hok
            rfl
          · cases hok
        cases how with
        | delivered => exact hfinish hdb
        | invalid error => exact hfinish hdb
        | failed error =>
          simp only [report, markFailedOrDeadLetter] at hdb
          split at hdb
          · exact hfinish hdb
          · exact hfinish hdb
    · cases h
  | stop i =>
    cases h
    exact .inl rfl
  | environment elapsed orders =>
    cases h
    exact .inl rfl

/-- A job that a worker has is of a delivery. -/
theorem processing_origin (h : deliveryStep s a = some t) {job : DeliveryJob}
    (hw : Worker.processing job ∈ t.workers) : Worker.processing job ∈ s.workers ∨
      ∃ d ∈ s.db.deliveries, d.id = job.id := by
  cases a with
  | record carrier request eventKey fault =>
    cases h
    exact .inl hw
  | claim locked fault =>
    cases h
    rcases List.mem_append.mp hw with hw | hw
    · exact .inl hw
    · obtain ⟨-, hw⟩ := mem_ifAnswered hw
      obtain ⟨claimed, hclaimed, heq⟩ := List.mem_map.mp hw
      cases heq
      exact .inr (claimNext_job (Option.mem_toList.mp hclaimed))
  | reclaim fault =>
    cases h
    rcases List.mem_append.mp hw with hw | hw
    · exact .inl hw
    · obtain ⟨-, hw⟩ := mem_ifAnswered hw
      cases List.mem_singleton.mp hw
  | log i fault =>
    simp only [deliveryStep] at h
    split at h
    · cases h
      rcases List.mem_append.mp hw with hw | hw
      · exact .inl (List.mem_of_mem_eraseIdx hw)
      · obtain ⟨-, hw⟩ := mem_ifAnswered hw
        cases List.mem_singleton.mp hw
    · cases h
  | report i how fault =>
    simp only [deliveryStep] at h
    split at h
    · cases h
      exact .inl (List.mem_of_mem_eraseIdx hw)
    · cases h
  | stop i =>
    cases h
    exact .inl (List.mem_of_mem_eraseIdx hw)
  | environment elapsed orders =>
    cases h
    exact .inl hw

/-- The ids of the deliveries after a step: those before it, and the new one. -/
theorem delivery_ids (hi : Inv s) (h : deliveryStep s a = some t) :
    (∀ d ∈ s.db.deliveries, ∃ d' ∈ t.db.deliveries, d'.id = d.id) ∧
      ∀ d' ∈ t.db.deliveries, (∃ d ∈ s.db.deliveries, d'.id = d.id) ∨
        (d'.id = s.db.nextId ∧ t.db.nextId = s.db.nextId + 1) := by
  have hw := deliveryStep_writes h
  constructor
  · intro d hd
    obtain ⟨d', hd', hmove⟩ := Write.follows hi hw hd
    exact ⟨d', hd', hmove.same.1⟩
  · intro d' hd'
    rcases Write.origin hi hw hd' with ⟨d, hd, hmove⟩ | ⟨tenantId, eventKey, request, rfl, hnext⟩
    · exact .inl ⟨d, hd, hmove.same.1⟩
    · exact .inr ⟨rfl, hnext⟩

end

/-! ## The columns -/

/-- Every delivery has columns that a valid carrier was stored in. -/
structure CarrierInv (s : CarrierState) : Prop where
  base : Inv s.base
  columns : ∀ d ∈ s.base.db.deliveries, ∃ headers, validateDurableContext headers = .ok () ∧
    s.columns.lookup d.id = some (storedCarrier headers)
  fresh : ∀ p ∈ s.columns, p.1 < s.base.db.nextId
  jobs : ∀ job, Worker.processing job ∈ s.base.workers → ∃ d ∈ s.base.db.deliveries, d.id = job.id

theorem lookup_append_new {columns : List (DeliveryId × StoredCarrier)} {id : DeliveryId}
    (h : ∀ p ∈ columns, p.1 < id) (value : StoredCarrier) :
    (columns ++ [(id, value)]).lookup id = some value := by
  rw [List.lookup_append, List.lookup_eq_none_iff.mpr fun p hp => ?_]
  · simp
  · simp only [bne_iff_ne, ne_eq]
    exact (h p hp).ne'

/-- A step of the deliveries that takes no new id keeps the columns. -/
theorem CarrierInv.keep {s : CarrierState} {t : State} {a : Action} (h : CarrierInv s)
    (hs : deliveryStep s.base a = some t) (hnext : t.db.nextId = s.base.db.nextId) :
    CarrierInv ⟨t, s.columns⟩ := by
  obtain ⟨hkept, horigin⟩ := delivery_ids h.base hs
  refine ⟨h.base.step hs, fun d' hd' => ?_, fun p hp => ?_, fun job hjob => ?_⟩
  · rcases horigin d' hd' with ⟨d, hd, hid⟩ | ⟨-, hnew⟩
    · rw [hid]
      exact h.columns d hd
    · exact absurd (hnew.symm.trans hnext) (Nat.succ_ne_self _)
  · show p.1 < t.db.nextId
    rw [hnext]
    exact h.fresh p hp
  · have hold : ∃ d ∈ s.base.db.deliveries, d.id = job.id := by
      rcases processing_origin hs hjob with hold | hold
      · exact h.jobs job hold
      · exact hold
    obtain ⟨d, hd, hid⟩ := hold
    obtain ⟨d', hd', hsame⟩ := hkept d hd
    exact ⟨d', hd', hsame.trans hid⟩

/-- A new delivery has new columns. -/
theorem CarrierInv.insert {s : CarrierState} {t : State} {a : Action} {headers : Carrier}
    (h : CarrierInv s) (hs : deliveryStep s.base a = some t)
    (hvalid : validateDurableContext headers = .ok ())
    (hnext : t.db.nextId ≠ s.base.db.nextId) :
    CarrierInv ⟨t, s.columns ++ [(s.base.db.nextId, storedCarrier headers)]⟩ := by
  obtain ⟨hkept, horigin⟩ := delivery_ids h.base hs
  have hmono := Write.counters (deliveryStep_writes hs)
  refine ⟨h.base.step hs, fun d' hd' => ?_, fun p hp => ?_, fun job hjob => ?_⟩
  · rcases horigin d' hd' with ⟨d, hd, hid⟩ | ⟨hid, -⟩
    · obtain ⟨headers', hvalid', hlookup⟩ := h.columns d hd
      refine ⟨headers', hvalid', ?_⟩
      rw [hid, List.lookup_append, hlookup]
      rfl
    · rw [hid]
      exact ⟨headers, hvalid, lookup_append_new h.fresh _⟩
  · show p.1 < t.db.nextId
    rcases List.mem_append.mp hp with hp | hp
    · exact Nat.lt_of_lt_of_le (h.fresh p hp) hmono.1
    · rw [List.mem_singleton.mp hp]
      exact lt_of_le_of_ne hmono.1 (Ne.symm hnext)
  · have hold : ∃ d ∈ s.base.db.deliveries, d.id = job.id := by
      rcases processing_origin hs hjob with hold | hold
      · exact h.jobs job hold
      · exact hold
    obtain ⟨d, hd, hid⟩ := hold
    obtain ⟨d', hd', hsame⟩ := hkept d hd
    exact ⟨d', hd', hsame.trans hid⟩

theorem CarrierInv.step {s t : CarrierState} {a : CarrierAction} (h : CarrierInv s)
    (hs : carrierStep s a = some t) : CarrierInv t := by
  cases a with
  | record headers request eventKey fault =>
    simp only [carrierStep, Option.map_eq_some_iff] at hs
    obtain ⟨base, hbase, rfl⟩ := hs
    unfold recordColumns
    split
    · rename_i hnext
      exact h.keep hbase hnext
    · rename_i hnext
      rcases deliveryStep_nextId hbase with hsame | ⟨_, _, _, heq⟩
      · exact absurd hsame hnext
      · exact h.insert hbase (Action.record.inj heq).1 hnext
  | process i dispatched fault =>
    simp only [carrierStep] at hs
    split at hs
    · obtain ⟨base, hbase, rfl⟩ := Option.map_eq_some_iff.mp hs
      rcases deliveryStep_nextId hbase with hsame | ⟨_, _, _, heq⟩
      · exact h.keep hbase hsame
      · cases heq
    · cases hs
  | other a =>
    have hother : ∀ b : Action, (∀ carrier request eventKey fault,
        b ≠ .record carrier request eventKey fault) →
        ((deliveryStep s.base b).map fun t => (⟨t, s.columns⟩ : CarrierState)) = some t →
          CarrierInv t := by
      intro b hb hmap
      obtain ⟨base, hbase, rfl⟩ := Option.map_eq_some_iff.mp hmap
      rcases deliveryStep_nextId hbase with hsame | ⟨request, eventKey, fault, heq⟩
      · exact h.keep hbase hsame
      · exact absurd heq (hb _ _ _ _)
    cases a with
    | record => cases hs
    | report => cases hs
    | claim locked fault => exact hother (.claim locked fault) (fun _ _ _ _ heq => by cases heq) hs
    | reclaim fault => exact hother (.reclaim fault) (fun _ _ _ _ heq => by cases heq) hs
    | log i fault => exact hother (.log i fault) (fun _ _ _ _ heq => by cases heq) hs
    | stop i => exact hother (.stop i) (fun _ _ _ _ heq => by cases heq) hs
    | environment elapsed orders => exact hother (.environment elapsed orders) (fun _ _ _ _ heq => by cases heq) hs

theorem CarrierInv.rebuilt {s : CarrierState} (h : CarrierInv s) {job : DeliveryJob}
    (hw : Worker.processing job ∈ s.base.workers) (dispatched : Except String Unit)
    (error : String) : processJob (s.columnsOf job.id) dispatched ≠ .invalid error := by
  obtain ⟨d, hd, hid⟩ := h.jobs job hw
  obtain ⟨headers, hvalid, hlookup⟩ := h.columns d hd
  obtain ⟨headers', hok, -, -⟩ := jobContextHeaders_of_valid hvalid
  have hcolumns : s.columnsOf job.id = storedCarrier headers := by
    unfold CarrierState.columnsOf
    rw [← hid, hlookup]
    rfl
  unfold processJob
  rw [hcolumns, hok]
  cases dispatched <;> exact fun heq => by cases heq

/-- Headers that `record_delivery` accepts, over any number of baggage lines, are stored
so that `job_context_headers` gives a carrier that is accepted again, with the same
trace and the same members. So in every run from a database without deliveries, no
worker ever has a job that it would quarantine. -/
theorem recorded_delivery_not_quarantined (s₀ : State) (s : CarrierState) (h₀ : Start s₀)
    (hr : Reach carrierStep (fun _ _ => True) ⟨s₀, []⟩ s) :
    (∀ headers, validateDurableContext headers = .ok () →
      ∃ headers', jobContextHeaders (storedCarrier headers) = .ok headers' ∧
        validateDurableContext headers' = .ok () ∧ SameContext headers headers') ∧
    ∀ job, Worker.processing job ∈ s.base.workers → ∀ dispatched error,
      processJob (s.columnsOf job.id) dispatched ≠ .invalid error := by
  have hstart : CarrierInv ⟨s₀, []⟩ :=
    { base := h₀.inv
      columns := fun d hd => by
        rw [h₀.deliveries] at hd
        cases hd
      fresh := fun p hp => absurd hp List.not_mem_nil
      jobs := fun job hjob => by
        rw [h₀.workers] at hjob
        cases hjob }
  have hinv : CarrierInv s := hr.invariant hstart fun t a u ht _ hs => ht.step hs
  exact ⟨fun headers hvalid => jobContextHeaders_of_valid hvalid,
    fun job hjob dispatched error => hinv.rebuilt hjob dispatched error⟩

/-! A delivery with two lines of baggage, recorded and claimed. -/

def sampleHeaders : Carrier where
  traceparent := ["00-0af7651916cd43dd8448eb211c80319c-b7ad6b7169203331-01".toList]
  tracestate := ["playground=commerce".toList]
  baggage := ["tenant.id=tenant-acme".toList, "region=eu".toList]

def sampleDelivery : List CarrierAction :=
  [.other (.environment 0 [(1, 7)]), .record sampleHeaders ⟨some 1, 7, .webhook⟩ 9 .none,
    .other (.claim (fun _ => false) .none)]

theorem recorded_delivery_not_quarantined_sample :
    ∃ s, run carrierStep ⟨sampleStart, []⟩ sampleDelivery = some s ∧
      ∃ job, Worker.processing job ∈ s.base.workers ∧ ∀ dispatched error,
        processJob (s.columnsOf job.id) dispatched ≠ .invalid error := by
  have hworkers : (run carrierStep ⟨sampleStart, []⟩ sampleDelivery).map
      (fun s => s.base.workers) = some [.processing ⟨0, 1, 9, 7, .webhook, 1, 0⟩] := by decide
  obtain ⟨s, hs, hw⟩ := Option.map_eq_some_iff.mp hworkers
  have hjob : Worker.processing ⟨0, 1, 9, 7, .webhook, 1, 0⟩ ∈ s.base.workers := by
    rw [hw]
    exact List.mem_singleton.mpr rfl
  exact ⟨s, hs, _, hjob, (recorded_delivery_not_quarantined sampleStart s ⟨rfl, rfl, rfl⟩
    (reach_of_run hs)).2 _ hjob⟩

end CommercePlayground.Notifications
