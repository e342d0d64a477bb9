/-
CommercePlayground.Fulfillment.DeliveryRouteTheorems — a deferred message keeps its route.

`deferral_keeps_route`: a message that its consumer accepted once may be deferred any
number of times. Each time the broker finds its retry queue and, when the time is up, the
consumer's own queue again; the headers still name the route the event was published with,
and the consumer accepts it as before. What carries the induction is that an accepted
message is either a first delivery without retry headers, or one of the very form that a
deferral produces (`validate_iff`).
-/
import CommercePlayground.Fulfillment.DeliveryRoute
import Mathlib.Data.List.Infix

namespace CommercePlayground.Fulfillment

open Lib

/-! ## The broker -/

/-- A routing key matches itself as a pattern, whatever its words. -/
theorem topicMatches_self (words : List Text) : topicMatches words words = true := by
  induction words with
  | nil => rfl
  | cons word words ih =>
    unfold topicMatches
    split
    · -- `#` swallows the word in its own place
      rw [List.any_eq_true]
      exact ⟨words, (List.mem_tails _ _).mpr (List.suffix_cons word words), ih⟩
    · simp [ih]

theorem mem_routed {names : QueueNames} {b : Binding} {routingKey : Text}
    (h : b ∈ names.bindings)
    (hm : topicMatches (b.pattern.splitOn '.') (routingKey.splitOn '.') = true) :
    b.queue ∈ names.routed b.exchange routingKey := by
  refine List.mem_map_of_mem (List.mem_filter.mpr ⟨h, ?_⟩)
  simp [hm]

theorem mem_retryBindings {names : QueueNames} (consumer : Consumer) {b : Binding}
    (h : b ∈ names.retryBindings consumer) : b ∈ names.bindings := by
  unfold QueueNames.bindings
  cases consumer <;> simp [h]

/-- A message deferred by a consumer waits in the retry queue of the consumer. -/
theorem routed_retry (names : QueueNames) (consumer : Consumer) :
    .retry consumer ∈ names.routed retryExchange (names.retryRoutingKey consumer) :=
  mem_routed (b := ⟨retryExchange, names.retryRoutingKey consumer, .retry consumer⟩)
    (mem_retryBindings consumer (by simp [QueueNames.retryBindings]))
    (topicMatches_self _)

/-- When its time is up it comes back to the consumer's own queue. -/
theorem routed_return (names : QueueNames) (consumer : Consumer) :
    .main consumer ∈ names.routed retryReturnExchange (names.retryRoutingKey consumer) :=
  mem_routed (b := ⟨retryReturnExchange, names.retryRoutingKey consumer, .main consumer⟩)
    (mem_retryBindings consumer (by simp [QueueNames.retryBindings]))
    (topicMatches_self _)

/-! ## Routes -/

theorem clean_some_of_ends {s : Text} (h : EndsOutside isTrimmed s) : clean (some s) = s :=
  trimMatches_of_ends h

theorem clean_clean (value : Option Text) : clean (some (clean value)) = clean value :=
  clean_some_of_ends (trimMatches_ends _ _)

theorem clean_retryRoutingKey (names : QueueNames) (consumer : Consumer) :
    clean (some (names.retryRoutingKey consumer)) = names.retryRoutingKey consumer := by
  have hqueue : EndsOutside isTrimmed (names.queue consumer) := by
    cases consumer <;> exact trimMatches_ends _ _
  refine clean_some_of_ends ⟨fun c hc => ?_, fun c hc => ?_⟩
  · unfold QueueNames.retryRoutingKey at hc
    rcases hq : names.queue consumer with _ | ⟨d, ds⟩
    · rw [hq] at hc
      cases hc
      decide
    · rw [hq] at hc
      cases hc
      exact hqueue.1 _ (by rw [hq]; rfl)
  · unfold QueueNames.retryRoutingKey at hc
    rw [List.getLast?_append_of_ne_nil _ (by decide)] at hc
    cases hc
    decide

/-- A first delivery: it comes from the exchange of the events, under the type of its
event, without retry headers. -/
structure FirstDelivery (route : RabbitDeliveryRoute) (eventType : Text) : Prop where
  exchange : route.receivedExchange = eventsExchange
  routingKey : route.receivedRoutingKey = eventType
  named : isBlank eventType = false
  noExchange : isBlank route.originalExchange = true
  noRoutingKey : isBlank route.originalRoutingKey = true

/-- The route of a message that was deferred. -/
def QueueNames.retryRoute (names : QueueNames) (consumer : Consumer) (eventType : Text) :
    RabbitDeliveryRoute :=
  ⟨retryReturnExchange, names.retryRoutingKey consumer, eventsExchange, eventType⟩

/-- What the consumer accepts. -/
theorem validate_iff {names : QueueNames} {consumer : Consumer} {properties : MessageProperties}
    {eventType : Text} : names.validate consumer properties eventType = .ok () ↔
      FirstDelivery (.fromProperties properties) eventType ∨
      RabbitDeliveryRoute.fromProperties properties = names.retryRoute consumer eventType := by
  unfold QueueNames.validate RabbitDeliveryRoute.validateRetryRoute
  generalize RabbitDeliveryRoute.fromProperties properties = route
  obtain ⟨exchange, routingKey, originalExchange, originalRoutingKey⟩ := route
  simp only [QueueNames.retryRoute, RabbitDeliveryRoute.mk.injEq]
  split
  · rename_i hexchange
    subst hexchange
    have hother : ¬ eventsExchange = retryReturnExchange := by decide
    simp only [hother, false_and, or_false]
    split
    · rename_i hheaders
      refine ⟨(fun h => by cases h), fun h => ?_⟩
      have h₁ := h.noExchange
      have h₂ := h.noRoutingKey
      simp only at h₁ h₂
      simp [h₁, h₂] at hheaders
    · rename_i hheaders
      simp only [Bool.or_eq_true, Bool.not_eq_true', not_or, Bool.not_eq_false] at hheaders
      unfold RabbitDeliveryRoute.requireRoute
      simp only
      split
      · rename_i hkey
        refine ⟨(fun h => by cases h), fun h => ?_⟩
        have h₁ := h.routingKey
        simp only at h₁
        subst h₁
        simp [h.named] at hkey
      · rename_i hkey
        simp only [Bool.or_eq_true, decide_eq_true_eq, not_or, not_not, Bool.not_eq_true] at hkey
        refine ⟨fun _ => ⟨rfl, hkey.2, ?_, hheaders.1, hheaders.2⟩, fun _ => rfl⟩
        rw [← hkey.2]
        exact hkey.1
  · rename_i hexchange
    have hfirst : ¬ FirstDelivery ⟨exchange, routingKey, originalExchange, originalRoutingKey⟩
        eventType := fun h => hexchange h.exchange
    simp only [hfirst, false_or]
    split
    · rename_i hretry
      split
      · rename_i hroute
        refine ⟨(fun h => by cases h), fun h => ?_⟩
        exact (hroute.elim (fun hne => hne h.2.2.1) fun hne => hne h.2.2.2).elim
      · rename_i hroute
        simp only [not_or, not_not] at hroute
        exact ⟨fun _ => ⟨hretry.1, hretry.2, hroute.1, hroute.2⟩, fun _ => rfl⟩
    · rename_i hretry
      exact ⟨(fun h => by cases h), fun h => absurd ⟨h.1, h.2.1⟩ hretry⟩

/-- The headers of a deferred message name the route its event was published with. -/
theorem preserveOriginalRoute_of_valid {names : QueueNames} {consumer : Consumer}
    {properties target : MessageProperties} {eventType : Text}
    (htype : isBlank eventType = false)
    (h : names.validate consumer properties eventType = .ok ()) :
    preserveOriginalRoute properties target = .ok
      { target with
        originalExchangeHeader := some eventsExchange
        originalRoutingKeyHeader := some eventType } := by
  have hnamed : isBlank eventsExchange = false := by decide
  unfold preserveOriginalRoute
  rcases validate_iff.mp h with hfirst | hretry
  · simp [hfirst.noExchange, hfirst.noRoutingKey, hfirst.exchange, hfirst.routingKey, hnamed,
      htype]
  · simp [hretry, QueueNames.retryRoute, hnamed, htype]

/-- The type of an event that was accepted is trimmed. -/
theorem clean_eventType {names : QueueNames} {consumer : Consumer}
    {properties : MessageProperties} {eventType : Text}
    (h : names.validate consumer properties eventType = .ok ()) :
    clean (some eventType) = eventType := by
  rcases validate_iff.mp h with hfirst | hretry
  · rw [← hfirst.routingKey]
    exact clean_clean _
  · have hkey := congrArg RabbitDeliveryRoute.originalRoutingKey hretry
    simp only [QueueNames.retryRoute, RabbitDeliveryRoute.fromProperties] at hkey
    rw [← hkey]
    exact clean_clean _

/-- **One deferral.** The message comes back by the route of the retry. -/
theorem deferred_once {names : QueueNames} {consumer : Consumer}
    {properties : MessageProperties} {eventType : Text} (htype : isBlank eventType = false)
    (h : names.validate consumer properties eventType = .ok ()) :
    ∃ copy, preserveOriginalRoute properties properties = .ok copy ∧
      RabbitDeliveryRoute.fromProperties (names.returned consumer copy) =
        names.retryRoute consumer eventType := by
  refine ⟨_, preserveOriginalRoute_of_valid htype h, ?_⟩
  have hexchange : clean (some retryReturnExchange) = retryReturnExchange := by decide
  have horiginal : clean (some eventsExchange) = eventsExchange := by decide
  simp [RabbitDeliveryRoute.fromProperties, QueueNames.returned, QueueNames.retryRoute,
    hexchange, horiginal, clean_retryRoutingKey, clean_eventType h]

/-- **Deferral keeps the route.** A message that its consumer accepts can be deferred any
number of times: the broker has a place for every copy and brings it back to the
consumer's queue, and the copy is accepted again, with the original route in its headers. -/
theorem deferral_keeps_route {names : QueueNames} {consumer : Consumer}
    {properties : MessageProperties} {eventType : Text} (htype : isBlank eventType = false)
    (h : names.validate consumer properties eventType = .ok ()) :
    .retry consumer ∈ names.routed retryExchange (names.retryRoutingKey consumer) ∧
    names.deadLetterRoute (.retry consumer) =
      some (retryReturnExchange, names.retryRoutingKey consumer) ∧
    .main consumer ∈ names.routed retryReturnExchange (names.retryRoutingKey consumer) ∧
    ∀ n, ∃ copy, names.deferred consumer n properties = .ok copy ∧
      names.validate consumer copy eventType = .ok () ∧
      (0 < n → RabbitDeliveryRoute.fromProperties copy = names.retryRoute consumer eventType) := by
  refine ⟨routed_retry names consumer, rfl, routed_return names consumer, fun n => ?_⟩
  induction n generalizing properties with
  | zero => exact ⟨properties, rfl, h, fun hn => absurd hn (Nat.lt_irrefl 0)⟩
  | succ n ih =>
    obtain ⟨copy, hcopy, hroute⟩ := deferred_once htype h
    have hvalid : names.validate consumer (names.returned consumer copy) eventType = .ok () :=
      validate_iff.mpr (.inr hroute)
    obtain ⟨last, hlast, haccepted, hretry⟩ := ih hvalid
    refine ⟨last, ?_, haccepted, fun _ => ?_⟩
    · rw [QueueNames.deferred, hcopy]
      exact hlast
    · cases n with
      | zero =>
        cases hlast
        exact hroute
      | succ n => exact hretry (Nat.succ_pos n)

/-! The analytics queue under its default name, and a paid order that waits twice. -/

def sampleNames : QueueNames where
  orders := "fulfillment.orders".toList
  analytics := "analytics.events".toList
  orders_named := by decide
  analytics_named := by decide

def sampleProperties : MessageProperties where
  receivedExchange := some eventsExchange
  receivedRoutingKey := some "order.paid".toList
  originalExchangeHeader := none
  originalRoutingKeyHeader := none

theorem deferral_keeps_route_sample : ∃ copy,
    sampleNames.deferred .analytics 2 sampleProperties = .ok copy ∧
      clean copy.originalRoutingKeyHeader = "order.paid".toList := by
  have haccepted : sampleNames.validate .analytics sampleProperties "order.paid".toList =
      .ok () := by decide
  obtain ⟨-, -, -, h⟩ := deferral_keeps_route (by decide) haccepted
  obtain ⟨copy, hcopy, -, hroute⟩ := h 2
  exact ⟨copy, hcopy, congrArg RabbitDeliveryRoute.originalRoutingKey (hroute (by decide))⟩

end CommercePlayground.Fulfillment
