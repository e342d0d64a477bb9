/-
CommercePlayground.Propagation.Business — the business context a service calls on with.

`extend_baggage`, `with_safe_parent_baggage` and `with_business_context_from_parent` of the
shared library: a service lays the sanitized baggage of its caller over that of its own span,
sets the tenant it acts for and fills in what nobody has chosen yet. How much the map of the
OpenTelemetry library holds, and what it reads from a header, are parameters (`Library`), with
what they are documented to do (`Library.Documented`).
-/
import CommercePlayground.Propagation.Durable
import CommercePlayground.Propagation.TenantTheorems
import Mathlib.Algebra.Order.Ring.Nat

namespace CommercePlayground.Propagation

open Lib

/-! ## Baggage as a map -/

/-- `Baggage::get`. -/
def ContextBaggage.get (baggage : ContextBaggage) (key : Text) : Option Text :=
  (baggage.entries.find? fun entry => decide (entry.key = key)).map BaggageEntry.value

/-- The entries once one is set: in the place of the one of its key, or at the end. -/
def setEntry (entry : BaggageEntry) : List BaggageEntry → List BaggageEntry
  | [] => [entry]
  | first :: rest =>
    if first.key = entry.key then entry :: rest else first :: setEntry entry rest

theorem mem_setEntry {entry e : BaggageEntry} {entries : List BaggageEntry}
    (h : e ∈ setEntry entry entries) : e = entry ∨ e ∈ entries := by
  induction entries with
  | nil => exact .inl (List.mem_singleton.mp h)
  | cons first rest ih =>
    unfold setEntry at h
    split at h
    · rcases List.mem_cons.mp h with rfl | h
      · exact .inl rfl
      · exact .inr (List.mem_cons_of_mem first h)
    · rcases List.mem_cons.mp h with rfl | h
      · exact .inr List.mem_cons_self
      · exact (ih h).imp_right (List.mem_cons_of_mem first)

theorem setEntry_nodup {entry : BaggageEntry} {entries : List BaggageEntry}
    (h : (entries.map BaggageEntry.key).Nodup) :
    ((setEntry entry entries).map BaggageEntry.key).Nodup := by
  induction entries with
  | nil => simp [setEntry]
  | cons first rest ih =>
    obtain ⟨hfirst, hrest⟩ := List.nodup_cons.mp h
    unfold setEntry
    split
    · rename_i hkey
      exact List.nodup_cons.mpr ⟨hkey ▸ hfirst, hrest⟩
    · rename_i hkey
      refine List.nodup_cons.mpr ⟨fun hmem => ?_, ih hrest⟩
      obtain ⟨e, he, hsame⟩ := List.mem_map.mp hmem
      rcases mem_setEntry he with rfl | he
      · exact hkey hsame.symm
      · exact hfirst (hsame ▸ List.mem_map_of_mem he)

/-! ## The OpenTelemetry library -/

/-- What the library decides: whether its map takes these entries, and the baggage it reads
from the values of the header. -/
structure Library where
  room : List BaggageEntry → Bool
  extract : List Text → ContextBaggage

/-- `Baggage::insert_with_metadata`: what the map has no room for is left out. -/
def ContextBaggage.insert (library : Library) (baggage : ContextBaggage)
    (entry : BaggageEntry) : ContextBaggage :=
  if library.room (setEntry entry baggage.entries) then
    ⟨setEntry entry baggage.entries, setEntry_nodup baggage.distinct⟩
  else baggage

/-- The bytes that count towards the limit of the map. -/
def contentLength (entries : List BaggageEntry) : Nat :=
  (entries.map fun entry => (utf8 entry.key).length + (utf8 entry.value).length +
    (utf8 entry.metadata).length).sum

/-- Metadata as the web client lets it through, without escapes. -/
structure PlainMetadata (metadata : Text) : Prop where
  printable : Printable metadata
  comma : ',' ∉ metadata
  percent : '%' ∉ metadata
  length : (utf8 metadata).length ≤ 128

/-- A sanitized baggage with plain metadata. -/
structure ContextBaggage.Plain (baggage : ContextBaggage) : Prop where
  safe : ∀ entry ∈ baggage.entries, Shared.isSafeBaggageEntry entry.key entry.value = true
  metadata : ∀ entry ∈ baggage.entries, PlainMetadata entry.metadata

/-- A context whose sanitized baggage is plain. -/
def Context.Plain (context : Context) : Prop := (cloneBaggage context.baggage).Plain

/-- What the library is documented to do: its map takes what the W3C recommendation asks for,
a value is read without the blanks at its ends, and one that has none and no escape is read as
it was written. -/
structure Library.Documented (library : Library) : Prop where
  room : ∀ entries, entries.length ≤ 64 → contentLength entries ≤ 8192 →
    library.room entries = true
  metadata : ∀ baggage : ContextBaggage, baggage.Plain →
    ∀ entry ∈ (library.extract [writeBaggage baggage]).entries, PlainMetadata entry.metadata
  reads : ∀ baggage : ContextBaggage, baggage.Plain → ∀ entry ∈ baggage.entries,
    '%' ∉ entry.value → trim entry.value = entry.value →
    (library.extract [writeBaggage baggage]).get entry.key = some entry.value
  trimmed : ∀ values, ∀ entry ∈ (library.extract values).entries, trim entry.value = entry.value

/-! ## The shared library -/

namespace Shared

variable (library : Library)

/-- `extract_context`: `span` is what the library reads from `traceparent`. -/
def extractContext (span : SpanContext) (headers : TenantHeaders) : Context :=
  withSafeBaggage ⟨span, library.extract headers.baggage⟩

/-- `with_safe_parent_baggage`. -/
def withSafeParentBaggage (context parent : Context) : Context :=
  { context with
    baggage := parent.baggage.entries.foldl (fun baggage entry =>
      if isSafeBaggageEntry entry.key entry.value then baggage.insert library entry
      else baggage) (cloneBaggage context.baggage) }

/-- `extend_baggage`. -/
def extendBaggage (context : Context) (values : List (Text × Text)) : Context :=
  { context with
    baggage := values.foldl (fun baggage value =>
      if isSafeBaggageEntry value.1 value.2 then baggage.insert library ⟨value.1, value.2, []⟩
      else baggage) (cloneBaggage context.baggage) }

def userTierKey : Text := "user.tier".toList

def customerSegmentKey : Text := "customer.segment".toList

def regionKey : Text := "region".toList

def requestPriorityKey : Text := "request.priority".toList

def sessionKey : Text := "session.id".toList

def featureVariantKey : Text := "feature.variant".toList

/-- One field of the loop in `with_business_context_from_parent`. -/
def withDefault (context : Context) (field : Text × Text) : Context :=
  if (context.baggage.get field.1).isNone then extendBaggage library context [field]
  else context

/-- `with_business_context_from_parent`. -/
def withBusinessContextFromParent (context parent : Context)
    (tenant tier segment region priority : Text) : Context :=
  [(userTierKey, tier), (customerSegmentKey, segment), (regionKey, region),
    (requestPriorityKey, priority)].foldl (withDefault library)
      (extendBaggage library (withSafeParentBaggage library context parent)
        [(tenantBaggageKey, tenant)])

end Shared

end CommercePlayground.Propagation
