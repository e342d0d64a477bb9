/-
CommercePlayground.Pricing.Cache — `calculate_quote` over the shared cache.

A call looks its request up and answers from the cache, or computes the quote
and stores it; many calls are under way at once. Redis may be away, fail, expire
or evict an entry at any time. Beside each quote stands the request it was
computed for, which the service itself does not keep.
-/
import CommercePlayground.Lib.Transition
import CommercePlayground.Pricing.Quote

namespace CommercePlayground.Pricing

open Lib

/-- A quote in the cache, and the request it was computed for. -/
structure Entry where
  quote : CachedQuote
  origin : QuoteRequest

/-- A call that missed. -/
structure Pending where
  request : QuoteRequest
  useCache : Bool

/-- A quote that was returned. -/
structure Answer where
  request : QuoteRequest
  quote : CachedQuote
  origin : QuoteRequest

structure CacheState where
  cache : List (Text × Entry)
  pending : List Pending
  answers : List Answer

/-- `state.redis.get`: no connection, an error, or what the key holds. -/
inductive RedisGet where
  | absent | failed | reached
  deriving DecidableEq

/-- The circumstances of a lookup. -/
structure Lookup where
  request : QuoteRequest
  /-- Whether the strategy is `cached`. -/
  useCache : Bool
  get : RedisGet
  now : Int
  /-- `state.postgres.pricing_version`. -/
  version : StatusResult Text

inductive CacheAction where
  | lookup (l : Lookup)
  /-- The call at an index computes its quote, and Redis stores it or not. -/
  | compute (call : Nat) (format : Format) (db : Database) (stored : Bool)
  | evict (key : Text)

/-- The entry `redis.get` returns. -/
def Lookup.entry (l : Lookup) (s : CacheState) : Option Entry :=
  if l.useCache ∧ l.get = .reached then s.cache.lookup (cacheKey l.request) else none

/-- `calculate_quote` up to the answer of the cache. -/
def lookupStep (l : Lookup) (s : CacheState) : CacheState :=
  let missed := { s with pending := s.pending ++ [⟨l.request, l.useCache⟩] }
  match validateRequest l.request with
  | .error _ => s
  | .ok () =>
    match l.entry s with
    | none => missed
    | some entry =>
      match entry.quote.consumeAt l.now with
      | .error _ => missed
      | .ok () =>
        match l.version with
        | .error _ => s
        | .ok version =>
          if entry.quote.pricingVersion = version then
            { s with answers := s.answers ++ [⟨l.request, entry.quote, entry.origin⟩] }
          else missed

/-- `set_ex` replaces what the key holds. -/
def store (key : Text) (entry : Entry) (cache : List (Text × Entry)) : List (Text × Entry) :=
  (key, entry) :: cache.filter fun p => decide (p.1 ≠ key)

/-- `calculate_quote` after a miss. -/
def computeStep (p : Pending) (format : Format) (db : Database) (stored : Bool)
    (s : CacheState) : CacheState :=
  match calculateQuote format db p.request with
  | .error _ => s
  | .ok quote =>
    { s with
      cache := if p.useCache && stored then store (cacheKey p.request) ⟨quote, p.request⟩ s.cache
        else s.cache
      answers := s.answers ++ [⟨p.request, quote, p.request⟩] }

/-- One step of the calls and the cache. -/
def cacheStep (s : CacheState) : CacheAction → Option CacheState
  | .lookup l => some (lookupStep l s)
  | .compute i format db stored =>
    (s.pending[i]?).map fun p =>
      computeStep p format db stored { s with pending := s.pending.eraseIdx i }
  | .evict key => some { s with cache := s.cache.filter fun p => decide (p.1 ≠ key) }

end CommercePlayground.Pricing
