import XdsRelay.Cache.Typed

/-! # Type safety of the stored values

Every call of `cache.go` on the `cache` that stores a `ResponseCache` computes the typed call and
stores its result: the keys stay `string`s and the values `Resource`s with a request map. So
from `NewCache` on, no type assertion fails, the `OnEvicted` wrapper never panics, and
`AddRequest` never writes to a nil map.
-/

namespace XdsRelay

variable {Request Response : Type}

theorem string_injective : Function.Injective LruKey.string := fun _ _ equal => LruKey.string.inj equal

/-- The wrapper passes typed evictions on unchanged. -/
@[simp] theorem onEvictedThen_typed {α : Type} (value : α)
    (evicted : List (String × CacheEntry Request Response)) :
    onEvictedThen value (evicted.map (Prod.map LruKey.string CacheEntry.toValue)) =
      ⟨evicted.map evictedPair, .ok value⟩ := by
  induction evicted with
  | nil => rfl
  | cons head tail induction =>
      simp only [List.map_cons, Prod.map_apply, onEvictedThen, LruKey.asString,
        CacheEntry.asResource_toValue, induction]
      rfl

namespace ResponseCache

variable (s : ResponseCache Request Response) (key : String)

@[simp] theorem cache_toCache : s.toCache.cache = s.lru.map LruKey.string CacheEntry.toValue := rfl

@[simp] theorem ttl_toCache : s.toCache.ttl = s.ttl := rfl

@[simp] theorem withLru_toCache (lru : Lru.Cache String (CacheEntry Request Response)) :
    s.toCache.withLru (lru.map LruKey.string CacheEntry.toValue) = (s.withLru lru).toCache := rfl

@[simp] theorem getExpirationTime_toCache (now : Time) :
    s.toCache.getExpirationTime now = s.getExpirationTime now := rfl

variable (lru : Lru.Cache String (CacheEntry Request Response))

@[simp] theorem get_toCache :
    (lru.map LruKey.string CacheEntry.toValue).get (.string key) =
      ((lru.get key).1.map LruKey.string CacheEntry.toValue, (lru.get key).2.map CacheEntry.toValue) :=
  Lru.Cache.get_map string_injective _ _ _

@[simp] theorem remove_toCache :
    (lru.map LruKey.string CacheEntry.toValue).remove (.string key) =
      ((lru.remove key).1.map LruKey.string CacheEntry.toValue,
        (lru.remove key).2.map (Prod.map LruKey.string CacheEntry.toValue)) :=
  Lru.Cache.remove_map string_injective _ _ _

/-- `Add` of a `Resource` with a request map, in the form the operations build it. -/
@[simp] theorem add_toCache (resp : Option Response) (requests : Finset Request) (time : Time) :
    (lru.map LruKey.string CacheEntry.toValue).add (.string key)
        (.resource ⟨resp, some requests, time⟩) =
      ((lru.add key ⟨resp, requests, time⟩).1.map LruKey.string CacheEntry.toValue,
        (lru.add key ⟨resp, requests, time⟩).2.map (Prod.map LruKey.string CacheEntry.toValue)) :=
  Lru.Cache.add_map string_injective _ _ _ (⟨resp, requests, time⟩ : CacheEntry Request Response)

/-- The faithful lookup of a typed state reads the typed entry. -/
@[simp] theorem find_toCache :
    s.toCache.find key = (s.find key).map CacheEntry.toResource := by
  simp only [Cache.find, cache_toCache, Lru.Cache.map, find]
  rw [Lru.lookup_map string_injective]
  cases Lru.lookup key s.lru.entries <;> rfl

theorem fetchLookup_toCache :
    s.toCache.fetchLookup key =
      ((s.fetchLookup key).1.toCache, (s.fetchLookup key).2.map CacheEntry.toValue) := by
  simp [Cache.fetchLookup, fetchLookup]

theorem fetchRecheck_toCache [DecidableEq Request] (now : Time) :
    s.toCache.fetchRecheck key now =
      ((s.fetchRecheck key now).next.toCache,
        ⟨(s.fetchRecheck key now).evicted.map evictedPair,
          .ok ((s.fetchRecheck key now).value.map CacheEntry.toResource, none)⟩) := by
  simp only [Cache.fetchRecheck, fetchRecheck, cache_toCache, get_toCache]
  cases (s.lru.get key).2 with
  | none => rfl
  | some entry =>
      simp only [Option.map_some', CacheEntry.asResource_toValue]
      by_cases expired : entry.isExpired now
      · simp only [CacheEntry.isExpired] at expired
        simp only [expired, if_true, CacheEntry.isExpired, withLru_toCache, cache_toCache,
          remove_toCache, onEvictedThen_typed]
        rfl
      · simp only [CacheEntry.isExpired, Bool.not_eq_true] at expired
        simp only [expired, CacheEntry.isExpired]
        rfl

theorem fetch_toCache [DecidableEq Request] (firstNow secondNow : Time) :
    s.toCache.fetch key firstNow secondNow =
      ((s.fetch key firstNow secondNow).next.toCache,
        ⟨(s.fetch key firstNow secondNow).evicted.map evictedPair,
          .ok ((s.fetch key firstNow secondNow).value.1.map CacheEntry.toResource,
            (s.fetch key firstNow secondNow).value.2)⟩) := by
  simp only [Cache.fetch, fetch, fetchLookup_toCache]
  cases (s.fetchLookup key).2 with
  | none => rfl
  | some entry =>
      simp only [Option.map_some', CacheEntry.asResource_toValue]
      by_cases expired : entry.isExpired firstNow
      · simp only [CacheEntry.isExpired] at expired
        simp only [expired, if_true, CacheEntry.isExpired, fetchRecheck_toCache]
        rfl
      · simp only [CacheEntry.isExpired, Bool.not_eq_true] at expired
        simp only [expired, CacheEntry.isExpired]
        rfl

variable [DecidableEq Request]

theorem setResponse_toCache (response : Response) (now : Time) :
    s.toCache.setResponse key response now =
      ((s.setResponse key response now).next.toCache,
        ⟨(s.setResponse key response now).evicted.map evictedPair,
          .ok ((s.setResponse key response now).value, none)⟩) := by
  simp only [Cache.setResponse, setResponse, cache_toCache, get_toCache]
  cases (s.lru.get key).2 with
  | none =>
      simp only [withLru_toCache, getExpirationTime_toCache, cache_toCache, add_toCache,
        onEvictedThen_typed]
      rfl
  | some entry =>
      simp only [Option.map_some', CacheEntry.asResource_toValue, CacheEntry.resp_toResource,
        CacheEntry.requests_toResource, CacheEntry.expirationTime_toResource, withLru_toCache,
        getExpirationTime_toCache, cache_toCache, add_toCache, onEvictedThen_typed]

theorem addRequest_toCache (req : Request) (now : Time) :
    s.toCache.addRequest key req now =
      ((s.addRequest key req now).next.toCache,
        ⟨(s.addRequest key req now).evicted.map evictedPair, .ok none⟩) := by
  simp only [Cache.addRequest, addRequest, cache_toCache, get_toCache]
  cases (s.lru.get key).2 with
  | none =>
      simp only [withLru_toCache, getExpirationTime_toCache, cache_toCache, add_toCache,
        onEvictedThen_typed]
      rfl
  | some entry =>
      simp only [Option.map_some', CacheEntry.asResource_toValue, CacheEntry.resp_toResource,
        CacheEntry.requests_toResource, CacheEntry.expirationTime_toResource, withLru_toCache,
        cache_toCache, add_toCache, onEvictedThen_typed]

theorem deleteRequest_toCache (req : Request) :
    s.toCache.deleteRequest key req =
      ((s.deleteRequest key req).next.toCache,
        ⟨(s.deleteRequest key req).evicted.map evictedPair, .ok none⟩) := by
  simp only [Cache.deleteRequest, deleteRequest, cache_toCache, get_toCache]
  cases (s.lru.get key).2 with
  | none => rfl
  | some entry =>
      simp only [Option.map_some', CacheEntry.asResource_toValue, CacheEntry.resp_toResource,
        CacheEntry.requests_toResource, CacheEntry.expirationTime_toResource, Option.map_some',
        withLru_toCache, cache_toCache, add_toCache, onEvictedThen_typed]

/-- One call of `cache.go` on a typed state is the typed call. -/
theorem step_toCache (call : Call Request Response) :
    s.toCache.step call =
      ((s.step call).next.toCache, ⟨(s.step call).evicted.map evictedPair, .ok (s.step call).value⟩) := by
  cases call with
  | fetch key firstNow secondNow =>
      simp only [Cache.step, step, fetch_toCache]
      rfl
  | setResponse key response now =>
      simp only [Cache.step, step, setResponse_toCache]
      rfl
  | addRequest key req now =>
      simp only [Cache.step, step, addRequest_toCache]
      rfl
  | deleteRequest key req =>
      simp only [Cache.step, step, deleteRequest_toCache]
      rfl

theorem run_toCache (calls : List (Call Request Response)) :
    s.toCache.run calls = (s.run calls).toCache := by
  induction calls generalizing s with
  | nil => rfl
  | cons call calls induction =>
      simp only [Cache.run, run, step_toCache, induction]

/-- A typed call returns no error but a missing key's. -/
theorem error_step (call : Call Request Response) (key : String) :
    (s.step call).value.error ≠ some (.unableToCast key) := by
  cases call with
  | fetch key firstNow secondNow =>
      simp only [step, Effect.map, Return.error, fetch, fetchLookup]
      cases (s.lru.get key).2 with
      | none => simp
      | some entry =>
          by_cases expired : entry.isExpired firstNow <;> simp [expired, Effect.map]
  | setResponse key response now => simp [step, Effect.map, Return.error]
  | addRequest key req now => simp [step, Effect.map, Return.error]
  | deleteRequest key req => simp [step, Effect.map, Return.error]

end ResponseCache

/-- What `cache.go` relies on when it asserts types: every key stored is a `string`, and every
value a `Resource` whose `Requests` map is not nil. -/
def Cache.WellTyped (c : Cache Request Response) : Prop :=
  ∀ entry ∈ c.cache.entries, (∃ key, entry.1 = .string key) ∧
    ∃ resource requests, entry.2 = .resource resource ∧ resource.requests = some requests

/-- A call ended without a panic and without the error of a failed type assertion. -/
def Outcome.TypeSafe (outcome : Outcome Request Response (Return Request Response)) : Prop :=
  ∃ result, outcome.result = .ok result ∧ ∀ key, result.error ≠ some (.unableToCast key)

theorem ResponseCache.wellTyped_toCache (s : ResponseCache Request Response) :
    s.toCache.WellTyped := by
  intro entry member
  obtain ⟨⟨key, cacheEntry⟩, -, rfl⟩ := List.mem_map.mp member
  exact ⟨⟨key, rfl⟩, cacheEntry.toResource, cacheEntry.requests, rfl, rfl⟩

/-- `NewCache` succeeds exactly on a nonnegative `ttl`, with the empty typed state. -/
theorem newCache_eq_ok {maxEntries : Int} {ttl : Duration} {c : Cache Request Response}
    (created : newCache maxEntries ttl = .ok c) :
    0 ≤ ttl ∧ c = (ResponseCache.empty maxEntries ttl).toCache := by
  unfold newCache at created
  split at created
  · cases created
  · rename_i nonnegative
    cases created
    exact ⟨le_of_not_lt nonnegative, rfl⟩

variable [DecidableEq Request]

theorem ResponseCache.typeSafe_outcomes (s : ResponseCache Request Response)
    (calls : List (Call Request Response)) :
    ∀ outcome ∈ s.toCache.outcomes calls, outcome.TypeSafe := by
  induction calls generalizing s with
  | nil => simp [Cache.outcomes]
  | cons call calls induction =>
      intro outcome member
      simp only [Cache.outcomes, step_toCache, List.mem_cons] at member
      rcases member with first | later
      · exact ⟨(s.step call).value, by rw [first], error_step s call⟩
      · exact induction _ outcome later

/-- From `NewCache` on, every stored key is a `string` and every stored value a `Resource` with
a request map, so no call returns the error of a failed assertion, the eviction wrapper never
panics, and `AddRequest` never writes to a nil map. -/
theorem stored_values_well_typed {maxEntries : Int} {ttl : Duration} {c : Cache Request Response}
    (created : newCache maxEntries ttl = .ok c) (calls : List (Call Request Response)) :
    (c.run calls).WellTyped ∧ ∀ outcome ∈ c.outcomes calls, outcome.TypeSafe := by
  obtain ⟨-, rfl⟩ := newCache_eq_ok created
  rw [ResponseCache.run_toCache]
  exact ⟨ResponseCache.wellTyped_toCache _, ResponseCache.typeSafe_outcomes _ calls⟩

/-- A run that fills a one-entry cache, evicts and reaps. -/
theorem stored_values_well_typed_after_eviction :
    (newCache 1 10 : Except CacheError (Cache Nat Nat)) = .ok (ResponseCache.empty 1 10).toCache ∧
      ((ResponseCache.empty 1 10 : ResponseCache Nat Nat).toCache.run
          [.setResponse "a" 7 0, .addRequest "b" 1 5, .fetch "b" 20 20]).WellTyped := by
  have created : (newCache 1 10 : Except CacheError (Cache Nat Nat)) =
      .ok (ResponseCache.empty 1 10).toCache := rfl
  exact ⟨created,
    (stored_values_well_typed created [.setResponse "a" 7 0, .addRequest "b" 1 5, .fetch "b" 20 20]).1⟩

end XdsRelay
