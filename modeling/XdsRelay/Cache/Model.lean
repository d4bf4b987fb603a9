import XdsRelay.Lru
import Mathlib.Data.Finset.Basic

/-! # The response cache

`internal/app/cache/cache.go`. The `lru.Cache` holds `interface{}` keys and values, so every
operation asserts their dynamic types before use; `LruKey` and `LruValue` keep the other dynamic
types in the model, so that the failed assertions are branches here too. A call that panics
reports the panic in its `Outcome`, after the state changes made before it.
-/

namespace XdsRelay

/-- `time.Time`, as nanoseconds after the zero `Time`. -/
abbrev Time := Int

/-- `time.Duration`, in nanoseconds. -/
abbrev Duration := Int

/-- `Resource`. `Request` stands for `*v2.DiscoveryRequest`, which the cache only compares by
address, and `Response` for `v2.DiscoveryResponse`, which it never reads. -/
structure Resource (Request Response : Type) where
  /-- `Resp`; `none` is the nil pointer. -/
  resp : Option Response
  /-- `Requests`, a `map[*v2.DiscoveryRequest]bool` whose values are all `true`; `none` is the
  nil map. -/
  requests : Option (Finset Request)
  expirationTime : Time
  deriving DecidableEq

variable {Request Response : Type}

/-- `Resource{}`. -/
def Resource.zero : Resource Request Response := ⟨none, none, 0⟩

/-- `isExpired`: the zero `Time` never expires. -/
def Resource.isExpired (resource : Resource Request Response) (currentTime : Time) : Bool :=
  if resource.expirationTime = 0 then false else resource.expirationTime < currentTime

/-- A `lru.Key`, an `interface{}`; `other` is a key of another dynamic type than `string`. -/
inductive LruKey
  | string (value : String)
  | other (value : Nat)
  deriving DecidableEq

/-- A value of the `lru.Cache`, an `interface{}`; `other` is one of another dynamic type than
`Resource`. -/
inductive LruValue (Request Response : Type)
  | resource (value : Resource Request Response)
  | other (value : Nat)
  deriving DecidableEq

/-- The type assertion `cacheKey.(string)`. -/
def LruKey.asString : LruKey → Option String
  | .string value => some value
  | .other _ => none

/-- The type assertion `value.(Resource)`. -/
def LruValue.asResource : LruValue Request Response → Option (Resource Request Response)
  | .resource value => some value
  | .other _ => none

/-- The errors the cache returns. -/
inductive CacheError
  | ttlNegative (ttl : Duration)
  | noValueFound (key : String)
  | unableToCast (key : String)
  deriving DecidableEq

/-- The error's text. `durationString` is `Duration.String` from the `time` package, which
formats the `%v` of a `Duration`. -/
def CacheError.message (durationString : Duration → String) : CacheError → String
  | .ttlNegative ttl => "ttl must be nonnegative but was set to " ++ durationString ttl
  | .noValueFound key => "no value found for key: " ++ key
  | .unableToCast key => "unable to cast cache value to type resource for key: " ++ key

/-- What stops a call with a panic. -/
inductive Panic (Request Response : Type)
  /-- `Unable to cast key %v to string upon eviction`. -/
  | keyCast (cacheKey : LruKey)
  /-- `Unable to cast value %v to resource upon eviction`. -/
  | valueCast (cacheValue : LruValue Request Response)
  /-- The runtime's `assignment to entry in nil map`. -/
  | nilMapWrite
  deriving DecidableEq

/-- How a call ends: the calls of the `onEvicted` callback made inside it, in order, and then its
return value or the panic that stopped it. -/
structure Outcome (Request Response α : Type) where
  onEvicted : List (String × Resource Request Response)
  result : Except (Panic Request Response) α

/-- A call that returns `value` and made no eviction. -/
def Outcome.returning {α : Type} (value : α) : Outcome Request Response α := ⟨[], .ok value⟩

def Outcome.map {α β : Type} (f : α → β) (outcome : Outcome Request Response α) :
    Outcome Request Response β :=
  ⟨outcome.onEvicted, outcome.result.map f⟩

/-- The `OnEvicted` function that `NewCache` installs, run on the pairs an `lru.Cache` call
evicted: each key must be a `string` and each value a `Resource`, else it panics; the pair is
passed on to `onEvicted`. The call then returns `value`: the user's `onEvicted` is taken to
return. A panic of it stops the goroutine whose call made it; `MutexWorld` takes it as a
parameter. -/
def onEvictedThen {α : Type} (value : α) :
    List (LruKey × LruValue Request Response) → Outcome Request Response α
  | [] => .returning value
  | (cacheKey, cacheValue) :: rest =>
      match cacheKey.asString, cacheValue.asResource with
      | some key, some resource =>
          let after := onEvictedThen value rest
          ⟨(key, resource) :: after.onEvicted, after.result⟩
      | none, _ => ⟨[], .error (.keyCast cacheKey)⟩
      | some _, none => ⟨[], .error (.valueCast cacheValue)⟩

/-- `cache`: the `lru.Cache` and the `ttl`. The mutex `cacheMu` appears in
`XdsRelay.Concurrency`, where each locked section is one step. -/
structure Cache (Request Response : Type) where
  cache : Lru.Cache LruKey (LruValue Request Response)
  ttl : Duration
  deriving DecidableEq

/-- `NewCache`. The `onEvicted` callback is not stored: every call reports the calls it made of
it in its `Outcome`, and `onEvicted` is taken to return. -/
def newCache (maxEntries : Int) (ttl : Duration) : Except CacheError (Cache Request Response) :=
  if ttl < 0 then .error (.ttlNegative ttl)
  else .ok { cache := { maxEntries := maxEntries, entries := [] }, ttl := ttl }

/-- What `Fetch` returns: the `*Resource` (`none` is nil) and the error. -/
abbrev FetchResult (Request Response : Type) := Option (Resource Request Response) × Option CacheError

namespace Cache

/-- `getExpirationTime`: the zero `Time` when the `ttl` is not positive. -/
def getExpirationTime (c : Cache Request Response) (currentTime : Time) : Time :=
  if c.ttl > 0 then currentTime + c.ttl else 0

def withLru (c : Cache Request Response) (cache : Lru.Cache LruKey (LruValue Request Response)) :
    Cache Request Response :=
  { c with cache := cache }

/-- The section of `Fetch` under the read lock: `c.cache.Get(key)`. -/
def fetchLookup (c : Cache Request Response) (key : String) :
    Cache Request Response × Option (LruValue Request Response) :=
  let (cache, value) := c.cache.get (.string key)
  (c.withLru cache, value)

/-- The section of `Fetch` under the write lock, entered when the resource the first look found
was expired at `firstNow`; `now` is the second reading of `time.Now()`. -/
def fetchRecheck [DecidableEq Request] (c : Cache Request Response) (key : String) (now : Time) :
    Cache Request Response × Outcome Request Response (FetchResult Request Response) :=
  let (cache, found) := c.cache.get (.string key)
  let c := c.withLru cache
  match found with
  | none => (c, .returning (none, none))
  | some value =>
      match value.asResource with
      | none => (c, .returning (none, some (.unableToCast key)))
      | some resource =>
          if resource.isExpired now then
            let (cache, evicted) := c.cache.remove (.string key)
            (c.withLru cache, onEvictedThen (none, none) evicted)
          else (c, .returning (some resource, none))

/-- `Fetch`, run alone; `firstNow` and `secondNow` are its two readings of `time.Now()`. -/
def fetch [DecidableEq Request] (c : Cache Request Response) (key : String)
    (firstNow secondNow : Time) :
    Cache Request Response × Outcome Request Response (FetchResult Request Response) :=
  let (c, found) := c.fetchLookup key
  match found with
  | none => (c, .returning (none, some (.noValueFound key)))
  | some value =>
      match value.asResource with
      | none => (c, .returning (none, some (.unableToCast key)))
      | some resource =>
          if resource.isExpired firstNow then c.fetchRecheck key secondNow
          else (c, .returning (some resource, none))

/-- `FetchReadOnly`: `Fetch`, with the nil pointer replaced by `Resource{}`. -/
def fetchReadOnly [DecidableEq Request] (c : Cache Request Response) (key : String)
    (firstNow secondNow : Time) :
    Cache Request Response × Outcome Request Response (Resource Request Response × Option CacheError) :=
  let (c, outcome) := c.fetch key firstNow secondNow
  (c, outcome.map fun (resource, error) => (resource.getD .zero, error))

/-- `SetResponse`; `now` is its reading of `time.Now()`. It returns the `Requests` map. -/
def setResponse [DecidableEq Request] (c : Cache Request Response) (key : String)
    (response : Response) (now : Time) :
    Cache Request Response × Outcome Request Response (Option (Finset Request) × Option CacheError) :=
  let (cache, found) := c.cache.get (.string key)
  let c := c.withLru cache
  match found with
  | none =>
      let resource : Resource Request Response :=
        { resp := some response, expirationTime := c.getExpirationTime now, requests := some ∅ }
      let (cache, evicted) := c.cache.add (.string key) (.resource resource)
      (c.withLru cache, onEvictedThen (none, none) evicted)
  | some value =>
      match value.asResource with
      | none => (c, .returning (none, some (.unableToCast key)))
      | some resource =>
          let resource :=
            { resource with resp := some response, expirationTime := c.getExpirationTime now }
          let (cache, evicted) := c.cache.add (.string key) (.resource resource)
          (c.withLru cache, onEvictedThen (resource.requests, none) evicted)

/-- `AddRequest`; `now` is its reading of `time.Now()`, made only when it creates the entry. -/
def addRequest [DecidableEq Request] (c : Cache Request Response) (key : String) (req : Request)
    (now : Time) : Cache Request Response × Outcome Request Response (Option CacheError) :=
  let (cache, found) := c.cache.get (.string key)
  let c := c.withLru cache
  match found with
  | none =>
      let resource : Resource Request Response :=
        { requests := some {req}, expirationTime := c.getExpirationTime now, resp := none }
      let (cache, evicted) := c.cache.add (.string key) (.resource resource)
      (c.withLru cache, onEvictedThen none evicted)
  | some value =>
      match value.asResource with
      | none => (c, .returning (some (.unableToCast key)))
      | some resource =>
          match resource.requests with
          | none => (c, ⟨[], .error .nilMapWrite⟩)
          | some requests =>
              let resource := { resource with requests := some (insert req requests) }
              let (cache, evicted) := c.cache.add (.string key) (.resource resource)
              (c.withLru cache, onEvictedThen none evicted)

/-- `DeleteRequest`. Deleting from a nil map does nothing. -/
def deleteRequest [DecidableEq Request] (c : Cache Request Response) (key : String)
    (req : Request) : Cache Request Response × Outcome Request Response (Option CacheError) :=
  let (cache, found) := c.cache.get (.string key)
  let c := c.withLru cache
  match found with
  | none => (c, .returning none)
  | some value =>
      match value.asResource with
      | none => (c, .returning (some (.unableToCast key)))
      | some resource =>
          let resource := { resource with requests := resource.requests.map (·.erase req) }
          let (cache, evicted) := c.cache.add (.string key) (.resource resource)
          (c.withLru cache, onEvictedThen none evicted)

end Cache

/-! ## Runs -/

/-- One call of the `Cache` interface, with the clock readings it makes. -/
inductive Call (Request Response : Type)
  | fetch (key : String) (firstNow secondNow : Time)
  | setResponse (key : String) (response : Response) (now : Time)
  | addRequest (key : String) (req : Request) (now : Time)
  | deleteRequest (key : String) (req : Request)
  deriving DecidableEq

/-- What a call returns. -/
inductive Return (Request Response : Type)
  | fetch (result : FetchResult Request Response)
  | setResponse (requests : Option (Finset Request)) (error : Option CacheError)
  | addRequest (error : Option CacheError)
  | deleteRequest (error : Option CacheError)
  deriving DecidableEq

/-- The key a call names. -/
def Call.key : Call Request Response → String
  | .fetch key _ _ | .setResponse key _ _ | .addRequest key _ _ | .deleteRequest key _ => key

@[simp] theorem Call.key_fetch (key : String) (firstNow secondNow : Time) :
    (Call.fetch key firstNow secondNow : Call Request Response).key = key := rfl

@[simp] theorem Call.key_setResponse (key : String) (response : Response) (now : Time) :
    (Call.setResponse key response now : Call Request Response).key = key := rfl

@[simp] theorem Call.key_addRequest (key : String) (req : Request) (now : Time) :
    (Call.addRequest key req now : Call Request Response).key = key := rfl

@[simp] theorem Call.key_deleteRequest (key : String) (req : Request) :
    (Call.deleteRequest key req : Call Request Response).key = key := rfl

/-- The error a call returned. -/
def Return.error : Return Request Response → Option CacheError
  | .fetch (_, error) | .setResponse _ error | .addRequest error | .deleteRequest error => error

namespace Cache

variable [DecidableEq Request]

def step (c : Cache Request Response) :
    Call Request Response → Cache Request Response × Outcome Request Response (Return Request Response)
  | .fetch key firstNow secondNow =>
      let (c, outcome) := c.fetch key firstNow secondNow
      (c, outcome.map .fetch)
  | .setResponse key response now =>
      let (c, outcome) := c.setResponse key response now
      (c, outcome.map fun (requests, error) => .setResponse requests error)
  | .addRequest key req now =>
      let (c, outcome) := c.addRequest key req now
      (c, outcome.map .addRequest)
  | .deleteRequest key req =>
      let (c, outcome) := c.deleteRequest key req
      (c, outcome.map .deleteRequest)

/-- The state after a run of calls, one after another. -/
def run (c : Cache Request Response) : List (Call Request Response) → Cache Request Response
  | [] => c
  | call :: calls => (c.step call).1.run calls

/-- The outcomes of the calls of a run, in order. -/
def outcomes (c : Cache Request Response) :
    List (Call Request Response) → List (Outcome Request Response (Return Request Response))
  | [] => []
  | call :: calls => (c.step call).2 :: (c.step call).1.outcomes calls

/-- The resource `key` holds, when the value stored under it is one. -/
def find (c : Cache Request Response) (key : String) : Option (Resource Request Response) :=
  (Lru.lookup (.string key) c.cache.entries).bind LruValue.asResource

end Cache

end XdsRelay
