import XdsRelay.Cache.Model

/-! # The cache as its callers see it

Every value the response cache stores is a `Resource` under a `string` key, with a request map
that exists. `ResponseCache` keeps its values typed: a `CacheEntry` has its request set by
construction, and no operation asserts a dynamic type. `XdsRelay.Cache.TypeSafety` shows that
`cache.go` computes these operations.
-/

namespace XdsRelay

/-- A cache entry: the stored `Resource` whose `Requests` map is not nil. -/
structure CacheEntry (Request Response : Type) where
  resp : Option Response
  requests : Finset Request
  expirationTime : Time
  deriving DecidableEq

variable {Request Response : Type}

namespace CacheEntry

def toResource (entry : CacheEntry Request Response) : Resource Request Response :=
  ⟨entry.resp, some entry.requests, entry.expirationTime⟩

/-- The value stored in the `lru.Cache` for an entry. -/
def toValue (entry : CacheEntry Request Response) : LruValue Request Response :=
  .resource entry.toResource

/-- `isExpired` of the stored `Resource`. -/
def isExpired (entry : CacheEntry Request Response) (currentTime : Time) : Bool :=
  entry.toResource.isExpired currentTime

@[simp] theorem asResource_toValue (entry : CacheEntry Request Response) :
    entry.toValue.asResource = some entry.toResource := rfl

@[simp] theorem resp_toResource (entry : CacheEntry Request Response) :
    entry.toResource.resp = entry.resp := rfl

@[simp] theorem requests_toResource (entry : CacheEntry Request Response) :
    entry.toResource.requests = some entry.requests := rfl

@[simp] theorem expirationTime_toResource (entry : CacheEntry Request Response) :
    entry.toResource.expirationTime = entry.expirationTime := rfl

theorem toResource_injective :
    Function.Injective (toResource : CacheEntry Request Response → Resource Request Response) := by
  rintro ⟨resp, requests, time⟩ ⟨resp', requests', time'⟩ equal
  simp only [toResource, Resource.mk.injEq, Option.some.injEq] at equal
  simp [equal]

end CacheEntry

/-- A key and entry as the `onEvicted` callback receives them. -/
def evictedPair (pair : String × CacheEntry Request Response) : String × Resource Request Response :=
  (pair.1, pair.2.toResource)

/-- The response cache over typed entries. -/
structure ResponseCache (Request Response : Type) where
  lru : Lru.Cache String (CacheEntry Request Response)
  ttl : Duration
  deriving DecidableEq

/-- What a call on a `ResponseCache` does: the state after it, the entries it evicted, in order,
and its return value. -/
structure Effect (Request Response α : Type) where
  next : ResponseCache Request Response
  evicted : List (String × CacheEntry Request Response)
  value : α

def Effect.map {α β : Type} (f : α → β) (effect : Effect Request Response α) :
    Effect Request Response β :=
  ⟨effect.next, effect.evicted, f effect.value⟩

namespace ResponseCache

/-- The state `NewCache` builds. -/
def empty (maxEntries : Int) (ttl : Duration) : ResponseCache Request Response :=
  ⟨⟨maxEntries, []⟩, ttl⟩

/-- The `cache` that stores this state. -/
def toCache (s : ResponseCache Request Response) : Cache Request Response :=
  ⟨s.lru.map LruKey.string CacheEntry.toValue, s.ttl⟩

def withLru (s : ResponseCache Request Response) (lru : Lru.Cache String (CacheEntry Request Response)) :
    ResponseCache Request Response :=
  { s with lru := lru }

def getExpirationTime (s : ResponseCache Request Response) (currentTime : Time) : Time :=
  if s.ttl > 0 then currentTime + s.ttl else 0

/-- The entry of `key`. -/
def find (s : ResponseCache Request Response) (key : String) : Option (CacheEntry Request Response) :=
  Lru.lookup key s.lru.entries

def fetchLookup (s : ResponseCache Request Response) (key : String) :
    ResponseCache Request Response × Option (CacheEntry Request Response) :=
  let (lru, found) := s.lru.get key
  (s.withLru lru, found)

def fetchRecheck (s : ResponseCache Request Response) (key : String) (now : Time) :
    Effect Request Response (Option (CacheEntry Request Response)) :=
  let (lru, found) := s.lru.get key
  let s := s.withLru lru
  match found with
  | none => ⟨s, [], none⟩
  | some entry =>
      if entry.isExpired now then
        let (lru, evicted) := s.lru.remove key
        ⟨s.withLru lru, evicted, none⟩
      else ⟨s, [], some entry⟩

def fetch (s : ResponseCache Request Response) (key : String) (firstNow secondNow : Time) :
    Effect Request Response (Option (CacheEntry Request Response) × Option CacheError) :=
  let (s, found) := s.fetchLookup key
  match found with
  | none => ⟨s, [], none, some (.noValueFound key)⟩
  | some entry =>
      if entry.isExpired firstNow then (s.fetchRecheck key secondNow).map (·, none)
      else ⟨s, [], some entry, none⟩

variable [DecidableEq Request]

/-- `SetResponse`, returning the request set of the entry it updated. -/
def setResponse (s : ResponseCache Request Response) (key : String) (response : Response)
    (now : Time) : Effect Request Response (Option (Finset Request)) :=
  let (lru, found) := s.lru.get key
  let s := s.withLru lru
  match found with
  | none =>
      let (lru, evicted) := s.lru.add key ⟨some response, ∅, s.getExpirationTime now⟩
      ⟨s.withLru lru, evicted, none⟩
  | some entry =>
      let entry := { entry with resp := some response, expirationTime := s.getExpirationTime now }
      let (lru, evicted) := s.lru.add key entry
      ⟨s.withLru lru, evicted, some entry.requests⟩

def addRequest (s : ResponseCache Request Response) (key : String) (req : Request) (now : Time) :
    Effect Request Response Unit :=
  let (lru, found) := s.lru.get key
  let s := s.withLru lru
  let entry : CacheEntry Request Response := match found with
    | none => ⟨none, {req}, s.getExpirationTime now⟩
    | some entry => { entry with requests := insert req entry.requests }
  let (lru, evicted) := s.lru.add key entry
  ⟨s.withLru lru, evicted, ()⟩

def deleteRequest (s : ResponseCache Request Response) (key : String) (req : Request) :
    Effect Request Response Unit :=
  let (lru, found) := s.lru.get key
  let s := s.withLru lru
  match found with
  | none => ⟨s, [], ()⟩
  | some entry =>
      let (lru, evicted) := s.lru.add key { entry with requests := entry.requests.erase req }
      ⟨s.withLru lru, evicted, ()⟩

def step (s : ResponseCache Request Response) :
    Call Request Response → Effect Request Response (Return Request Response)
  | .fetch key firstNow secondNow =>
      (s.fetch key firstNow secondNow).map fun (entry, error) =>
        .fetch (entry.map CacheEntry.toResource, error)
  | .setResponse key response now =>
      (s.setResponse key response now).map fun requests => .setResponse requests none
  | .addRequest key req now => (s.addRequest key req now).map fun _ => .addRequest none
  | .deleteRequest key req => (s.deleteRequest key req).map fun _ => .deleteRequest none

def run (s : ResponseCache Request Response) : List (Call Request Response) → ResponseCache Request Response
  | [] => s
  | call :: calls => (s.step call).next.run calls

end ResponseCache

end XdsRelay
