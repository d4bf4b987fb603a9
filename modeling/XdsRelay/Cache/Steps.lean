import XdsRelay.Cache.Typed

/-! # What one call does

One equation for each operation and each way its key can be found, and from them what a call
does to the entry of every key, to the recency order and to the evicted entries. The results
about runs are derived from these, never from the operations' bodies.
-/

namespace XdsRelay

variable {Request Response : Type}

/-- Whether a call stores an entry when its key is absent: `SetResponse` and `AddRequest`. -/
def Call.inserts : Call Request Response → Bool
  | .setResponse .. | .addRequest .. => true
  | .fetch .. | .deleteRequest .. => false

theorem Resource.isExpired_of_le {resource : Resource Request Response} {earlier later : Time}
    (expired : resource.isExpired earlier) (ordered : earlier ≤ later) :
    resource.isExpired later := by
  unfold isExpired at expired ⊢
  split at expired
  · cases expired
  · rename_i nonzero
    simp only [nonzero, if_false, decide_eq_true_eq] at expired ⊢
    exact lt_of_lt_of_le expired ordered

namespace ResponseCache

variable (s : ResponseCache Request Response) (key : String)

/-- The keys, most recently used first. -/
def keys : List String := s.lru.keys

/-- No key has two entries. -/
def Valid : Prop := s.lru.Valid

/-- The state with `key` moved to the front, holding `entry`. -/
def moveToFront (entry : CacheEntry Request Response) : ResponseCache Request Response :=
  s.withLru (s.lru.moveToFront key entry)

@[simp] theorem lru_withLru (lru : Lru.Cache String (CacheEntry Request Response)) :
    (s.withLru lru).lru = lru := rfl

@[simp] theorem ttl_withLru (lru : Lru.Cache String (CacheEntry Request Response)) :
    (s.withLru lru).ttl = s.ttl := rfl

@[simp] theorem getExpirationTime_withLru (lru : Lru.Cache String (CacheEntry Request Response))
    (now : Time) : (s.withLru lru).getExpirationTime now = s.getExpirationTime now := rfl

@[simp] theorem withLru_self : s.withLru s.lru = s := rfl

/-! ## The shapes of the next state -/

section Shapes

variable (entry : CacheEntry Request Response) (other : String)

@[simp] theorem find_withLru (lru : Lru.Cache String (CacheEntry Request Response)) :
    (s.withLru lru).find other = Lru.lookup other lru.entries := rfl

theorem find_moveToFront :
    (s.moveToFront key entry).find other = if other = key then some entry else s.find other :=
  Lru.Cache.lookup_moveToFront _ _ _ _

theorem find_remove :
    (s.withLru (s.lru.remove key).1).find other = if other = key then none else s.find other :=
  Lru.Cache.lookup_remove _ _ _

theorem find_add (valid : s.Valid) :
    (s.withLru (s.lru.add key entry).1).find other =
      if other ∈ (s.lru.add key entry).2.map Prod.fst then none
      else if other = key then some entry else s.find other :=
  Lru.Cache.lookup_add _ valid _ _

theorem valid_moveToFront (valid : s.Valid) : (s.moveToFront key entry).Valid :=
  Lru.Cache.valid_moveToFront _ valid _

theorem valid_remove (valid : s.Valid) : (s.withLru (s.lru.remove key).1).Valid :=
  Lru.Cache.valid_remove _ valid

theorem valid_add (valid : s.Valid) : (s.withLru (s.lru.add key entry).1).Valid :=
  Lru.Cache.valid_add _ valid _

@[simp] theorem ttl_moveToFront : (s.moveToFront key entry).ttl = s.ttl := rfl

theorem getExpirationTime_eq (nonnegative : 0 ≤ s.ttl) (now : Time) :
    s.getExpirationTime now = if s.ttl = 0 then 0 else now + s.ttl := by
  unfold getExpirationTime
  by_cases positive : s.ttl > 0
  · rw [if_pos positive, if_neg (ne_of_gt positive)]
  · rw [if_neg positive, if_pos (le_antisymm (not_lt.mp positive) nonnegative)]

theorem valid_empty (maxEntries : Int) (ttl : Duration) :
    (empty maxEntries ttl : ResponseCache Request Response).Valid :=
  List.nodup_nil

end Shapes

/-! ## `Fetch` -/

theorem fetchLookup_of_find_none (missing : s.find key = none) : s.fetchLookup key = (s, none) := by
  simp [fetchLookup, Lru.Cache.get_of_lookup_none _ _ missing]

theorem fetchLookup_of_find_some {entry : CacheEntry Request Response}
    (found : s.find key = some entry) :
    s.fetchLookup key = (s.moveToFront key entry, some entry) := by
  simp [fetchLookup, moveToFront, Lru.Cache.get_of_lookup_some _ _ found]

variable {key} {firstNow secondNow : Time} {entry : CacheEntry Request Response}

/-- Moving a key to the front with the entry it holds changes no key's entry. -/
theorem find_moveToFront_of_find (found : s.find key = some entry) (other : String) :
    (s.moveToFront key entry).find other = s.find other := by
  rw [find_moveToFront]
  split <;> simp_all

/-- The read-locked `Get` of `Fetch` changes no key's entry. -/
theorem find_fetchLookup (other : String) : (s.fetchLookup key).1.find other = s.find other := by
  cases found : s.find key with
  | none => rw [fetchLookup_of_find_none _ _ found]
  | some entry => rw [fetchLookup_of_find_some _ _ found, find_moveToFront_of_find _ found]

theorem fetch_of_find_none (missing : s.find key = none) :
    s.fetch key firstNow secondNow = ⟨s, [], none, some (.noValueFound key)⟩ := by
  simp [fetch, fetchLookup_of_find_none _ _ missing]

/-- A live entry is returned and moved to the front. -/
theorem fetch_of_live (found : s.find key = some entry) (live : entry.isExpired firstNow = false) :
    s.fetch key firstNow secondNow = ⟨s.moveToFront key entry, [], some entry, none⟩ := by
  simp [fetch, fetchLookup_of_find_some _ _ found, live]

theorem fetchRecheck_of_find_none (missing : s.find key = none) (now : Time) :
    s.fetchRecheck key now = ⟨s, [], none⟩ := by
  simp [fetchRecheck, Lru.Cache.get_of_lookup_none _ _ missing]

/-- The write-locked section of `Fetch` removes an entry expired at its clock reading, and moves
a live one to the front. -/
theorem fetchRecheck_of_find_some (found : s.find key = some entry) (now : Time) :
    s.fetchRecheck key now =
      if entry.isExpired now then ⟨s.withLru (s.lru.remove key).1, [(key, entry)], none⟩
      else ⟨s.moveToFront key entry, [], some entry⟩ := by
  simp only [fetchRecheck, Lru.Cache.get_of_lookup_some _ _ found, lru_withLru]
  split
  · simp [Lru.Cache.remove_of_lookup_some _ _ found, withLru]
  · rfl

theorem find_moveToFront_self : (s.moveToFront key entry).find key = some entry := by
  simp [find_moveToFront]

/-- An entry expired at both readings is removed and passed to `onEvicted`. -/
theorem fetch_of_expired (found : s.find key = some entry)
    (expired : entry.isExpired firstNow) (expiredAgain : entry.isExpired secondNow) :
    s.fetch key firstNow secondNow = ⟨s.withLru (s.lru.remove key).1, [(key, entry)], none, none⟩ := by
  simp only [fetch, fetchLookup_of_find_some _ _ found, expired, if_true,
    fetchRecheck_of_find_some _ (find_moveToFront_self s), expiredAgain]
  simp [Effect.map, Lru.Cache.remove_of_lookup_some _ _ found, moveToFront, withLru]

/-- An entry expired at the first reading but not at the second is returned. -/
theorem fetch_of_refreshed (found : s.find key = some entry)
    (expired : entry.isExpired firstNow) (liveAgain : entry.isExpired secondNow = false) :
    s.fetch key firstNow secondNow = ⟨s.moveToFront key entry, [], some entry, none⟩ := by
  simp only [fetch, fetchLookup_of_find_some _ _ found, expired, if_true,
    fetchRecheck_of_find_some _ (find_moveToFront_self s), liveAgain]
  simp [Effect.map, moveToFront, withLru]

/-! ## The writing calls -/

section Writes

variable (response : Response) (req : Request) (now : Time)

theorem setResponse_of_find_none (missing : s.find key = none) :
    s.setResponse key response now =
      ⟨s.withLru (s.lru.add key ⟨some response, ∅, s.getExpirationTime now⟩).1,
        (s.lru.add key ⟨some response, ∅, s.getExpirationTime now⟩).2, none⟩ := by
  simp [setResponse, Lru.Cache.get_of_lookup_none _ _ missing]

theorem setResponse_of_find_some (found : s.find key = some entry) :
    s.setResponse key response now =
      ⟨s.moveToFront key
          { entry with resp := some response, expirationTime := s.getExpirationTime now },
        [], some entry.requests⟩ := by
  simp [setResponse, Lru.Cache.get_of_lookup_some _ _ found, moveToFront]
  rfl

/-- `SetResponse` returns the request set of the entry it finds, and nil when it creates one. -/
theorem setResponse_value :
    (s.setResponse key response now).value = (s.find key).map (·.requests) := by
  cases found : s.find key with
  | none => rw [setResponse_of_find_none _ _ _ found]; rfl
  | some entry => rw [setResponse_of_find_some _ _ _ found]; rfl

variable [DecidableEq Request]

theorem addRequest_of_find_none (missing : s.find key = none) :
    s.addRequest key req now =
      ⟨s.withLru (s.lru.add key ⟨none, {req}, s.getExpirationTime now⟩).1,
        (s.lru.add key ⟨none, {req}, s.getExpirationTime now⟩).2, ()⟩ := by
  simp [addRequest, Lru.Cache.get_of_lookup_none _ _ missing]

theorem addRequest_of_find_some (found : s.find key = some entry) :
    s.addRequest key req now =
      ⟨s.moveToFront key { entry with requests := insert req entry.requests }, [], ()⟩ := by
  simp [addRequest, Lru.Cache.get_of_lookup_some _ _ found, moveToFront, withLru]

theorem deleteRequest_of_find_none (missing : s.find key = none) :
    s.deleteRequest key req = ⟨s, [], ()⟩ := by
  simp [deleteRequest, Lru.Cache.get_of_lookup_none _ _ missing]

theorem deleteRequest_of_find_some (found : s.find key = some entry) :
    s.deleteRequest key req =
      ⟨s.moveToFront key { entry with requests := entry.requests.erase req }, [], ()⟩ := by
  simp [deleteRequest, Lru.Cache.get_of_lookup_some _ _ found, moveToFront, withLru]

end Writes

/-! ## Every call -/

variable [DecidableEq Request]

/-- The entry a call leaves under its key when it finds `entry` there and keeps it. -/
def updated : Call Request Response → CacheEntry Request Response → CacheEntry Request Response
  | .fetch .., entry => entry
  | .setResponse _ response now, entry =>
      { entry with resp := some response, expirationTime := s.getExpirationTime now }
  | .addRequest _ req _, entry => { entry with requests := insert req entry.requests }
  | .deleteRequest _ req, entry => { entry with requests := entry.requests.erase req }

/-- The entry a call stores when it finds its key absent. -/
def created : Call Request Response → Option (CacheEntry Request Response)
  | .setResponse _ response now => some ⟨some response, ∅, s.getExpirationTime now⟩
  | .addRequest _ req now => some ⟨none, {req}, s.getExpirationTime now⟩
  | .fetch .. | .deleteRequest .. => none

/-- The four things a call can do to the state, `next` after it, and the entries it evicts. -/
inductive StepCase (s : ResponseCache Request Response) (call : Call Request Response)
    (next : ResponseCache Request Response) (evicted : List (String × CacheEntry Request Response)) :
    Prop
  /-- The key is absent and the call stores nothing. -/
  | miss (missing : s.find call.key = none) (storesNothing : s.created call = none)
      (unchanged : next = s) (noEviction : evicted = [])
  /-- The key is present and stays, moved to the front. -/
  | keep {entry} (found : s.find call.key = some entry)
      (moved : next = s.moveToFront call.key (s.updated call entry)) (noEviction : evicted = [])
  /-- `Fetch` removes an entry expired at both of its clock readings. -/
  | reap {entry firstNow secondNow} (found : s.find call.key = some entry)
      (fetching : call = .fetch call.key firstNow secondNow) (expired : entry.isExpired firstNow)
      (expiredAgain : entry.isExpired secondNow) (removed : next = s.withLru (s.lru.remove call.key).1)
      (evictedSelf : evicted = [(call.key, entry)])
  /-- The key is absent and the call stores a new entry, which `Add` may evict at once. -/
  | create {entry} (missing : s.find call.key = none) (stores : s.created call = some entry)
      (added : next = s.withLru (s.lru.add call.key entry).1)
      (addEvicted : evicted = (s.lru.add call.key entry).2)

theorem stepCase (call : Call Request Response) :
    StepCase s call (s.step call).next (s.step call).evicted := by
  cases call with
  | fetch key firstNow secondNow =>
      cases found : s.find key with
      | none =>
          simp only [step, Effect.map, fetch_of_find_none _ found]
          exact .miss found rfl rfl rfl
      | some entry =>
          cases expired : entry.isExpired firstNow
          · simp only [step, Effect.map, fetch_of_live _ found expired]
            exact .keep found rfl rfl
          · cases expiredAgain : entry.isExpired secondNow
            · simp only [step, Effect.map, fetch_of_refreshed _ found expired expiredAgain]
              exact .keep found rfl rfl
            · simp only [step, Effect.map, fetch_of_expired _ found expired expiredAgain]
              exact .reap found rfl expired expiredAgain rfl rfl
  | setResponse key response now =>
      cases found : s.find key with
      | none =>
          simp only [step, Effect.map, setResponse_of_find_none _ _ _ found]
          exact .create found rfl rfl rfl
      | some entry =>
          simp only [step, Effect.map, setResponse_of_find_some _ _ _ found]
          exact .keep found rfl rfl
  | addRequest key req now =>
      cases found : s.find key with
      | none =>
          simp only [step, Effect.map, addRequest_of_find_none _ _ _ found]
          exact .create found rfl rfl rfl
      | some entry =>
          simp only [step, Effect.map, addRequest_of_find_some _ _ _ found]
          exact .keep found rfl rfl
  | deleteRequest key req =>
      cases found : s.find key with
      | none =>
          simp only [step, Effect.map, deleteRequest_of_find_none _ _ found]
          exact .miss found rfl rfl rfl
      | some entry =>
          simp only [step, Effect.map, deleteRequest_of_find_some _ _ found]
          exact .keep found rfl rfl

omit [DecidableEq Request] in
theorem inserts_of_created {call : Call Request Response} {entry : CacheEntry Request Response}
    (stores : s.created call = some entry) : call.inserts = true := by
  cases call <;> first | rfl | cases stores

@[simp] theorem ttl_step (call : Call Request Response) : (s.step call).next.ttl = s.ttl := by
  cases s.stepCase call with
  | miss _ _ unchanged => rw [unchanged]
  | keep _ moved => rw [moved]; rfl
  | reap _ _ _ _ removed => rw [removed]; rfl
  | create _ _ added => rw [added]; rfl

/-- A call changes the entry of another key only by evicting it. -/
theorem find_step_of_ne {s : ResponseCache Request Response} (valid : s.Valid)
    (call : Call Request Response) {key : String} (different : key ≠ call.key) :
    (s.step call).next.find key = s.find key ∨ (s.step call).next.find key = none := by
  cases s.stepCase call with
  | miss _ _ unchanged => exact .inl (by rw [unchanged])
  | keep _ moved => exact .inl (by rw [moved, find_moveToFront, if_neg different])
  | reap _ _ _ _ removed => exact .inl (by rw [removed, find_remove, if_neg different])
  | create _ _ added =>
      rw [added, find_add _ _ _ _ valid, if_neg different]
      split
      · exact .inr rfl
      · exact .inl rfl

theorem valid_step {s : ResponseCache Request Response} (valid : s.Valid)
    (call : Call Request Response) : (s.step call).next.Valid := by
  cases s.stepCase call with
  | miss _ _ unchanged => rw [unchanged]; exact valid
  | keep _ moved => rw [moved]; exact s.valid_moveToFront _ _ valid
  | reap _ _ _ _ removed => rw [removed]; exact s.valid_remove _ valid
  | create _ _ added => rw [added]; exact s.valid_add _ _ valid

@[simp] theorem ttl_run (calls : List (Call Request Response)) : (s.run calls).ttl = s.ttl := by
  induction calls generalizing s with
  | nil => rfl
  | cons call calls induction => simp [run, induction]

theorem valid_run {s : ResponseCache Request Response} (valid : s.Valid)
    (calls : List (Call Request Response)) : (s.run calls).Valid := by
  induction calls generalizing s with
  | nil => exact valid
  | cons call calls induction => exact induction (valid_step valid call)

end ResponseCache

end XdsRelay
