import XdsRelay.Concurrency.World
import XdsRelay.Cache.Eviction
import XdsRelay.Cache.EntryLaw

/-! # What every interleaving keeps

Whatever the order in which the steps of the goroutines interleave, from a cache that `NewCache`
built: every stored value is a `Resource`, so no call panics or fails a type assertion; a positive
`maxEntries` bounds the entries; and `onEvicted` is called once for every entry that leaves the
cache, and for nothing else. A step of a goroutine does one of four things to the typed state, said
once in `Goroutine.Effect`; each invariant follows from that, then by induction over the run.
-/

namespace XdsRelay

variable {Request Response : Type}

/-! ## The sections of `Fetch` on a typed state -/

namespace ResponseCache

section Lookup

variable {s : ResponseCache Request Response} (valid : s.Valid) (key : String)
include valid

theorem valid_fetchLookup : (s.fetchLookup key).1.Valid := by
  cases found : s.find key with
  | none => rwa [fetchLookup_of_find_none _ _ found]
  | some entry =>
      rw [fetchLookup_of_find_some _ _ found]
      exact s.valid_moveToFront _ _ valid

theorem withinCapacity_fetchLookup (within : s.WithinCapacity) :
    (s.fetchLookup key).1.WithinCapacity := by
  cases found : s.find key with
  | none => rwa [fetchLookup_of_find_none _ _ found]
  | some entry =>
      rwa [fetchLookup_of_find_some _ _ found, WithinCapacity, moveToFront, lru_withLru,
        Lru.Cache.len_moveToFront _ valid found, Lru.Cache.maxEntries_moveToFront]

end Lookup

variable [DecidableEq Request]

/-- The write-locked recheck of `Fetch` does to the state what a whole `Fetch` does when both of
its clock readings are the recheck's. -/
theorem fetchRecheck_eq_step (s : ResponseCache Request Response) (key : String) (now : Time) :
    (s.fetchRecheck key now).next = (s.step (.fetch key now now)).next ∧
      (s.fetchRecheck key now).evicted = (s.step (.fetch key now now)).evicted := by
  cases found : s.find key with
  | none => simp [fetchRecheck_of_find_none _ found, step, Effect.map, fetch_of_find_none _ found]
  | some entry =>
      rw [fetchRecheck_of_find_some _ found]
      cases expired : entry.isExpired now
      · simp [step, Effect.map, fetch_of_live _ found expired]
      · simp [step, Effect.map, fetch_of_expired _ found expired expired]

end ResponseCache

variable [DecidableEq Request]

/-! ## What one step does -/

namespace Goroutine

variable (s : ResponseCache Request Response) (now : Time) (returnedAt : Nat)

theorem step_lookup (key : String) :
    Goroutine.step s.toCache now returnedAt (.fetch key) .start =
      ((s.fetchLookup key).1.toCache, .fetchLooked ((s.fetchLookup key).2.map CacheEntry.toValue),
        []) := by
  simp [Goroutine.step, ResponseCache.fetchLookup_toCache]

theorem step_check (c : Cache Request Response) (key : String)
    (entry : CacheEntry Request Response) :
    Goroutine.step c now returnedAt (.fetch key) (.fetchLooked (some entry.toValue)) =
      if entry.isExpired now then (c, .fetchExpired, [])
      else (c, .returned returnedAt (.fetch (some entry.toResource, none)), []) := by
  simp [Goroutine.step, CacheEntry.isExpired]

theorem step_recheck (key : String) :
    Goroutine.step s.toCache now returnedAt (.fetch key) .fetchExpired =
      ((s.fetchRecheck key now).next.toCache,
        .returned returnedAt
          (.fetch ((s.fetchRecheck key now).value.map CacheEntry.toResource, none)),
        (s.fetchRecheck key now).evicted.map evictedPair) := by
  simp [Goroutine.step, ResponseCache.fetchRecheck_toCache, Outcome.map, Except.map, Pc.finish]

theorem step_write {op : Op Request Response} (writing : ∀ key, op ≠ .fetch key) :
    Goroutine.step s.toCache now returnedAt op .start =
      ((s.step (op.call now)).next.toCache, .returned returnedAt (s.step (op.call now)).value,
        (s.step (op.call now)).evicted.map evictedPair) := by
  cases op with
  | fetch key => exact absurd rfl (writing key)
  | _ => simp [Goroutine.step, ResponseCache.step_toCache, Pc.finish, Op.call]

end Goroutine


/-- The sequential call whose critical section the next step of a goroutine running `op` at `pc`
runs when the clock reads `now`: the read-locked `Get` or the recheck of `Fetch`, or the one
critical section of a writing call. -/
def Goroutine.criticalCall (now : Time) (op : Op Request Response) :
    Pc Request Response → Option (Call Request Response)
  | .start => some (op.call now)
  | .fetchExpired =>
      match op with
      | .fetch key => some (.fetch key now now)
      | _ => none
  | _ => none

/-- What one step of a goroutine running `op` at `pc` does on the typed state `s` at clock `now`,
`next` the cache after it and `evicted` the calls of `onEvicted` made in it. -/
inductive Goroutine.Effect (s : ResponseCache Request Response) (now : Time)
    (op : Op Request Response) (pc : Pc Request Response) (next : Cache Request Response)
    (evicted : List (String × Resource Request Response)) : Prop
  /-- A step outside the locks, or of a goroutine past its critical sections. -/
  | unlocked (outside : criticalCall now op pc = none) (unchanged : next = s.toCache)
      (noEviction : evicted = [])
  /-- The read-locked `Get` of `Fetch`. -/
  | lookup {key} (fetching : op = .fetch key) (started : pc = .start)
      (looked : next = (s.fetchLookup key).1.toCache) (noEviction : evicted = [])
  /-- The write-locked recheck of `Fetch`. -/
  | recheck {key} (fetching : op = .fetch key) (expired : pc = .fetchExpired)
      (rechecked : next = (s.step (.fetch key now now)).next.toCache)
      (reaped : evicted = (s.step (.fetch key now now)).evicted.map evictedPair)
  /-- The critical section of `SetResponse`, `AddRequest` or `DeleteRequest`. -/
  | write (started : pc = .start) (writing : ∀ key, op ≠ .fetch key)
      (written : next = (s.step (op.call now)).next.toCache)
      (writeEvicted : evicted = (s.step (op.call now)).evicted.map evictedPair)

theorem Goroutine.effect (s : ResponseCache Request Response) (now : Time) (returnedAt : Nat)
    (op : Op Request Response) (pc : Pc Request Response) :
    Effect s now op pc (step s.toCache now returnedAt op pc).1 (step s.toCache now returnedAt op pc).2.2 := by
  cases pc with
  | start =>
      cases op with
      | fetch key =>
          rw [step_lookup]
          exact .lookup rfl rfl rfl rfl
      | _ =>
          rw [step_write s now returnedAt (by simp)]
          exact .write rfl (by simp) rfl rfl
  | fetchLooked value =>
      cases op with
      | fetch key =>
          cases value with
          | none => exact .unlocked rfl rfl rfl
          | some value =>
              simp only [step]
              split
              · exact .unlocked rfl rfl rfl
              · split <;> exact .unlocked rfl rfl rfl
      | _ => exact .unlocked rfl rfl rfl
  | fetchExpired =>
      cases op with
      | fetch key =>
          rw [step_recheck, (s.fetchRecheck_eq_step key now).1, (s.fetchRecheck_eq_step key now).2]
          exact .recheck rfl rfl rfl rfl
      | _ => exact .unlocked rfl rfl rfl
  | returned | panicked => cases op <;> exact .unlocked rfl rfl rfl

/-! ## Type safety -/

/-- Where a goroutine can be on a cache that stores only `Resource`s: a `Fetch` between its steps
holds nothing or a stored entry, and no call has panicked or returned the error of a failed type
assertion. -/
def Pc.Typed : Pc Request Response → Prop
  | .fetchLooked value => ∀ stored ∈ value, ∃ entry : CacheEntry Request Response, stored = entry.toValue
  | .returned _ result => ∀ key, result.error ≠ some (.unableToCast key)
  | .panicked _ => False
  | .start | .fetchExpired => True

theorem Pc.typed_step (s : ResponseCache Request Response) (now : Time) (returnedAt : Nat)
    (op : Op Request Response) {pc : Pc Request Response} (typed : pc.Typed) :
    (Goroutine.step s.toCache now returnedAt op pc).2.1.Typed := by
  cases pc with
  | start =>
      cases op with
      | fetch key =>
          rw [Goroutine.step_lookup]
          intro stored member
          obtain ⟨entry, -, rfl⟩ := Option.mem_map.mp member
          exact ⟨entry, rfl⟩
      | _ =>
          rw [Goroutine.step_write s now returnedAt (by simp)]
          exact ResponseCache.error_step s _
  | fetchLooked value =>
      cases op with
      | fetch key =>
          cases value with
          | none => simp [Goroutine.step, Typed, Return.error]
          | some value =>
              obtain ⟨entry, rfl⟩ := typed value rfl
              rw [Goroutine.step_check]
              split <;> simp [Typed, Return.error]
      | _ => exact typed
  | fetchExpired =>
      cases op with
      | fetch key =>
          rw [Goroutine.step_recheck]
          simp [Typed, Return.error]
      | _ => exact typed
  | returned | panicked => cases op <;> exact typed

/-- What holds at every point of every interleaving from a cache that `NewCache` built with
`maxEntries`. -/
structure World.Safe (maxEntries : Int) (w : World Request Response) : Prop where
  typed : ∃ s : ResponseCache Request Response, s.Valid ∧ s.lru.maxEntries = maxEntries ∧
    s.WithinCapacity ∧ w.cache = s.toCache
  places : ∀ goroutine ∈ w.goroutines, goroutine.pc.Typed

namespace World

variable {maxEntries : Int}

omit [DecidableEq Request] in
theorem safe_idle {s : ResponseCache Request Response} (valid : s.Valid) (within : s.WithinCapacity)
    (now : Time) : (idle s.toCache now).Safe s.lru.maxEntries :=
  ⟨⟨s, valid, rfl, within, rfl⟩, by simp⟩

/-- A step of a goroutine leaves a typed state with no key twice, the same `maxEntries` and
`ttl`, and within capacity. -/
theorem typed_step {s : ResponseCache Request Response} (valid : s.Valid)
    (within : s.WithinCapacity) (now : Time) (returnedAt : Nat) (op : Op Request Response)
    (pc : Pc Request Response) :
    ∃ next : ResponseCache Request Response, next.Valid ∧ next.lru.maxEntries = s.lru.maxEntries ∧
      next.ttl = s.ttl ∧ next.WithinCapacity ∧
      (Goroutine.step s.toCache now returnedAt op pc).1 = next.toCache := by
  cases Goroutine.effect s now returnedAt op pc with
  | unlocked _ unchanged => exact ⟨s, valid, rfl, rfl, within, unchanged⟩
  | lookup _ _ looked =>
      refine ⟨_, ResponseCache.valid_fetchLookup valid _, ?_, ?_,
        ResponseCache.withinCapacity_fetchLookup valid _ within, looked⟩ <;>
        simp [ResponseCache.fetchLookup]
  | recheck _ _ rechecked =>
      exact ⟨_, ResponseCache.valid_step valid _, ResponseCache.maxEntries_step _ _,
        ResponseCache.ttl_step _ _, ResponseCache.withinCapacity_step valid _ within, rechecked⟩
  | write _ _ written =>
      exact ⟨_, ResponseCache.valid_step valid _, ResponseCache.maxEntries_step _ _,
        ResponseCache.ttl_step _ _, ResponseCache.withinCapacity_step valid _ within, written⟩

theorem safe_act {w : World Request Response} (safe : w.Safe maxEntries)
    (action : Action Request Response) : (w.act action).Safe maxEntries := by
  obtain ⟨⟨s, valid, capacity, within, cache⟩, places⟩ := safe
  cases action with
  | invoke op =>
      refine ⟨⟨s, valid, capacity, within, cache⟩, fun goroutine member => ?_⟩
      rcases List.mem_append.mp member with old | new
      · exact places goroutine old
      · rw [List.mem_singleton.mp new]
        trivial
  | step index =>
      cases found : w.goroutines[index]? with
      | none =>
          simp only [act, found]
          exact ⟨⟨s, valid, capacity, within, cache⟩, places⟩
      | some goroutine =>
          rw [act_step w found, cache]
          obtain ⟨next, valid', capacity', -, within', stored⟩ :=
            typed_step valid within w.clock w.next goroutine.op goroutine.pc
          refine ⟨⟨next, valid', capacity'.trans capacity, within', stored⟩, fun other member => ?_⟩
          rcases List.mem_or_eq_of_mem_set member with old | rfl
          · exact places other old
          · exact Pc.typed_step s _ _ _ (places goroutine (List.getElem?_mem found))
  | advance now => exact ⟨⟨s, valid, capacity, within, cache⟩, places⟩

theorem safe_run {w : World Request Response} (safe : w.Safe maxEntries)
    (actions : List (Action Request Response)) : (w.run actions).Safe maxEntries := by
  induction actions generalizing w with
  | nil => exact safe
  | cons action actions induction => exact induction (safe_act safe action)

end World

/-! ## Every removal reported once -/

/-- Whether the next step of a goroutine running `op` at `pc` creates an entry for `key` in `c`:
the critical section of a `SetResponse` or `AddRequest` of `key` that finds `key` absent. -/
def Goroutine.creates (c : Cache Request Response) (now : Time) (op : Op Request Response)
    (key : String) : Pc Request Response → Bool
  | .start => c.creates (op.call now) key
  | _ => false

/-- Whether `action` on `w` creates an entry for `key`. -/
def World.creates (w : World Request Response) (key : String) : Action Request Response → Bool
  | .step index =>
      match w.goroutines[index]? with
      | some goroutine => Goroutine.creates w.cache w.clock goroutine.op key goroutine.pc
      | none => false
  | .invoke _ | .advance _ => false

/-- The number of entries created for `key` in the run of `actions` from `w`. -/
def World.creations (w : World Request Response) (key : String) :
    List (Action Request Response) → Nat
  | [] => 0
  | action :: actions => (if w.creates key action then 1 else 0) + (w.act action).creations key actions

/-- A step of a goroutine keeps the count of `key`: an entry it creates, or one present before
it, is evicted in it or present after it. -/
theorem Goroutine.count_step {s : ResponseCache Request Response} (valid : s.Valid) (now : Time)
    (returnedAt : Nat) (op : Op Request Response) (pc : Pc Request Response) (key : String) :
    (if creates s.toCache now op key pc then 1 else 0) + (if (s.toCache.find key).isSome then 1 else 0) =
      (step s.toCache now returnedAt op pc).2.2.countP (·.1 = key) +
        if ((step s.toCache now returnedAt op pc).1.find key).isSome then 1 else 0 := by
  cases Goroutine.effect s now returnedAt op pc with
  | unlocked outside unchanged noEviction =>
      have resting : creates s.toCache now op key pc = false := by
        cases pc <;> first | rfl | cases outside
      simp [resting, unchanged, noEviction]
  | lookup fetching started looked noEviction =>
      subst fetching started
      simp [creates, Op.call, Cache.creates, Call.inserts, looked, noEviction,
        ResponseCache.find_fetchLookup]
  | @recheck fetched fetching expired rechecked reaped =>
      subst fetching expired
      have count := ResponseCache.count_step valid (.fetch fetched now now) key
      simp only [ResponseCache.creates_toCache, Call.inserts, Bool.and_false, Bool.false_and,
        if_false] at count
      simpa [creates, rechecked, reaped] using count
  | write started _ written writeEvicted =>
      subst started
      have count := ResponseCache.count_step valid (op.call now) key
      simpa [creates, written, writeEvicted] using count

namespace World

variable {maxEntries : Int}

theorem count_act {w : World Request Response} (safe : w.Safe maxEntries)
    (action : Action Request Response) (key : String) :
    (if w.creates key action then 1 else 0) + (if (w.cache.find key).isSome then 1 else 0) +
        w.onEvicted.countP (·.1 = key) =
      (w.act action).onEvicted.countP (·.1 = key) +
        if ((w.act action).cache.find key).isSome then 1 else 0 := by
  obtain ⟨⟨s, valid, -, -, cache⟩, -⟩ := safe
  cases action with
  | invoke op => simp [creates, act, Nat.add_comm]
  | advance now => simp [creates, act, Nat.add_comm]
  | step index =>
      cases found : w.goroutines[index]? with
      | none => simp [creates, act, found, Nat.add_comm]
      | some goroutine =>
          have count := Goroutine.count_step valid w.clock w.next goroutine.op goroutine.pc key
          rw [act_step w found]
          simp only [creates, found, cache, List.countP_append] at count ⊢
          omega

theorem count_run {w : World Request Response} (safe : w.Safe maxEntries)
    (actions : List (Action Request Response)) (key : String) :
    w.creations key actions + (if (w.cache.find key).isSome then 1 else 0) +
        w.onEvicted.countP (·.1 = key) =
      (w.run actions).onEvicted.countP (·.1 = key) +
        if ((w.run actions).cache.find key).isSome then 1 else 0 := by
  induction actions generalizing w with
  | nil => simp [creations, run, Nat.add_comm]
  | cons action actions induction =>
      have first := count_act safe action key
      have rest := induction (safe_act safe action)
      simp only [creations, run] at rest ⊢
      omega

end World

/-! ## Every entry determined by the critical sections on its key -/

/-- The calls whose critical sections named each key since its entry was created, after `action`
on `w`; each is the sequential call at the clock of its step. -/
def World.trackSince (w : World Request Response) (since : String → List (Call Request Response)) :
    Action Request Response → String → List (Call Request Response)
  | .step index =>
      match (w.goroutines[index]?).bind fun goroutine =>
          Goroutine.criticalCall w.clock goroutine.op goroutine.pc with
      | some call => trackSinceCreation w.cache call since
      | none => since
  | .invoke _ | .advance _ => since

/-- The calls whose critical sections named each key since its entry was created, after the run
of `actions` from `w`. -/
def World.sinceCreation (w : World Request Response) (since : String → List (Call Request Response)) :
    List (Action Request Response) → String → List (Call Request Response)
  | [] => since
  | action :: actions => (w.act action).sinceCreation (w.trackSince since action) actions

/-- A step of a goroutine keeps every present entry following the law of the critical sections
on its key since its creation. -/
theorem Goroutine.step_lawHolds {s : ResponseCache Request Response} (valid : s.Valid)
    (nonnegative : 0 ≤ s.ttl) {since : String → List (Call Request Response)}
    (holds : LawHolds s.ttl s.toCache since) (now : Time) (returnedAt : Nat)
    (op : Op Request Response) (pc : Pc Request Response) :
    LawHolds s.ttl (step s.toCache now returnedAt op pc).1
      (match criticalCall now op pc with
        | some call => trackSinceCreation s.toCache call since
        | none => since) := by
  cases Goroutine.effect s now returnedAt op pc with
  | unlocked outside unchanged =>
      rw [outside, unchanged]
      exact holds
  | @lookup fetched fetching started looked =>
      subst fetching started
      rw [looked]
      intro key resource present
      rw [ResponseCache.find_toCache, ResponseCache.find_fetchLookup] at present
      obtain ⟨entry, found, rfl⟩ := Option.map_eq_some'.mp present
      have law := holds key entry.toResource (by simp [found])
      by_cases same : fetched = key
      · subst same
        have updated := @ResponseCache.entryLaw_updated _ _ _ s nonnegative
          (.fetch fetched now now) _ _ law
        simpa [criticalCall, Op.call, trackSinceCreation, Call.inserts] using updated
      · simpa [criticalCall, Op.call, trackSinceCreation, same] using law
  | recheck fetching expired rechecked =>
      subst fetching expired
      rw [rechecked]
      exact XdsRelay.lawHolds_step valid nonnegative holds _
  | write started _ written =>
      subst started
      rw [written]
      exact XdsRelay.lawHolds_step valid nonnegative holds _

namespace World

variable {maxEntries : Int}

theorem ttl_act {w : World Request Response} (safe : w.Safe maxEntries)
    (action : Action Request Response) : (w.act action).cache.ttl = w.cache.ttl := by
  obtain ⟨⟨s, valid, -, within, cache⟩, -⟩ := safe
  cases action with
  | step index =>
      cases found : w.goroutines[index]? with
      | none => simp [act, found]
      | some goroutine =>
          obtain ⟨next, -, -, ttl, -, stored⟩ :=
            typed_step valid within w.clock w.next goroutine.op goroutine.pc
          rw [act_step w found, cache]
          simp [stored, ttl]
  | invoke | advance => rfl

theorem lawHolds_act {w : World Request Response} (safe : w.Safe maxEntries)
    (nonnegative : 0 ≤ w.cache.ttl) {since : String → List (Call Request Response)}
    (holds : LawHolds w.cache.ttl w.cache since) (action : Action Request Response) :
    LawHolds w.cache.ttl (w.act action).cache (w.trackSince since action) := by
  obtain ⟨⟨s, valid, -, -, cache⟩, -⟩ := safe
  cases action with
  | step index =>
      cases found : w.goroutines[index]? with
      | none => simpa [act, trackSince, found] using holds
      | some goroutine =>
          rw [cache] at holds nonnegative ⊢
          rw [act_step w found]
          simpa [trackSince, found, cache] using
            Goroutine.step_lawHolds valid nonnegative holds w.clock w.next goroutine.op goroutine.pc
  | invoke | advance => exact holds

theorem lawHolds_run {w : World Request Response} (safe : w.Safe maxEntries)
    (nonnegative : 0 ≤ w.cache.ttl) {since : String → List (Call Request Response)}
    (holds : LawHolds w.cache.ttl w.cache since) (actions : List (Action Request Response)) :
    LawHolds w.cache.ttl (w.run actions).cache (w.sinceCreation since actions) := by
  induction actions generalizing w since with
  | nil => exact holds
  | cons action actions induction =>
      have ttl := ttl_act safe action
      have next := induction (safe_act safe action) (ttl ▸ nonnegative)
        (ttl ▸ lawHolds_act safe nonnegative holds action)
      rw [ttl] at next
      exact next

end World

/-! ## Only expired entries reaped -/

/-- A whole `Fetch` at one clock reading removes only an entry expired at that reading. -/
theorem ResponseCache.isExpired_of_mem_evicted_fetch (s : ResponseCache Request Response)
    (key : String) (now : Time) {removal : String × CacheEntry Request Response}
    (member : removal ∈ (s.step (.fetch key now now)).evicted) : removal.2.isExpired now := by
  cases s.stepCase (.fetch key now now) with
  | miss _ _ _ noEviction => rw [noEviction] at member; cases member
  | keep _ _ noEviction => rw [noEviction] at member; cases member
  | reap _ fetching _ expiredAgain _ evictedSelf =>
      rw [evictedSelf, List.mem_singleton] at member
      cases fetching
      rw [member]
      exact expiredAgain
  | create _ stores => cases stores

/-- The calls of `onEvicted` in the next step of a goroutine running `op` at `pc`, when that step
is the write-locked recheck of a `Fetch`. -/
def Goroutine.reaps (c : Cache Request Response) (now : Time) (returnedAt : Nat) :
    Op Request Response → Pc Request Response → List (String × Resource Request Response)
  | .fetch key, .fetchExpired => (step c now returnedAt (.fetch key) .fetchExpired).2.2
  | _, _ => []

/-- The entries that the recheck of a `Fetch` removes in `action` on `w`, each with the clock
reading of its removal. -/
def World.reaps (w : World Request Response) :
    Action Request Response → List (String × Resource Request Response × Time)
  | .step index =>
      match w.goroutines[index]? with
      | some goroutine => (Goroutine.reaps w.cache w.clock w.next goroutine.op goroutine.pc).map
          fun removal => (removal.1, removal.2, w.clock)
      | none => []
  | .invoke _ | .advance _ => []

/-- The entries that the rechecks of `Fetch` calls remove in the run of `actions` from `w`, in
order. -/
def World.reaped (w : World Request Response) :
    List (Action Request Response) → List (String × Resource Request Response × Time)
  | [] => []
  | action :: actions => w.reaps action ++ (w.act action).reaped actions

/-- The recheck of a `Fetch` removes only an entry expired at its own clock reading, and reports
it to `onEvicted`. -/
theorem Goroutine.reaps_step (s : ResponseCache Request Response) (now : Time) (returnedAt : Nat)
    (op : Op Request Response) (pc : Pc Request Response) :
    (∀ removal ∈ reaps s.toCache now returnedAt op pc, removal.2.isExpired now) ∧
      (reaps s.toCache now returnedAt op pc).Sublist (step s.toCache now returnedAt op pc).2.2 := by
  cases op <;> cases pc <;> try exact ⟨nofun, List.nil_sublist _⟩
  case fetch.fetchExpired key =>
    refine ⟨fun removal member => ?_, List.Sublist.refl _⟩
    rw [reaps, step_recheck, (s.fetchRecheck_eq_step key now).2] at member
    obtain ⟨entry, inside, rfl⟩ := List.mem_map.mp member
    exact ResponseCache.isExpired_of_mem_evicted_fetch s key now inside

namespace World

variable {maxEntries : Int}

theorem reaps_act {w : World Request Response} (safe : w.Safe maxEntries)
    (action : Action Request Response) :
    (∀ removal ∈ w.reaps action, removal.2.1.isExpired removal.2.2) ∧
      ∃ evicted, (w.act action).onEvicted = w.onEvicted ++ evicted ∧
        ((w.reaps action).map fun removal => (removal.1, removal.2.1)).Sublist evicted := by
  obtain ⟨⟨s, -, -, -, cache⟩, -⟩ := safe
  cases action with
  | step index =>
      cases found : w.goroutines[index]? with
      | none => exact ⟨by simp [reaps, found], [], by simp [act, found], by simp [reaps, found]⟩
      | some goroutine =>
          obtain ⟨expired, reported⟩ :=
            Goroutine.reaps_step s w.clock w.next goroutine.op goroutine.pc
          rw [← cache] at expired reported
          refine ⟨fun removal member => ?_, _, by rw [act_step w found], ?_⟩
          · simp only [reaps, found, List.mem_map] at member
            obtain ⟨removed, inside, rfl⟩ := member
            exact expired removed inside
          · simpa [reaps, found, List.map_map, Function.comp_def] using reported
  | invoke | advance => exact ⟨nofun, [], by simp [act], List.nil_sublist _⟩

theorem reaped_run {w : World Request Response} (safe : w.Safe maxEntries)
    (actions : List (Action Request Response)) :
    (∀ removal ∈ w.reaped actions, removal.2.1.isExpired removal.2.2) ∧
      ∃ evicted, (w.run actions).onEvicted = w.onEvicted ++ evicted ∧
        ((w.reaped actions).map fun removal => (removal.1, removal.2.1)).Sublist evicted := by
  induction actions generalizing w with
  | nil => exact ⟨nofun, [], by simp [run], List.nil_sublist _⟩
  | cons action actions induction =>
      obtain ⟨expired, evicted, onEvicted, reported⟩ := reaps_act safe action
      obtain ⟨expired', evicted', onEvicted', reported'⟩ := induction (safe_act safe action)
      refine ⟨fun removal member => ?_, evicted ++ evicted',
        by rw [run, onEvicted', onEvicted, List.append_assoc], ?_⟩
      · rcases List.mem_append.mp member with first | later
        exacts [expired removal first, expired' removal later]
      · rw [reaped, List.map_append]
        exact reported.append reported'

end World

/-! ## Entries that never expire

With `ttl` 0, `getExpirationTime` gives the zero `Time`, which `isExpired` never finds expired, so
no `Fetch` reaches its recheck.
-/

omit [DecidableEq Request] in
/-- The zero `ExpirationTime` never expires. -/
theorem Resource.isExpired_of_zero {resource : Resource Request Response}
    (zero : resource.expirationTime = 0) (now : Time) : resource.isExpired now = false := by
  rw [Resource.isExpired, if_pos zero]

namespace ResponseCache

/-- A state with `ttl` 0 whose entries all hold the zero `ExpirationTime`. -/
structure Timeless (s : ResponseCache Request Response) : Prop where
  ttl : s.ttl = 0
  stored : ∀ key entry, s.find key = some entry → entry.expirationTime = 0

namespace Timeless

variable {s : ResponseCache Request Response} (timeless : s.Timeless)
include timeless

omit [DecidableEq Request] in
theorem getExpirationTime_eq (now : Time) : s.getExpirationTime now = 0 := by
  simp [getExpirationTime, timeless.ttl]

omit [DecidableEq Request] in
theorem fetchLookup (key : String) : (s.fetchLookup key).1.Timeless := by
  cases found : s.find key with
  | none => rwa [fetchLookup_of_find_none _ _ found]
  | some entry =>
      rw [fetchLookup_of_find_some _ _ found]
      exact ⟨timeless.ttl, fun other held present =>
        timeless.stored other held (by rwa [find_moveToFront_of_find _ found] at present)⟩

theorem step (valid : s.Valid) (call : Call Request Response) : (s.step call).next.Timeless := by
  refine ⟨by rw [ttl_step, timeless.ttl], fun key entry present => ?_⟩
  by_cases same : key = call.key
  · subst same
    cases s.stepCase call with
    | miss missing _ unchanged => rw [unchanged, missing] at present; cases present
    | keep old moved =>
        rw [moved, find_moveToFront, if_pos rfl, Option.some.injEq] at present
        subst present
        have zero := timeless.stored _ _ old
        cases call <;> simp [updated, zero, timeless.getExpirationTime_eq]
    | reap _ _ _ _ removed => rw [removed, find_remove, if_pos rfl] at present; cases present
    | @create created _ stores added =>
        rw [added, find_add _ _ _ _ valid, if_pos rfl] at present
        split at present
        · cases present
        · cases present
          cases call <;> cases stores <;> exact timeless.getExpirationTime_eq _
  · rcases find_step_of_ne valid call same with kept | gone
    · exact timeless.stored key entry (kept ▸ present)
    · rw [gone] at present
      cases present

theorem run (valid : s.Valid) (calls : List (Call Request Response)) : (s.run calls).Timeless := by
  induction calls generalizing s with
  | nil => exact timeless
  | cons call calls induction =>
      exact induction (timeless.step valid call) (valid_step valid call)

end Timeless

end ResponseCache

/-- Where a goroutine can be on a cache whose entries never expire: a `Fetch` between its steps
holds no `Resource` that can expire, and none waits for its recheck. -/
def Pc.Timeless : Pc Request Response → Prop
  | .fetchLooked value => ∀ stored ∈ value, ∀ resource ∈ stored.asResource,
      resource.expirationTime = 0
  | .fetchExpired => False
  | .start | .returned .. | .panicked _ => True

theorem Pc.timeless_step {s : ResponseCache Request Response} (timeless : s.Timeless) (now : Time)
    (returnedAt : Nat) (op : Op Request Response) {pc : Pc Request Response} (held : pc.Timeless) :
    (Goroutine.step s.toCache now returnedAt op pc).2.1.Timeless := by
  cases pc with
  | start =>
      cases op with
      | fetch key =>
          rw [Goroutine.step_lookup]
          intro stored member resource cast
          obtain ⟨entry, looked, rfl⟩ := Option.mem_map.mp member
          cases cast
          cases found : s.find key with
          | none => rw [ResponseCache.fetchLookup_of_find_none _ _ found] at looked; cases looked
          | some old =>
              rw [ResponseCache.fetchLookup_of_find_some _ _ found] at looked
              cases looked
              exact timeless.stored key _ found
      | _ =>
          rw [Goroutine.step_write s now returnedAt (by simp)]
          trivial
  | fetchLooked value =>
      cases op with
      | fetch key =>
          cases value with
          | none => trivial
          | some value =>
              cases cast : value.asResource with
              | none => simp [Goroutine.step, cast, Timeless]
              | some resource =>
                  simp [Goroutine.step, cast, Resource.isExpired_of_zero (held value rfl _ cast),
                    Timeless]
      | _ => exact held
  | fetchExpired => exact held.elim
  | returned | panicked => cases op <;> exact held

/-- What holds at every point of every interleaving from a cache whose entries never expire. -/
structure World.Timeless (w : World Request Response) : Prop where
  stored : ∃ s : ResponseCache Request Response, s.Valid ∧ s.Timeless ∧ w.cache = s.toCache
  held : ∀ goroutine ∈ w.goroutines, goroutine.pc.Timeless

namespace World

theorem Timeless.act {w : World Request Response} (timeless : w.Timeless)
    (action : Action Request Response) : (w.act action).Timeless := by
  obtain ⟨⟨s, valid, stored, cache⟩, held⟩ := timeless
  refine ⟨?_, forall_goroutines_act held action (fun _ _ => trivial) fun _ _ holds => by
    rw [cache]
    exact Pc.timeless_step stored _ _ _ holds⟩
  cases action with
  | step index =>
      cases found : w.goroutines[index]? with
      | none =>
          simp only [World.act, found]
          exact ⟨s, valid, stored, cache⟩
      | some goroutine =>
          rw [act_step w found, cache]
          cases Goroutine.effect s w.clock w.next goroutine.op goroutine.pc with
          | unlocked _ unchanged => exact ⟨s, valid, stored, unchanged⟩
          | lookup _ _ looked =>
              exact ⟨_, ResponseCache.valid_fetchLookup valid _, stored.fetchLookup _, looked⟩
          | recheck _ _ rechecked =>
              exact ⟨_, ResponseCache.valid_step valid _, stored.step valid _, rechecked⟩
          | write _ _ written =>
              exact ⟨_, ResponseCache.valid_step valid _, stored.step valid _, written⟩
  | invoke | advance => exact ⟨s, valid, stored, cache⟩

end World

/-! ## From `NewCache` on -/

/-- From `NewCache` on, at every point of every run of `World`: every
stored key is a `string` and every stored value a `Resource` with a request map, a positive
`maxEntries` bounds the number of entries, and no goroutine has panicked or returned the error of
a failed type assertion. -/
theorem interleavings_keep_values_typed {maxEntries : Int} {ttl : Duration}
    {c : Cache Request Response} (created : newCache maxEntries ttl = .ok c) (now : Time)
    (actions : List (Action Request Response)) :
    ((World.idle c now).run actions).cache.WellTyped ∧
      (0 < maxEntries → (((World.idle c now).run actions).cache.cache.len : Int) ≤ maxEntries) ∧
      ∀ goroutine ∈ ((World.idle c now).run actions).goroutines,
        (∀ panic, goroutine.pc ≠ .panicked panic) ∧
        ∀ returnedAt result, goroutine.pc = .returned returnedAt result →
          ∀ key, result.error ≠ some (.unableToCast key) := by
  obtain ⟨-, rfl⟩ := newCache_eq_ok created
  obtain ⟨⟨s, -, capacity, within, cache⟩, places⟩ := World.safe_run
    (World.safe_idle (ResponseCache.valid_empty maxEntries ttl)
      (ResponseCache.withinCapacity_empty maxEntries ttl) now) actions
  refine ⟨cache ▸ s.wellTyped_toCache, fun positive => ?_, fun goroutine member => ?_⟩
  · have capacity : s.lru.maxEntries = maxEntries := capacity
    have bounded := within (by rw [capacity]; exact positive)
    rwa [cache, ResponseCache.len_toCache, ← capacity]
  · have typed := places goroutine member
    refine ⟨fun panic panicked => ?_, fun returnedAt result returned => ?_⟩
    · rw [panicked] at typed
      exact typed
    · rw [returned] at typed
      exact typed

/-- From `NewCache` on, in every run of `World`, the entries created for
`key` are the calls `onEvicted(key, _)` and the entry present at the end: every entry that leaves
the cache is reported once, and nothing else is. -/
theorem interleavings_report_each_removal_once {maxEntries : Int} {ttl : Duration}
    {c : Cache Request Response} (created : newCache maxEntries ttl = .ok c) (now : Time)
    (actions : List (Action Request Response)) (key : String) :
    (World.idle c now).creations key actions =
      ((World.idle c now).run actions).onEvicted.countP (·.1 = key) +
        if (((World.idle c now).run actions).cache.find key).isSome then 1 else 0 := by
  obtain ⟨-, rfl⟩ := newCache_eq_ok created
  have count := World.count_run (World.safe_idle (ResponseCache.valid_empty maxEntries ttl)
    (ResponseCache.withinCapacity_empty maxEntries ttl) now) actions key
  simpa [ResponseCache.find, ResponseCache.empty] using count

/-- From `NewCache` on, in every interleaving of the goroutines' steps, whenever a key has an
entry, its fields are those the critical sections naming the key since the entry was created
determine, in the order they ran: the response of the last `SetResponse`, the requests added and
not deleted since, and a deadline from the clock of the last `SetResponse` or of the creating
call. No update made under `cacheMu` is lost. -/
theorem interleavings_keep_entry_law {maxEntries : Int} {ttl : Duration}
    {c : Cache Request Response} (created : newCache maxEntries ttl = .ok c) (now : Time)
    (actions : List (Action Request Response)) (key : String) (resource : Resource Request Response)
    (present : ((World.idle c now).run actions).cache.find key = some resource) :
    EntryLaw ttl key ((World.idle c now).sinceCreation (fun _ => []) actions key) resource := by
  obtain ⟨nonnegative, rfl⟩ := newCache_eq_ok created
  exact World.lawHolds_run (World.safe_idle (ResponseCache.valid_empty maxEntries ttl)
      (ResponseCache.withinCapacity_empty maxEntries ttl) now) nonnegative
    (lawHolds_empty maxEntries ttl _) actions key resource present

/-- Two goroutines add requests to "a" while a third sets its response, at time 5 under a `ttl`
of 60. -/
def concurrentUpdatesOfA : List (Action Nat Nat) :=
  [.invoke (.addRequest "a" 1), .invoke (.addRequest "a" 2), .advance 5, .step 1,
    .invoke (.setResponse "a" 7), .step 0, .step 2]

/-- After `concurrentUpdatesOfA`, the entry of "a" holds both requests and the response, with the
deadline of the `SetResponse`. -/
theorem concurrent_updates_of_entry_kept :
    (newCache 2 60 : Except CacheError (Cache Nat Nat)) = .ok (ResponseCache.empty 2 60).toCache ∧
      ((World.idle (ResponseCache.empty 2 60 : ResponseCache Nat Nat).toCache 0).run
          concurrentUpdatesOfA).cache.find "a" = some ⟨some 7, some {1, 2}, 65⟩ ∧
      EntryLaw 60 "a"
        ((World.idle (ResponseCache.empty 2 60 : ResponseCache Nat Nat).toCache 0).sinceCreation
          (fun _ => []) concurrentUpdatesOfA "a")
        ⟨some 7, some {1, 2}, 65⟩ := by
  have created : (newCache 2 60 : Except CacheError (Cache Nat Nat)) =
      .ok (ResponseCache.empty 2 60).toCache := rfl
  have present : ((World.idle (ResponseCache.empty 2 60 : ResponseCache Nat Nat).toCache 0).run
      concurrentUpdatesOfA).cache.find "a" = some ⟨some 7, some {1, 2}, 65⟩ := by
    decide
  exact ⟨created, present, interleavings_keep_entry_law created 0 _ "a" _ present⟩

/-- From `NewCache` on, in every run of `World`, every entry that the
recheck of a `Fetch` removes is reported to `onEvicted`, in order, and was expired at the clock
reading of the recheck. An entry that a concurrent `SetResponse` renewed after the first expiry
check of the `Fetch` is kept. -/
theorem interleavings_reap_only_expired_entries {maxEntries : Int} {ttl : Duration}
    {c : Cache Request Response} (created : newCache maxEntries ttl = .ok c) (now : Time)
    (actions : List (Action Request Response)) :
    (∀ removal ∈ (World.idle c now).reaped actions, removal.2.1.isExpired removal.2.2) ∧
      (((World.idle c now).reaped actions).map fun removal => (removal.1, removal.2.1)).Sublist
        ((World.idle c now).run actions).onEvicted := by
  obtain ⟨-, rfl⟩ := newCache_eq_ok created
  obtain ⟨expired, evicted, onEvicted, reported⟩ := World.reaped_run (World.safe_idle
    (ResponseCache.valid_empty maxEntries ttl) (ResponseCache.withinCapacity_empty maxEntries ttl)
    now) actions
  rw [onEvicted, World.onEvicted_idle, List.nil_append]
  exact ⟨expired, reported⟩

end XdsRelay
