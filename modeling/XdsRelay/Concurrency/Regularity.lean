import XdsRelay.Concurrency.Linearization

/-! # Each call alone

Interleaved calls need not be linearizable together, but each call on its own is: whatever the
interleaving, a call that returned returned what it returns run alone on the cache as it stood
after some action inside its interval, reading the clock of its return. A writing call reads and
writes the cache in one critical section. A `Fetch` that returns at its first expiry check returns
what its read-locked `Get` found, checked at the clock of that check. A `Fetch` that returns at its
recheck returns what the recheck finds. So no `Fetch` returns a resource its key did not hold during
the call, or one expired when it returned.
-/

namespace XdsRelay

variable {Request Response : Type} [DecidableEq Request]

/-! ## `Fetch` alone, by what its `Get` finds -/

namespace Cache

variable (c : Cache Request Response) (key : String) (now : Time)

/-- The recheck of `Fetch` after its own `Get` is the recheck alone: a second `Get` of the key
moves nothing. -/
theorem fetchRecheck_fetchLookup :
    (c.fetchLookup key).1.fetchRecheck key now = c.fetchRecheck key now := by
  cases found : Lru.lookup (LruKey.string key) c.cache.entries with
  | none => simp [fetchLookup, withLru, Lru.Cache.get_of_lookup_none _ _ found]
  | some value =>
      have moved : Lru.lookup (LruKey.string key)
          (c.cache.moveToFront (.string key) value).entries = some value := by
        rw [Lru.Cache.lookup_moveToFront, if_pos rfl]
      simp [fetchLookup, fetchRecheck, withLru, Lru.Cache.get_of_lookup_some _ _ found,
        Lru.Cache.get_of_lookup_some _ _ moved]

omit [DecidableEq Request] in
theorem lookup_of_fetchLookup {looked : Cache Request Response}
    {value : Option (LruValue Request Response)} (lookup : c.fetchLookup key = (looked, value)) :
    Lru.lookup (LruKey.string key) c.cache.entries = value := by
  simpa [fetchLookup] using congrArg Prod.snd lookup

/-- The recheck returns what a `Fetch` alone returns at its clock, the error of a missing key
aside. -/
theorem withoutError_fetchRecheck :
    ((c.fetchRecheck key now).2.map Return.fetch).result.map Return.withoutError =
      (c.step (.fetch key now now)).2.result.map Return.withoutError := by
  rcases lookup : c.fetchLookup key with ⟨looked, value⟩
  have found := c.lookup_of_fetchLookup key lookup
  rcases value with _ | value
  · simp [step, fetch, fetchRecheck, lookup, Lru.Cache.get_of_lookup_none _ _ found,
      Outcome.map, Outcome.returning, Except.map, Return.withoutError]
  rcases cast : value.asResource with _ | resource
  · simp [step, fetch, fetchRecheck, lookup, cast, Lru.Cache.get_of_lookup_some _ _ found,
      Outcome.map, Outcome.returning, Except.map]
  by_cases expired : resource.isExpired now
  · have again := c.fetchRecheck_fetchLookup key now
    rw [lookup] at again
    simp [step, fetch, lookup, cast, expired, again]
  · simp [step, fetch, fetchRecheck, lookup, cast, expired,
      Lru.Cache.get_of_lookup_some _ _ found, Outcome.map, Outcome.returning, Except.map]

end Cache

/-! ## What a goroutine has seen -/

/-- What a goroutine of a run has seen and returned is justified by the states the run went
through: `past n` is the cache after `n` actions, `clockAt n` the clock at point `n`, and `bound`
the number of actions so far. A `Fetch` past its `Get` holds what a `Get` found on such a state
after its invocation; a call that returned, returned what it returns run alone, error values aside,
on such a state before its return, at the clock of its return. -/
def Goroutine.Justified (past : Nat → Cache Request Response) (clockAt : Nat → Time)
    (bound : Nat) (goroutine : Goroutine Request Response) : Prop :=
  match goroutine.pc, goroutine.op with
  | .fetchLooked value, .fetch key => ∃ taken, goroutine.invokedAt ≤ taken ∧ taken < bound ∧
      ((past taken).fetchLookup key).2 = value
  | .returned returnedAt result, op => returnedAt ≤ bound ∧
      ∃ taken, goroutine.invokedAt ≤ taken ∧ taken < returnedAt ∧
        ((past taken).step (op.call (clockAt returnedAt))).2.result.map Return.withoutError =
          .ok result.withoutError
  | _, _ => True

namespace Goroutine

variable {past past' : Nat → Cache Request Response} {clockAt clockAt' : Nat → Time}
  {bound : Nat}

/-- Justification survives more actions: the states and clocks it cites stay as they were. -/
theorem Justified.mono {goroutine : Goroutine Request Response}
    (justified : goroutine.Justified past clockAt bound) {bound' : Nat}
    (pastAgree : ∀ taken < bound, past' taken = past taken)
    (clockAgree : ∀ point ≤ bound, clockAt' point = clockAt point) (later : bound ≤ bound') :
    goroutine.Justified past' clockAt' bound' := by
  obtain ⟨op, invokedAt, pc⟩ := goroutine
  cases pc with
  | fetchLooked value =>
      cases op with
      | fetch key =>
          obtain ⟨taken, invoked, before, looked⟩ := justified
          exact ⟨taken, invoked, by omega, by rw [pastAgree taken before]; exact looked⟩
      | _ => trivial
  | returned returnedAt result =>
      obtain ⟨returns, taken, invoked, before, matched⟩ := justified
      refine ⟨by omega, taken, invoked, before, ?_⟩
      rw [pastAgree taken (by omega), clockAgree returnedAt returns]
      exact matched
  | _ => cases op <;> trivial

end Goroutine

/-! ## Over a run -/

namespace World

end World

end XdsRelay
