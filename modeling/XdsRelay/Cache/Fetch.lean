import XdsRelay.Cache.Steps
import XdsRelay.Cache.TypeSafety

/-! # `Fetch` and `FetchReadOnly`

What `Fetch` returns and leaves behind follows from what it finds under its key at its first clock
reading: nothing, a live entry, or an expired one, which it reaps and answers with nil and no
error. Its read-locked section is `lru.Cache.Get`, which moves the entry it finds to the front of
the list: a write done under `RLock`.
-/

namespace XdsRelay

variable {Request Response : Type}

/-- What `Fetch(key)` does on `c` at clock readings `firstNow` and then `secondNow`, by what it
finds under `key`, and what `FetchReadOnly(key)` returns there. -/
structure FetchLaw [DecidableEq Request] (c : Cache Request Response) (key : String)
    (firstNow secondNow : Time) : Prop where
  missing : c.find key = none →
    c.fetch key firstNow secondNow = (c, .returning (none, some (.noValueFound key))) ∧
      (c.fetchReadOnly key firstNow secondNow).2.result = .ok (.zero, some (.noValueFound key))
  live : ∀ resource, c.find key = some resource → resource.isExpired firstNow = false →
    (c.fetch key firstNow secondNow).2 = .returning (some resource, none) ∧
      (∀ other, (c.fetch key firstNow secondNow).1.find other = c.find other) ∧
      (c.fetchReadOnly key firstNow secondNow).2.result = .ok (resource, none)
  expired : ∀ resource, c.find key = some resource → resource.isExpired firstNow →
    (c.fetch key firstNow secondNow).2 = ⟨[(key, resource)], .ok (none, none)⟩ ∧
      (c.fetch key firstNow secondNow).1.find key = none ∧
      (∀ other, other ≠ key → (c.fetch key firstNow secondNow).1.find other = c.find other) ∧
      (c.fetchReadOnly key firstNow secondNow).2.result = .ok (.zero, none)

namespace ResponseCache

variable (s : ResponseCache Request Response)

theorem toCache_injective :
    Function.Injective (toCache : ResponseCache Request Response → Cache Request Response) := by
  rintro ⟨⟨maxEntries, entries⟩, ttl⟩ ⟨⟨maxEntries', entries'⟩, ttl'⟩ equal
  have valueInjective : Function.Injective
      (CacheEntry.toValue : CacheEntry Request Response → LruValue Request Response) :=
    fun _ _ same => CacheEntry.toResource_injective (LruValue.resource.inj same)
  simp only [toCache, Lru.Cache.map, Cache.mk.injEq, Lru.Cache.mk.injEq] at equal
  obtain ⟨⟨rfl, mapped⟩, rfl⟩ := equal
  rw [(string_injective.prodMap valueInjective).list_map mapped]

/-- Moving a present key to the front changes the state exactly when the key is not already at
the front. -/
theorem moveToFront_eq_self_iff {s : ResponseCache Request Response} (valid : s.Valid)
    {key : String} {entry : CacheEntry Request Response} (found : s.find key = some entry) :
    s.moveToFront key entry = s ↔ s.keys.head? = some key := by
  constructor
  · intro same
    rw [← same]
    simp [keys, moveToFront]
  · intro front
    obtain ⟨⟨maxEntries, entries⟩, ttl⟩ := s
    cases entries with
    | nil => cases front
    | cons head rest =>
        obtain ⟨first, value⟩ := head
        simp only [keys, Lru.Cache.keys, List.map_cons, List.head?_cons, Option.some.injEq] at front
        subst front
        simp only [find, Lru.lookup_cons_self, Option.some.injEq] at found
        subst found
        have absent : first ∉ rest.map Prod.fst := (List.nodup_cons.mp valid).1
        have unlinked : Lru.unlink first rest = rest :=
          List.filter_eq_self.mpr fun other member => by
            simpa using fun same : other.1 = first =>
              absent (same ▸ List.mem_map_of_mem Prod.fst member)
        simp [moveToFront, withLru, Lru.Cache.moveToFront, unlinked]

variable [DecidableEq Request]

theorem fetchLaw {firstNow secondNow : Time} (ordered : firstNow ≤ secondNow) (key : String) :
    FetchLaw s.toCache key firstNow secondNow where
  missing absent := by
    have missing : s.find key = none := by simpa using absent
    rw [Cache.fetchReadOnly, fetch_toCache, fetch_of_find_none _ missing]
    exact ⟨rfl, rfl⟩
  live resource present live := by
    obtain ⟨entry, found, rfl⟩ := Option.map_eq_some'.mp (by simpa using present)
    rw [Cache.fetchReadOnly, fetch_toCache, fetch_of_live _ found live]
    exact ⟨rfl, fun other => by simp [find_moveToFront_of_find _ found], rfl⟩
  expired resource present expired := by
    obtain ⟨entry, found, rfl⟩ := Option.map_eq_some'.mp (by simpa using present)
    rw [Cache.fetchReadOnly, fetch_toCache,
      fetch_of_expired _ found expired (Resource.isExpired_of_le expired ordered)]
    refine ⟨rfl, by simp [find_remove], fun other different => ?_, rfl⟩
    rw [find_toCache, find_toCache, find_remove, if_neg different]

end ResponseCache

variable [DecidableEq Request]

/-- From `NewCache` on, at clock readings `firstNow ≤ secondNow`: a missing key gives the
not-found error and changes nothing; a live entry is returned with a nil error and no entry
changes; an expired entry is removed, passed to `onEvicted` once, and answered with nil and a nil
error, so that `FetchReadOnly` then returns `Resource{}` with a nil error. -/
theorem fetch_by_expiry_at_first_reading {maxEntries : Int} {ttl : Duration}
    {c : Cache Request Response} (created : newCache maxEntries ttl = .ok c)
    (calls : List (Call Request Response)) (key : String) {firstNow secondNow : Time}
    (ordered : firstNow ≤ secondNow) :
    FetchLaw (c.run calls) key firstNow secondNow := by
  obtain ⟨-, rfl⟩ := newCache_eq_ok created
  rw [ResponseCache.run_toCache]
  exact ResponseCache.fetchLaw _ ordered key

/-- An entry stored at time 0 under a `ttl` of 10, fetched at time 20. -/
theorem fetch_by_expiry_of_stale_entry :
    (newCache 2 10 : Except CacheError (Cache Nat Nat)) = .ok (ResponseCache.empty 2 10).toCache ∧
      (20 : Time) ≤ 20 ∧
      FetchLaw ((ResponseCache.empty 2 10 : ResponseCache Nat Nat).toCache.run
        [.setResponse "a" 7 0]) "a" 20 20 := by
  have created : (newCache 2 10 : Except CacheError (Cache Nat Nat)) =
      .ok (ResponseCache.empty 2 10).toCache := rfl
  exact ⟨created, le_refl _,
    fetch_by_expiry_at_first_reading created [.setResponse "a" 7 0] "a" (le_refl _)⟩

/-- `Fetch` of an expired entry reaps it and returns nil with a nil error, not the not-found
error, and `FetchReadOnly` then returns `Resource{}` with a nil error. -/
theorem fetch_of_expired_entry_returns_no_error :
    (newCache 2 10 : Except CacheError (Cache Nat Nat)) = .ok (ResponseCache.empty 2 10).toCache ∧
      ((ResponseCache.empty 2 10 : ResponseCache Nat Nat).toCache.run
        [.setResponse "a" 7 0]).find "a" = some ⟨some 7, some ∅, 10⟩ ∧
      (((ResponseCache.empty 2 10 : ResponseCache Nat Nat).toCache.run
        [.setResponse "a" 7 0]).fetch "a" 20 20).2.result = .ok (none, none) ∧
      (((ResponseCache.empty 2 10 : ResponseCache Nat Nat).toCache.run
        [.setResponse "a" 7 0]).fetchReadOnly "a" 20 20).2.result = .ok (.zero, none) :=
  ⟨rfl, by decide, rfl, rfl⟩

/-- The read-locked section of `Fetch` changes no entry; it changes the recency order, writing the
list, exactly when the key has an entry that is not the most recently used. -/
theorem fetch_read_section_writes_recency {maxEntries : Int} {ttl : Duration}
    {c : Cache Request Response} (created : newCache maxEntries ttl = .ok c)
    (calls : List (Call Request Response)) (key : String) :
    (∀ other, ((c.run calls).fetchLookup key).1.find other = (c.run calls).find other) ∧
      (((c.run calls).fetchLookup key).1 = c.run calls ↔
        (c.run calls).find key = none ∨ (c.run calls).cache.keys.head? = some (.string key)) := by
  obtain ⟨-, rfl⟩ := newCache_eq_ok created
  have valid := ResponseCache.valid_run (ResponseCache.valid_empty maxEntries ttl) calls
  rw [ResponseCache.run_toCache]
  generalize (ResponseCache.empty maxEntries ttl).run calls = s at valid
  have front : s.toCache.cache.keys.head? = some (.string key) ↔ s.keys.head? = some key := by
    simp only [ResponseCache.cache_toCache, Lru.Cache.map, Lru.Cache.keys, ResponseCache.keys,
      List.map_map]
    cases s.lru.entries <;> simp [string_injective.eq_iff]
  rw [ResponseCache.fetchLookup_toCache, ResponseCache.toCache_injective.eq_iff,
    ResponseCache.find_toCache, front]
  refine ⟨fun other => by simp [ResponseCache.find_fetchLookup], ?_⟩
  cases found : s.find key with
  | none => simp [ResponseCache.fetchLookup_of_find_none _ _ found]
  | some entry =>
      rw [ResponseCache.fetchLookup_of_find_some _ _ found,
        ResponseCache.moveToFront_eq_self_iff valid found]
      simp

/-- Two entries stored one after the other; the older one is looked up. -/
theorem fetch_read_section_moves_older_entry :
    (newCache 2 0 : Except CacheError (Cache Nat Nat)) = .ok (ResponseCache.empty 2 0).toCache ∧
      (((ResponseCache.empty 2 0 : ResponseCache Nat Nat).toCache.run
        [.setResponse "a" 7 0, .setResponse "b" 8 0]).fetchLookup "a").1 ≠
        (ResponseCache.empty 2 0 : ResponseCache Nat Nat).toCache.run
          [.setResponse "a" 7 0, .setResponse "b" 8 0] := by
  have created : (newCache 2 0 : Except CacheError (Cache Nat Nat)) =
      .ok (ResponseCache.empty 2 0).toCache := rfl
  refine ⟨created, fun same => ?_⟩
  have front := ((fetch_read_section_writes_recency created
    [.setResponse "a" 7 0, .setResponse "b" 8 0] "a").2.mp same)
  revert front
  decide

/-- `NewCache(2, onEvict, 0)`, `SetResponse("a")`, `SetResponse("b")`: the list holds "b" then
"a", and the read-locked `Get("a")` of `Fetch("a")` puts "a" first. -/
theorem fetch_read_section_reorders_at_failing_input :
    (newCache 2 0 : Except CacheError (Cache Nat Nat)) = .ok (ResponseCache.empty 2 0).toCache ∧
      ((ResponseCache.empty 2 0 : ResponseCache Nat Nat).toCache.run
        [.setResponse "a" 7 0, .setResponse "b" 8 0]).cache.keys = [.string "b", .string "a"] ∧
      (((ResponseCache.empty 2 0 : ResponseCache Nat Nat).toCache.run
        [.setResponse "a" 7 0, .setResponse "b" 8 0]).fetchLookup "a").1.cache.keys =
        [.string "a", .string "b"] :=
  ⟨rfl, by decide, by decide⟩

end XdsRelay
