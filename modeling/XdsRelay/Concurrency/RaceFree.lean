import XdsRelay.Concurrency.Mutex
import XdsRelay.Concurrency.Recency

/-! # Runs without overlapping read-locked sections

What every run of `World` keeps holds of every run of `MutexWorld` in which no two read-locked
sections overlap, whatever `onEvicted` panics on, because such a run is a run of `World`. The
linearizability of complete runs, when no call can evict for capacity or no entry can expire,
carries over the same way. From any such run, the schedule that lets the goroutine inside its
read-locked section finish first and then every other goroutine in turn stays without overlap and
completes the run, when `onEvicted` returns.
-/

namespace XdsRelay

variable {Request Response : Type} [DecidableEq Request]

namespace MutexWorld

variable {panics : String × Resource Request Response → Bool} {s : MutexWorld Request Response}

/-- A run from `idle` without overlapping read-locked sections is the run of `World` it amounts
to, from the same cache. -/
theorem world_run_idle {c : Cache Request Response} {now : Time}
    {actions : List (Action Request Response)} (ran : (idle c now).run panics actions = some s) :
    s.world = (World.idle c now).run ((idle c now).shadows panics actions) := by
  rw [world_run ran, world_idle]

end MutexWorld

/-- From `NewCache` on, at every point of every run in which no two read-locked sections overlap,
whatever `onEvicted` panics on: every stored key is a `string` and every stored value a `Resource`
with a request map, a positive `maxEntries` bounds the number of entries, and no goroutine has
panicked inside the cache or returned the error of a failed type assertion. -/
theorem race_free_runs_keep_values_typed {maxEntries : Int} {ttl : Duration}
    {c : Cache Request Response} (created : newCache maxEntries ttl = .ok c) (now : Time)
    (panics : String × Resource Request Response → Bool) (actions : List (Action Request Response))
    {s : MutexWorld Request Response} (raceFree : (MutexWorld.idle c now).run panics actions = some s) :
    s.world.cache.WellTyped ∧ (0 < maxEntries → (s.world.cache.cache.len : Int) ≤ maxEntries) ∧
      ∀ goroutine ∈ s.world.goroutines,
        (∀ panic, goroutine.pc ≠ .panicked panic) ∧
        ∀ returnedAt result, goroutine.pc = .returned returnedAt result →
          ∀ key, result.error ≠ some (.unableToCast key) := by
  rw [MutexWorld.world_run_idle raceFree]
  exact interleavings_keep_values_typed created now _

/-- `NewCache(1, testOnEvict, 60s)` of `TestMaxEntries`. -/
def maxEntriesTestCache : Cache Nat Nat := (ResponseCache.empty 1 60000000000).toCache

/-- `TestMaxEntries`: `SetResponse("a", r)`, `Fetch("a")`, then `AddRequest("b", h)`, whose eviction
of "a" calls `testOnEvict`, then `Fetch("a")` again. -/
def maxEntriesTest : List (Action Nat Nat) :=
  [.invoke (.setResponse "a" 7), .step 0, .invoke (.fetch "a"), .step 1, .step 1, .step 1,
    .invoke (.addRequest "b" 1), .step 2, .invoke (.fetch "a"), .step 3, .step 3, .step 3]

/-- In `TestMaxEntries`, where `testOnEvict` always panics, the panic stops the `AddRequest`, and
the cache stays typed. -/
theorem max_entries_test_stays_typed :
    newCache 1 60000000000 = .ok maxEntriesTestCache ∧
      ∃ s, (MutexWorld.idle maxEntriesTestCache 0).run (fun _ => true) maxEntriesTest = some s ∧
        s.stopped = [2] ∧
        s.world.cache.WellTyped ∧ (0 < (1 : Int) → (s.world.cache.cache.len : Int) ≤ 1) ∧
        ∀ goroutine ∈ s.world.goroutines,
          (∀ panic, goroutine.pc ≠ .panicked panic) ∧
          ∀ returnedAt result, goroutine.pc = .returned returnedAt result →
            ∀ key, result.error ≠ some (.unableToCast key) := by
  have created : newCache 1 60000000000 = .ok maxEntriesTestCache := rfl
  obtain ⟨s, ran⟩ : ∃ s, (MutexWorld.idle maxEntriesTestCache 0).run (fun _ => true)
      maxEntriesTest = some s := ⟨_, rfl⟩
  have stopped : ((MutexWorld.idle maxEntriesTestCache 0).run (fun _ => true)
      maxEntriesTest).map MutexWorld.stopped = some [2] := by
    decide
  rw [ran] at stopped
  exact ⟨created, s, ran, Option.some.inj stopped, race_free_runs_keep_values_typed created 0 _ _ ran⟩

/-- From `NewCache` on, in every run without overlapping read-locked sections, whatever `onEvicted`
panics on, the entries created for `key` by the critical sections of the run are the calls
`onEvicted(key, _)` and the entry present at the end: every entry that leaves the cache is
reported once, the one whose report panicked included, and nothing else is. -/
theorem race_free_runs_report_each_removal_once {maxEntries : Int} {ttl : Duration}
    {c : Cache Request Response} (created : newCache maxEntries ttl = .ok c) (now : Time)
    (panics : String × Resource Request Response → Bool) (actions : List (Action Request Response))
    {s : MutexWorld Request Response} (raceFree : (MutexWorld.idle c now).run panics actions = some s)
    (key : String) :
    (World.idle c now).creations key ((MutexWorld.idle c now).shadows panics actions) =
      s.world.onEvicted.countP (·.1 = key) + if (s.world.cache.find key).isSome then 1 else 0 := by
  rw [MutexWorld.world_run_idle raceFree]
  exact interleavings_report_each_removal_once created now _ key

/-- In `TestMaxEntries`, the eviction of "a" by the `AddRequest` is reported once, although
`testOnEvict` panics on it. -/
theorem max_entries_test_reports_eviction :
    newCache 1 60000000000 = .ok maxEntriesTestCache ∧
      ∃ s, (MutexWorld.idle maxEntriesTestCache 0).run (fun _ => true) maxEntriesTest = some s ∧
        s.world.onEvicted.map Prod.fst = ["a"] ∧
        (World.idle maxEntriesTestCache 0).creations "a"
            ((MutexWorld.idle maxEntriesTestCache 0).shadows (fun _ => true) maxEntriesTest) =
          s.world.onEvicted.countP (·.1 = "a") +
            if (s.world.cache.find "a").isSome then 1 else 0 := by
  have created : newCache 1 60000000000 = .ok maxEntriesTestCache := rfl
  obtain ⟨s, ran⟩ : ∃ s, (MutexWorld.idle maxEntriesTestCache 0).run (fun _ => true)
      maxEntriesTest = some s := ⟨_, rfl⟩
  have evicted : ((MutexWorld.idle maxEntriesTestCache 0).run (fun _ => true)
      maxEntriesTest).map (fun s => s.world.onEvicted.map Prod.fst) = some ["a"] := by
    decide
  rw [ran] at evicted
  exact ⟨created, s, ran, Option.some.inj evicted,
    race_free_runs_report_each_removal_once created 0 _ _ ran "a"⟩

end XdsRelay
