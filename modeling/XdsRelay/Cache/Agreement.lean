import XdsRelay.Cache.Eviction

/-! # States that agree but for the recency of some keys

Two states agree on a set of pending keys when they have the same entries and the same recency
order once the pending keys are left out. The recency order decides only which entry a full cache
evicts for capacity. So when no call evicts for capacity, because there is no capacity limit or
room for every key the calls use, agreeing states run every call alike and still agree after it;
a call on a key puts that key at the front or removes it in both, which settles its place.
-/

namespace XdsRelay

variable {Request Response : Type}

/-! ## The list with room for one more entry -/

namespace Lru

variable {Key Value : Type} [DecidableEq Key]

theorem filter_unlink (keep : Key × Value → Bool) (key : Key) (entries : List (Key × Value)) :
    (unlink key entries).filter keep = unlink key (entries.filter keep) := by
  simp only [unlink, List.filter_filter, Bool.and_comm]

theorem unlink_of_lookup_none {key : Key} {entries : List (Key × Value)}
    (missing : lookup key entries = none) : unlink key entries = entries :=
  List.filter_eq_self.mpr fun entry member => by
    simpa using fun same : entry.1 = key =>
      lookup_eq_none_iff.mp missing (same ▸ List.mem_map_of_mem Prod.fst member)

theorem Cache.entries_remove (cache : Cache Key Value) (key : Key) :
    (cache.remove key).1.entries = unlink key cache.entries := by
  cases found : lookup key cache.entries with
  | none => rw [cache.remove_of_lookup_none key found, unlink_of_lookup_none found]
  | some value => rw [cache.remove_of_lookup_some key found]

/-- With no capacity limit, or room for one more entry, `Add` of a new key pushes it and evicts
nothing. -/
theorem Cache.add_of_room (cache : Cache Key Value) {key : Key} (value : Value)
    (room : cache.maxEntries = 0 ∨ (cache.len : Int) < cache.maxEntries)
    (missing : lookup key cache.entries = none) :
    cache.add key value = ({ cache with entries := (key, value) :: cache.entries }, []) := by
  rw [cache.add_of_lookup_none key value missing, if_neg fun full => ?_]
  rcases room with unbounded | room
  · exact full.1 unbounded
  · exact absurd full.2 (not_le.mpr room)

end Lru

namespace ResponseCache

/-! ## Room for every key -/

/-- Every key `s` holds is one of `keys`, and `maxEntries` is 0 or leaves room for all of them at
once: inserting one of `keys` into `s` evicts nothing for capacity. -/
def Roomy (keys : List String) (s : ResponseCache Request Response) : Prop :=
  s.lru.maxEntries = 0 ∨ (∀ key ∈ s.keys, key ∈ keys) ∧ (keys.length : Int) ≤ s.lru.maxEntries

theorem mem_keys_iff {s : ResponseCache Request Response} {key : String} :
    key ∈ s.keys ↔ s.find key ≠ none := by
  rw [Ne, find, Lru.lookup_eq_none_iff, not_not]
  rfl

namespace Roomy

variable {keys : List String} {s : ResponseCache Request Response}

/-- A state with room for `keys` inserts a missing one of them without evicting. -/
theorem room (roomy : s.Roomy keys) (valid : s.Valid) {key : String} (member : key ∈ keys)
    (missing : s.find key = none) :
    s.lru.maxEntries = 0 ∨ (s.lru.len : Int) < s.lru.maxEntries := by
  refine roomy.imp_right fun ⟨covered, fits⟩ => ?_
  have nodup : (key :: s.keys).Nodup :=
    List.nodup_cons.mpr ⟨fun held => mem_keys_iff.mp held missing, valid⟩
  have within := (nodup.subperm (List.cons_subset.mpr ⟨member, covered⟩)).length_le
  simp only [List.length_cons, ResponseCache.keys, Lru.Cache.keys, List.length_map] at within
  simp only [Lru.Cache.len]
  omega

variable [DecidableEq Request]

/-- A call on one of `keys` keeps the room for them. -/
theorem step (roomy : s.Roomy keys) (valid : s.Valid) (call : Call Request Response)
    (member : call.key ∈ keys) : (s.step call).next.Roomy keys := by
  rcases roomy with unbounded | ⟨covered, fits⟩
  · exact .inl (by rw [maxEntries_step]; exact unbounded)
  refine .inr ⟨fun key held => ?_, by rw [maxEntries_step]; exact fits⟩
  by_cases same : key = call.key
  · exact same ▸ member
  · rcases find_step_of_ne valid call same with kept | gone
    · exact covered key (mem_keys_iff.mpr (kept ▸ mem_keys_iff.mp held))
    · exact absurd gone (mem_keys_iff.mp held)

theorem run (roomy : s.Roomy keys) (valid : s.Valid) {calls : List (Call Request Response)}
    (members : ∀ call ∈ calls, call.key ∈ keys) : (s.run calls).Roomy keys := by
  induction calls generalizing s with
  | nil => exact roomy
  | cons call calls induction =>
      exact induction (roomy.step valid call (members call (List.mem_cons_self _ _)))
        (valid_step valid call) fun other member => members other (List.mem_cons_of_mem _ member)

end Roomy

/-! ## Agreeing states -/

/-- Two states with the same `maxEntries`, `ttl` and entries, whose recency orders agree once the
keys `pending` marks are left out. -/
structure Agree (pending : String → Bool) (s s' : ResponseCache Request Response) : Prop where
  maxEntries : s.lru.maxEntries = s'.lru.maxEntries
  ttl : s.ttl = s'.ttl
  find : ∀ key, s.find key = s'.find key
  order : s.lru.entries.filter (fun entry => !pending entry.1) =
    s'.lru.entries.filter (fun entry => !pending entry.1)

namespace Agree

variable {pending other : String → Bool} {s s' s'' : ResponseCache Request Response}

theorem refl (pending : String → Bool) (s : ResponseCache Request Response) : Agree pending s s :=
  ⟨rfl, rfl, fun _ => rfl, rfl⟩

private theorem filter_not_or (entries : List (String × CacheEntry Request Response)) :
    entries.filter (fun entry => !(pending entry.1 || other entry.1)) =
      (entries.filter fun entry => !pending entry.1).filter fun entry => !other entry.1 := by
  simp only [List.filter_filter, Bool.not_or, Bool.and_comm]

theorem trans (first : Agree pending s s') (second : Agree other s' s'') :
    Agree (fun key => pending key || other key) s s'' := by
  refine ⟨first.maxEntries.trans second.maxEntries, first.ttl.trans second.ttl,
    fun key => (first.find key).trans (second.find key), ?_⟩
  calc s.lru.entries.filter (fun entry => !(pending entry.1 || other entry.1))
      = (s'.lru.entries.filter fun entry => !pending entry.1).filter
          fun entry => !other entry.1 := by rw [filter_not_or, first.order]
    _ = (s'.lru.entries.filter fun entry => !other entry.1).filter
          fun entry => !pending entry.1 := by simp only [List.filter_filter, Bool.and_comm]
    _ = s''.lru.entries.filter (fun entry => !(pending entry.1 || other entry.1)) := by
          rw [second.order, List.filter_filter]
          simp only [Bool.not_or]

section Shapes

variable {pending : String → Bool} {s s' : ResponseCache Request Response}
  (agree : Agree pending s s')
include agree

theorem getExpirationTime_eq : s.getExpirationTime = s'.getExpirationTime := by
  funext now
  simp only [ResponseCache.getExpirationTime, agree.ttl]

theorem roomy_iff {keys : List String} : s.Roomy keys ↔ s'.Roomy keys := by
  have held : ∀ key, key ∈ s.keys ↔ key ∈ s'.keys := fun key => by
    rw [mem_keys_iff, mem_keys_iff, agree.find]
  simp only [Roomy, agree.maxEntries, held]

theorem moveToFront (key : String) (entry : CacheEntry Request Response) :
    Agree pending (s.moveToFront key entry) (s'.moveToFront key entry) := by
  refine ⟨agree.maxEntries, agree.ttl, fun other => ?_, ?_⟩
  · rw [find_moveToFront, find_moveToFront, agree.find]
  · simp only [ResponseCache.moveToFront, lru_withLru, Lru.Cache.entries_moveToFront,
      List.filter_cons, Lru.filter_unlink, agree.order]

theorem remove (key : String) :
    Agree pending (s.withLru (s.lru.remove key).1) (s'.withLru (s'.lru.remove key).1) := by
  refine ⟨by simp [agree.maxEntries], agree.ttl, fun other => ?_, ?_⟩
  · rw [find_remove, find_remove, agree.find]
  · simp only [lru_withLru, Lru.Cache.entries_remove, Lru.filter_unlink, agree.order]

theorem add (room : s.lru.maxEntries = 0 ∨ (s.lru.len : Int) < s.lru.maxEntries)
    (room' : s'.lru.maxEntries = 0 ∨ (s'.lru.len : Int) < s'.lru.maxEntries) {key : String}
    (missing : s.find key = none) (entry : CacheEntry Request Response) :
    Agree pending (s.withLru (s.lru.add key entry).1) (s'.withLru (s'.lru.add key entry).1) := by
  have missing' : s'.find key = none := agree.find key ▸ missing
  rw [s.lru.add_of_room entry room missing, s'.lru.add_of_room entry room' missing']
  refine ⟨agree.maxEntries, agree.ttl, fun other => ?_, ?_⟩
  · by_cases same : other = key
    · subst same
      simp [find]
    · simp only [find_withLru, Lru.lookup_cons_of_ne _ _ (Ne.symm same)]
      exact agree.find other
  · simp only [lru_withLru, List.filter_cons, agree.order]

variable [DecidableEq Request]

/-- A call on a key two agreeing states have room for does the same on both, and they agree
after it. -/
theorem step {keys : List String} (roomy : s.Roomy keys) (valid : s.Valid) (valid' : s'.Valid)
    (call : Call Request Response) (member : call.key ∈ keys) :
    Agree pending (s.step call).next (s'.step call).next ∧
      (s.step call).evicted = (s'.step call).evicted ∧
      (s.step call).value = (s'.step call).value := by
  have expiration := agree.getExpirationTime_eq
  have room := fun missing : s.find call.key = none => roomy.room valid member missing
  have room' := fun missing : s'.find call.key = none =>
    (agree.roomy_iff.mp roomy).room valid' member missing
  cases call with
  | fetch key firstNow secondNow =>
      cases found : s.find key with
      | none =>
          have found' : s'.find key = none := agree.find key ▸ found
          simp only [ResponseCache.step, Effect.map, fetch_of_find_none _ found,
            fetch_of_find_none _ found']
          exact ⟨agree, trivial, trivial⟩
      | some entry =>
          have found' : s'.find key = some entry := agree.find key ▸ found
          cases expired : entry.isExpired firstNow
          · simp only [ResponseCache.step, Effect.map, fetch_of_live _ found expired,
              fetch_of_live _ found' expired]
            exact ⟨agree.moveToFront key entry, trivial, trivial⟩
          · cases expiredAgain : entry.isExpired secondNow
            · simp only [ResponseCache.step, Effect.map,
                fetch_of_refreshed _ found expired expiredAgain,
                fetch_of_refreshed _ found' expired expiredAgain]
              exact ⟨agree.moveToFront key entry, trivial, trivial⟩
            · simp only [ResponseCache.step, Effect.map,
                fetch_of_expired _ found expired expiredAgain,
                fetch_of_expired _ found' expired expiredAgain]
              exact ⟨agree.remove key, trivial, trivial⟩
  | setResponse key response now =>
      cases found : s.find key with
      | none =>
          have found' : s'.find key = none := agree.find key ▸ found
          simp only [ResponseCache.step, Effect.map, setResponse_of_find_none _ _ _ found,
            setResponse_of_find_none _ _ _ found', expiration]
          refine ⟨agree.add (room found) (room' found') found _, ?_, trivial⟩
          rw [s.lru.add_of_room _ (room found) found, s'.lru.add_of_room _ (room' found') found']
      | some entry =>
          have found' : s'.find key = some entry := agree.find key ▸ found
          simp only [ResponseCache.step, Effect.map, setResponse_of_find_some _ _ _ found,
            setResponse_of_find_some _ _ _ found', expiration]
          exact ⟨agree.moveToFront key _, trivial, trivial⟩
  | addRequest key req now =>
      cases found : s.find key with
      | none =>
          have found' : s'.find key = none := agree.find key ▸ found
          simp only [ResponseCache.step, Effect.map, addRequest_of_find_none _ _ _ found,
            addRequest_of_find_none _ _ _ found', expiration]
          refine ⟨agree.add (room found) (room' found') found _, ?_, trivial⟩
          rw [s.lru.add_of_room _ (room found) found, s'.lru.add_of_room _ (room' found') found']
      | some entry =>
          have found' : s'.find key = some entry := agree.find key ▸ found
          simp only [ResponseCache.step, Effect.map, addRequest_of_find_some _ _ _ found,
            addRequest_of_find_some _ _ _ found']
          exact ⟨agree.moveToFront key _, trivial, trivial⟩
  | deleteRequest key req =>
      cases found : s.find key with
      | none =>
          have found' : s'.find key = none := agree.find key ▸ found
          simp only [ResponseCache.step, Effect.map, deleteRequest_of_find_none _ _ found,
            deleteRequest_of_find_none _ _ found']
          exact ⟨agree, trivial, trivial⟩
      | some entry =>
          have found' : s'.find key = some entry := agree.find key ▸ found
          simp only [ResponseCache.step, Effect.map, deleteRequest_of_find_some _ _ found,
            deleteRequest_of_find_some _ _ found']
          exact ⟨agree.moveToFront key _, trivial, trivial⟩

end Shapes

end Agree

/-! ## A call settles the place of its key -/

variable [DecidableEq Request]

/-- After a call on a key a state has room for, the key is at the front of the list or has no
entry. -/
theorem front_or_absent_step {keys : List String} {s : ResponseCache Request Response}
    (roomy : s.Roomy keys) (valid : s.Valid) (call : Call Request Response)
    (member : call.key ∈ keys) :
    (∃ entry, (s.step call).next.lru.entries.head? = some (call.key, entry)) ∨
      (s.step call).next.find call.key = none := by
  cases s.stepCase call with
  | miss missing _ unchanged => exact .inr (by rw [unchanged]; exact missing)
  | keep _ moved => exact .inl ⟨_, by rw [moved]; rfl⟩
  | reap _ _ _ _ removed => exact .inr (by rw [removed, find_remove, if_pos rfl])
  | create missing _ added =>
      exact .inl ⟨_, by
        rw [added, lru_withLru, s.lru.add_of_room _ (roomy.room valid member missing) missing]; rfl⟩

omit [DecidableEq Request] in
/-- Once a key is at the front of the list or absent, the order with the key no longer left out
is the key's entry, then the order without it. -/
private theorem filter_resolved {pending : String → Bool} {key : String}
    {entries : List (String × CacheEntry Request Response)} (nodup : (entries.map Prod.fst).Nodup)
    (resolved : (∃ entry, entries.head? = some (key, entry)) ∨ Lru.lookup key entries = none) :
    entries.filter (fun entry => !(pending entry.1 && entry.1 != key)) =
      (Lru.lookup key entries).toList.map (key, ·) ++
        Lru.unlink key (entries.filter fun entry => !pending entry.1) := by
  have others : ∀ rest : List (String × CacheEntry Request Response),
      key ∉ rest.map Prod.fst →
      rest.filter (fun entry => !(pending entry.1 && entry.1 != key)) =
        rest.filter fun entry => !pending entry.1 := fun rest absent =>
    List.filter_congr fun entry member => by
      have different : entry.1 ≠ key := fun same => absent (same ▸ List.mem_map_of_mem _ member)
      simp [different]
  have unlinked : ∀ rest : List (String × CacheEntry Request Response),
      key ∉ rest.map Prod.fst →
      Lru.unlink key (rest.filter fun entry => !pending entry.1) =
        rest.filter fun entry => !pending entry.1 := fun rest absent =>
    Lru.unlink_of_lookup_none (Lru.lookup_eq_none_iff.mpr fun member => by
      obtain ⟨kept, filtered, same⟩ := List.mem_map.mp member
      exact absent (same ▸ List.mem_map_of_mem _ (List.mem_of_mem_filter filtered)))
  rcases resolved with ⟨entry, front⟩ | missing
  · obtain ⟨rest, rfl⟩ : ∃ rest, entries = (key, entry) :: rest := by
      cases entries with
      | nil => cases front
      | cons head rest => exact ⟨rest, by simpa using front⟩
    have absent : key ∉ rest.map Prod.fst := (List.nodup_cons.mp nodup).1
    rw [List.filter_cons_of_pos (by simp), others rest absent, Lru.lookup_cons_self]
    cases marked : pending key <;>
      simp [marked, List.filter_cons, Lru.unlink_cons_self, unlinked rest absent]
  · have absent := Lru.lookup_eq_none_iff.mp missing
    rw [others entries absent, missing, unlinked entries absent]
    rfl

omit [DecidableEq Request] in
/-- Moving a present key to the front changes the order only of that key. -/
theorem agree_moveToFront_self {s : ResponseCache Request Response} {key : String}
    {entry : CacheEntry Request Response} (found : s.find key = some entry) :
    Agree (· == key) (s.moveToFront key entry) s := by
  refine ⟨rfl, rfl, find_moveToFront_of_find _ found, ?_⟩
  simp only [moveToFront, lru_withLru, Lru.Cache.entries_moveToFront, List.filter_cons,
    beq_self_eq_true, Bool.not_true, Lru.filter_unlink]
  simp [Lru.unlink, List.filter_filter, bne]

/-- A `Fetch` that evicts nothing changes the state only by moving its key. -/
theorem agree_fetch_of_kept (s : ResponseCache Request Response) (key : String)
    (firstNow secondNow : Time) (kept : (s.step (.fetch key firstNow secondNow)).evicted = []) :
    Agree (· == key) (s.step (.fetch key firstNow secondNow)).next s := by
  cases s.stepCase (.fetch key firstNow secondNow) with
  | miss _ _ unchanged => rw [unchanged]; exact Agree.refl _ s
  | keep found moved => rw [moved]; exact agree_moveToFront_self found
  | reap _ _ _ _ _ evictedSelf => rw [evictedSelf] at kept; cases kept
  | create _ stores => cases stores

namespace Agree

variable {pending : String → Bool} {s s' : ResponseCache Request Response}

omit [DecidableEq Request] in
/-- With no key pending, two agreeing states are equal. -/
theorem eq (agree : Agree pending s s') (settled : ∀ key, pending key = false) : s = s' := by
  obtain ⟨⟨maxEntries, entries⟩, ttl⟩ := s
  obtain ⟨⟨maxEntries', entries'⟩, ttl'⟩ := s'
  have order := agree.order
  simp only [settled, Bool.not_false, List.filter_true] at order
  cases agree.maxEntries
  cases agree.ttl
  cases order
  rfl

/-- A call keeps the agreement when the states have room for its key, or when no key is pending
and the two states are one. -/
theorem step_of (agree : Agree pending s s') {keys : List String} (valid : s.Valid)
    (valid' : s'.Valid) (call : Call Request Response)
    (quiet : s.Roomy keys ∧ call.key ∈ keys ∨ ∀ key, pending key = false) :
    Agree pending (s.step call).next (s'.step call).next ∧
      (s.step call).evicted = (s'.step call).evicted ∧
      (s.step call).value = (s'.step call).value := by
  rcases quiet with ⟨roomy, member⟩ | settled
  · exact agree.step roomy valid valid' call member
  · cases agree.eq settled
    exact ⟨refl pending _, rfl, rfl⟩

/-- After a call on its key, two agreeing states hold that key at the same place too. -/
theorem step_resolves (agree : Agree pending s s') {keys : List String} (roomy : s.Roomy keys)
    (valid : s.Valid) (valid' : s'.Valid) (call : Call Request Response)
    (member : call.key ∈ keys) :
    Agree (fun other => pending other && other != call.key) (s.step call).next
      (s'.step call).next := by
  obtain ⟨next, -, -⟩ := agree.step roomy valid valid' call member
  refine ⟨next.maxEntries, next.ttl, next.find, ?_⟩
  rw [filter_resolved (valid_step valid call) (front_or_absent_step roomy valid call member),
    filter_resolved (valid_step valid' call)
      (front_or_absent_step (agree.roomy_iff.mp roomy) valid' call member)]
  exact congrArg₂ (· ++ ·) (congrArg (fun found => Option.toList found |>.map (call.key, ·))
    (next.find call.key)) (congrArg _ next.order)

/-- Two agreeing states with room for the keys of some calls run those calls alike. -/
theorem run (agree : Agree pending s s') {keys : List String} (roomy : s.Roomy keys)
    (valid : s.Valid) (valid' : s'.Valid) (calls : List (Call Request Response))
    (members : ∀ call ∈ calls, call.key ∈ keys) :
    Agree pending (s.run calls) (s'.run calls) ∧
      s.toCache.outcomes calls = s'.toCache.outcomes calls := by
  induction calls generalizing s s' with
  | nil => exact ⟨agree, rfl⟩
  | cons call calls induction =>
      have member := members call (List.mem_cons_self _ _)
      obtain ⟨next, evicted, value⟩ := agree.step roomy valid valid' call member
      obtain ⟨rest, outcomes⟩ := induction next (roomy.step valid call member)
        (valid_step valid call) (valid_step valid' call)
        fun other member => members other (List.mem_cons_of_mem _ member)
      refine ⟨rest, ?_⟩
      simp only [Cache.outcomes, step_toCache, evicted, value, outcomes]

end Agree

end ResponseCache

/-! ## Runs split at a call -/

variable [DecidableEq Request]

theorem Cache.length_outcomes (c : Cache Request Response) (calls : List (Call Request Response)) :
    (c.outcomes calls).length = calls.length := by
  induction calls generalizing c with
  | nil => rfl
  | cons call calls induction => simp [Cache.outcomes, induction]

theorem Cache.outcomes_append (c : Cache Request Response)
    (first second : List (Call Request Response)) :
    c.outcomes (first ++ second) = c.outcomes first ++ (c.run first).outcomes second := by
  induction first generalizing c with
  | nil => rfl
  | cons call calls induction => simp [Cache.outcomes, Cache.run, induction]

namespace ResponseCache

variable (s : ResponseCache Request Response)

theorem run_append (first second : List (Call Request Response)) :
    s.run (first ++ second) = (s.run first).run second := by
  induction first generalizing s with
  | nil => rfl
  | cons call calls induction => simp [run, induction]

theorem run_append_call (calls : List (Call Request Response)) (call : Call Request Response) :
    s.run (calls ++ [call]) = ((s.run calls).step call).next := by
  rw [run_append]
  rfl

/-- The outcomes of a run around one call: those before it, its own, and those after it from the
state it leaves. -/
theorem outcomes_middle (first : List (Call Request Response)) (call : Call Request Response)
    (rest : List (Call Request Response)) :
    s.toCache.outcomes (first ++ call :: rest) = s.toCache.outcomes first ++
      ⟨((s.run first).step call).evicted.map evictedPair,
        .ok ((s.run first).step call).value⟩ ::
        ((s.run first).step call).next.toCache.outcomes rest := by
  rw [Cache.outcomes_append, run_toCache]
  simp only [Cache.outcomes, step_toCache]

theorem outcomes_append_call (calls : List (Call Request Response)) (call : Call Request Response) :
    s.toCache.outcomes (calls ++ [call]) = s.toCache.outcomes calls ++
      [⟨((s.run calls).step call).evicted.map evictedPair,
        .ok ((s.run calls).step call).value⟩] := by
  rw [outcomes_middle]
  rfl

end ResponseCache

end XdsRelay
