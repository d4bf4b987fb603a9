import XdsRelay.Cache.Steps
import XdsRelay.Cache.TypeSafety

/-! # Each entry is determined by the calls since it was created

The response of an entry is that of the last `SetResponse` on its key, its request set holds
the requests added and not deleted since, and its deadline counts from the last `SetResponse`,
or from the call that created the entry. Nothing else moves the deadline, and calls on other
keys touch the entry only by evicting it.
-/

namespace XdsRelay

variable {Request Response : Type}

namespace Call

/-- The response a `SetResponse` stores. -/
def response? : Call Request Response → Option Response
  | .setResponse _ response _ => some response
  | .fetch .. | .addRequest .. | .deleteRequest .. => none

/-- The clock reading of a `SetResponse`. -/
def setTime? : Call Request Response → Option Time
  | .setResponse _ _ now => some now
  | .fetch .. | .addRequest .. | .deleteRequest .. => none

/-- The clock reading of a call that stores an entry when its key is absent. -/
def storeTime? : Call Request Response → Option Time
  | .setResponse _ _ now | .addRequest _ _ now => some now
  | .fetch .. | .deleteRequest .. => none

end Call

/-! ## The law -/

/-- The response of the last `SetResponse` among `calls`. -/
def lastResponse (calls : List (Call Request Response)) : Option Response :=
  (calls.filterMap Call.response?).getLast?

/-- The clock reading a deadline counts from: that of the last `SetResponse` among `calls`, or
else that of the first call, which created the entry. -/
def deadlineBase (calls : List (Call Request Response)) : Option Time :=
  (calls.filterMap Call.setTime?).getLast?.or (calls.head?.bind Call.storeTime?)

/-- Some `AddRequest` of `req` among `calls` is followed by no `DeleteRequest` of it. -/
def Pending (key : String) (req : Request) (calls : List (Call Request Response)) : Prop :=
  ∃ front back now, calls = front ++ .addRequest key req now :: back ∧ .deleteRequest key req ∉ back

/-- What the calls naming `key` since its entry was created determine of the entry's
`Resource`, under a cache with this `ttl`. -/
structure EntryLaw (ttl : Duration) (key : String) (calls : List (Call Request Response))
    (resource : Resource Request Response) : Prop where
  resp : resource.resp = lastResponse calls
  requests : ∃ requests, resource.requests = some requests ∧
    ∀ req, req ∈ requests ↔ Pending key req calls
  expirationTime : ∃ base, deadlineBase calls = some base ∧
    resource.expirationTime = if ttl = 0 then 0 else base + ttl

theorem lastResponse_append_singleton (calls : List (Call Request Response))
    (call : Call Request Response) :
    lastResponse (calls ++ [call]) = call.response?.or (lastResponse calls) := by
  cases call <;> simp [lastResponse, Call.response?]

theorem deadlineBase_append_singleton {calls : List (Call Request Response)} (started : calls ≠ [])
    (call : Call Request Response) :
    deadlineBase (calls ++ [call]) = call.setTime?.or (deadlineBase calls) := by
  obtain ⟨first, rest, rfl⟩ := List.exists_cons_of_ne_nil started
  cases call <;> simp [deadlineBase, Call.setTime?]

theorem deadlineBase_ne_nil {calls : List (Call Request Response)} {base : Time}
    (based : deadlineBase calls = some base) : calls ≠ [] := by
  rintro rfl
  cases based

theorem pending_append_singleton {key : String} {req : Request}
    {calls : List (Call Request Response)} {call : Call Request Response} :
    Pending key req (calls ++ [call]) ↔
      (∃ now, call = .addRequest key req now) ∨
        (Pending key req calls ∧ call ≠ .deleteRequest key req) := by
  constructor
  · rintro ⟨front, back, now, split, notDeleted⟩
    rcases List.eq_nil_or_concat back with rfl | ⟨back, last, rfl⟩
    · exact .inl ⟨now, (List.append_inj' split rfl).2 |> List.singleton_inj.mp⟩
    · rw [List.concat_eq_append, ← List.cons_append, ← List.append_assoc] at split
      obtain ⟨earlier, lastCall⟩ := List.append_inj' split rfl
      cases List.singleton_inj.mp lastCall
      exact .inr ⟨⟨front, back, now, earlier, fun member => notDeleted (by simp [member])⟩,
        fun deleting => notDeleted (by simp [deleting])⟩
  · rintro (⟨now, rfl⟩ | ⟨⟨front, back, now, rfl, notDeleted⟩, notDeleting⟩)
    · exact ⟨calls, [], now, rfl, List.not_mem_nil _⟩
    · refine ⟨front, back ++ [call], now, by simp, ?_⟩
      simp only [List.mem_append, List.mem_singleton, not_or]
      exact ⟨notDeleted, Ne.symm notDeleting⟩

theorem pending_singleton {key : String} {req : Request} {call : Call Request Response} :
    Pending key req [call] ↔ ∃ now, call = .addRequest key req now := by
  simpa [Pending] using (pending_append_singleton : Pending key req ([] ++ [call]) ↔ _)

theorem entryLaw_toResource_iff {ttl : Duration} {key : String}
    {calls : List (Call Request Response)} {entry : CacheEntry Request Response} :
    EntryLaw ttl key calls entry.toResource ↔
      entry.resp = lastResponse calls ∧ (∀ req, req ∈ entry.requests ↔ Pending key req calls) ∧
        ∃ base, deadlineBase calls = some base ∧
          entry.expirationTime = if ttl = 0 then 0 else base + ttl := by
  constructor
  · rintro ⟨resp, ⟨requests, same, members⟩, expirationTime⟩
    cases same
    exact ⟨resp, members, expirationTime⟩
  · rintro ⟨resp, members, expirationTime⟩
    exact ⟨resp, ⟨entry.requests, rfl, members⟩, expirationTime⟩

/-! ## One call -/

namespace ResponseCache

variable [DecidableEq Request] (s : ResponseCache Request Response)

/-- A call that keeps its key's entry moves it as the law of the longer history says. -/
theorem entryLaw_updated (nonnegative : 0 ≤ s.ttl) {call : Call Request Response}
    {since : List (Call Request Response)} {entry : CacheEntry Request Response}
    (law : EntryLaw s.ttl call.key since entry.toResource) :
    EntryLaw s.ttl call.key (since ++ [call]) (s.updated call entry).toResource := by
  rw [entryLaw_toResource_iff] at law ⊢
  obtain ⟨resp, members, base, based, expiration⟩ := law
  have started := deadlineBase_ne_nil based
  refine ⟨?_, fun req => ?_, ?_⟩
  · cases call <;> simp [updated, lastResponse_append_singleton, Call.response?, resp]
  · rw [pending_append_singleton, ← members]
    cases call <;> simp [updated, Finset.mem_insert, Finset.mem_erase, and_comm, eq_comm]
  · rw [deadlineBase_append_singleton started, based]
    cases call with
    | setResponse key response now =>
        exact ⟨now, rfl, by simp [updated, s.getExpirationTime_eq nonnegative now]⟩
    | _ => exact ⟨base, rfl, by simpa [updated] using expiration⟩

omit [DecidableEq Request] in
/-- A call that creates its key's entry stores what the law of that one call says. -/
theorem entryLaw_created (nonnegative : 0 ≤ s.ttl) {call : Call Request Response}
    {entry : CacheEntry Request Response} (stores : s.created call = some entry) :
    EntryLaw s.ttl call.key [call] entry.toResource := by
  rw [entryLaw_toResource_iff]
  cases call with
  | setResponse key response now =>
      cases stores
      exact ⟨rfl, fun req => by simp [pending_singleton],
        now, rfl, s.getExpirationTime_eq nonnegative now⟩
  | addRequest key req now =>
      cases stores
      exact ⟨rfl, fun other => by simp [pending_singleton, eq_comm],
        now, rfl, s.getExpirationTime_eq nonnegative now⟩
  | fetch => cases stores
  | deleteRequest => cases stores

end ResponseCache

/-! ## Runs -/

/-- The calls naming each key since its entry was created, after `call` on `c`: a call that finds
its key absent and stores it starts them afresh, and any other call naming the key is appended. -/
def trackSinceCreation (c : Cache Request Response) (call : Call Request Response)
    (since : String → List (Call Request Response)) (key : String) : List (Call Request Response) :=
  if call.key = key then
    if call.inserts && (c.find key).isNone then [call] else since key ++ [call]
  else since key

variable [DecidableEq Request]

/-- The calls naming each key since its entry was created, after a run that starts from `since`. -/
def Cache.sinceCreation (c : Cache Request Response) (since : String → List (Call Request Response)) :
    List (Call Request Response) → String → List (Call Request Response)
  | [] => since
  | call :: calls => (c.step call).1.sinceCreation (trackSinceCreation c call since) calls

/-- Every present entry follows the law of the calls since its creation. -/
def LawHolds (ttl : Duration) (c : Cache Request Response)
    (since : String → List (Call Request Response)) : Prop :=
  ∀ key resource, c.find key = some resource → EntryLaw ttl key (since key) resource

omit [DecidableEq Request] in
theorem lawHolds_empty (maxEntries : Int) (ttl : Duration)
    (since : String → List (Call Request Response)) :
    LawHolds ttl (ResponseCache.empty maxEntries ttl : ResponseCache Request Response).toCache since := by
  intro key resource present
  simp [ResponseCache.find, ResponseCache.empty] at present

theorem lawHolds_step {s : ResponseCache Request Response} (valid : s.Valid)
    (nonnegative : 0 ≤ s.ttl) {since : String → List (Call Request Response)}
    (holds : LawHolds s.ttl s.toCache since) (call : Call Request Response) :
    LawHolds s.ttl (s.step call).next.toCache (trackSinceCreation s.toCache call since) := by
  intro key resource stored
  rw [ResponseCache.find_toCache] at stored
  obtain ⟨entry, present, rfl⟩ := Option.map_eq_some'.mp stored
  clear stored
  have unchanged : key ≠ call.key → s.find key = some entry →
      EntryLaw s.ttl key (trackSinceCreation s.toCache call since key) entry.toResource :=
    fun different found => by
      rw [trackSinceCreation, if_neg (Ne.symm different)]
      exact holds key _ (by simp [found])
  cases s.stepCase call with
  | miss missing _ same =>
      rw [same] at present
      exact unchanged (fun equal => by simp_all) present
  | @keep previous found moved _ =>
      rw [moved, ResponseCache.find_moveToFront] at present
      split at present
      · subst key
        cases present
        have law := holds call.key previous.toResource (by simp [found])
        simpa [trackSinceCreation, found] using s.entryLaw_updated nonnegative law
      · exact unchanged ‹_› present
  | reap found _ _ _ removed =>
      rw [removed, ResponseCache.find_remove] at present
      split at present
      · cases present
      · exact unchanged ‹_› present
  | create missing stores added =>
      rw [added, ResponseCache.find_add _ _ _ _ valid] at present
      split at present
      · cases present
      · split at present
        · subst key
          cases present
          simpa [trackSinceCreation, missing, ResponseCache.inserts_of_created s stores]
            using s.entryLaw_created nonnegative stores
        · exact unchanged ‹_› present

theorem lawHolds_run {s : ResponseCache Request Response} (valid : s.Valid)
    (nonnegative : 0 ≤ s.ttl) {since : String → List (Call Request Response)}
    (holds : LawHolds s.ttl s.toCache since) (calls : List (Call Request Response)) :
    LawHolds s.ttl (s.run calls).toCache (s.toCache.sinceCreation since calls) := by
  induction calls generalizing s since with
  | nil => exact holds
  | cons call calls induction =>
      have next := induction (ResponseCache.valid_step valid call)
        (by simpa using nonnegative) (by simpa using lawHolds_step valid nonnegative holds call)
      simpa [Cache.sinceCreation, ResponseCache.run, ResponseCache.step_toCache] using next

/-- From `NewCache` on, whenever a key has an entry, its fields are those the calls naming the key
since the entry was created determine. `SetResponse` returns the request set of the entry it
finds, and nil when it creates one. A call naming another key changes the entry only by removing
it. -/
theorem entry_determined_by_calls_since_creation {maxEntries : Int} {ttl : Duration}
    {c : Cache Request Response} (created : newCache maxEntries ttl = .ok c)
    (calls : List (Call Request Response)) (key : String) :
    (∀ resource, (c.run calls).find key = some resource →
        EntryLaw ttl key (c.sinceCreation (fun _ => []) calls key) resource) ∧
    (∀ response now, ((c.run calls).step (.setResponse key response now)).2.result =
        .ok (.setResponse (((c.run calls).find key).bind Resource.requests) none)) ∧
    (∀ call : Call Request Response, call.key ≠ key →
        ((c.run calls).step call).1.find key = (c.run calls).find key ∨
          ((c.run calls).step call).1.find key = none) := by
  obtain ⟨nonnegative, rfl⟩ := newCache_eq_ok created
  have valid := ResponseCache.valid_run (ResponseCache.valid_empty maxEntries ttl) calls
  rw [ResponseCache.run_toCache]
  refine ⟨fun resource present => ?_, fun response now => ?_, fun call different => ?_⟩
  · simpa using lawHolds_run (ResponseCache.valid_empty maxEntries ttl) nonnegative
      (lawHolds_empty maxEntries ttl _) calls key resource present
  · simp only [ResponseCache.step_toCache, ResponseCache.step, Effect.map,
      ResponseCache.setResponse_value, ResponseCache.find_toCache]
    cases (((ResponseCache.empty maxEntries ttl).run calls).find key) <;> rfl
  · simp only [ResponseCache.step_toCache, ResponseCache.find_toCache]
    rcases ResponseCache.find_step_of_ne valid call (Ne.symm different) with same | removed
    · exact .inl (by rw [same])
    · exact .inr (by rw [removed]; rfl)

/-- A request added to "a", a call on "b", then a response set for "a". -/
def addThenSet : List (Call Nat Nat) := [.addRequest "a" 1 0, .fetch "b" 3 3, .setResponse "a" 7 5]

/-- After `addThenSet` under a `ttl` of 60, the entry of "a" is the one the two calls naming "a"
determine: the response set, the request added, and the deadline of the `SetResponse`. -/
theorem entry_law_after_add_and_set :
    (newCache 2 60 : Except CacheError (Cache Nat Nat)) = .ok (ResponseCache.empty 2 60).toCache ∧
      ((ResponseCache.empty 2 60 : ResponseCache Nat Nat).toCache.run addThenSet).find "a" =
        some ⟨some 7, some {1}, 65⟩ ∧
      (ResponseCache.empty 2 60 : ResponseCache Nat Nat).toCache.sinceCreation (fun _ => [])
          addThenSet "a" = [.addRequest "a" 1 0, .setResponse "a" 7 5] ∧
      EntryLaw 60 "a" [.addRequest "a" 1 0, .setResponse "a" 7 5] ⟨some 7, some {1}, 65⟩ := by
  have created : (newCache 2 60 : Except CacheError (Cache Nat Nat)) =
      .ok (ResponseCache.empty 2 60).toCache := rfl
  have present : ((ResponseCache.empty 2 60 : ResponseCache Nat Nat).toCache.run addThenSet).find
      "a" = some ⟨some 7, some {1}, 65⟩ := by
    decide
  have since : (ResponseCache.empty 2 60 : ResponseCache Nat Nat).toCache.sinceCreation
      (fun _ => []) addThenSet "a" = [.addRequest "a" 1 0, .setResponse "a" 7 5] := by
    decide
  exact ⟨created, present, since,
    since ▸ (entry_determined_by_calls_since_creation created addThenSet "a").1 _ present⟩

end XdsRelay
