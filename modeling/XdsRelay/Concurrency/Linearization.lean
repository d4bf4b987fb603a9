import XdsRelay.Cache.Agreement
import XdsRelay.Cache.Fetch
import XdsRelay.Concurrency.Linearizability
import XdsRelay.Concurrency.Invariants

/-! # Interleavings that are linearizable

A `Fetch` takes effect at its read-locked `Get` when its first expiry check passes, and at its
recheck otherwise; each writing call takes effect at its critical section. The read-locked `Get` of
a `Fetch` that goes on to recheck moves its key to the front too early, but the recheck moves it
again or removes it, so only the order of keys with such a `Fetch` pending ever differs from the
sequential one. That order is seen by no caller in two cases: when no call evicts for capacity, because
`maxEntries` is 0 or leaves room for every key the calls use, and with `ttl` 0, where no entry
expires, so no `Fetch` is ever pending. In both, every complete run of `World` is linearizable;
`MutexWorld` carries this over to the runs without overlapping read-locked sections.
-/

namespace XdsRelay

variable {Request Response : Type}

/-! ## Facts of single steps -/

theorem Pc.finish_ne_start (returnedAt : Nat)
    (outcome : Outcome Request Response (Return Request Response)) :
    Pc.finish returnedAt outcome ≠ .start := by
  unfold Pc.finish
  split <;> simp

/-- No step of a goroutine leaves it where it was invoked. -/
theorem Goroutine.step_ne_start [DecidableEq Request] (c : Cache Request Response) (now : Time)
    (returnedAt : Nat) (op : Op Request Response) (pc : Pc Request Response) :
    (Goroutine.step c now returnedAt op pc).2.1 ≠ .start := by
  cases pc with
  | fetchLooked value =>
      cases op with
      | fetch key =>
          cases value with
          | none => simp [Goroutine.step]
          | some value =>
              simp only [Goroutine.step]
              split
              · simp
              · split <;> simp
      | _ => simp [Goroutine.step]
  | _ => cases op <;> simp [Goroutine.step, Pc.finish_ne_start]

namespace ResponseCache

variable [DecidableEq Request]

/-- The recheck of `Fetch` returns what a whole `Fetch` at its clock reading returns, the error of
a missing key aside. -/
theorem withoutError_fetchRecheck (s : ResponseCache Request Response) (key : String) (now : Time) :
    (Return.fetch ((s.fetchRecheck key now).value.map CacheEntry.toResource, none)).withoutError =
      (s.step (.fetch key now now)).value.withoutError := by
  cases found : s.find key with
  | none =>
      simp [fetchRecheck_of_find_none _ found, step, Effect.map, fetch_of_find_none _ found,
        Return.withoutError]
  | some entry =>
      rw [fetchRecheck_of_find_some _ found]
      cases expired : entry.isExpired now
      · simp [step, Effect.map, fetch_of_live _ found expired, Return.withoutError]
      · simp [step, Effect.map, fetch_of_expired _ found expired expired, Return.withoutError]

end ResponseCache

/-! ## The linearization of a run so far -/

/-- What the sequential call of a goroutine that has taken effect returned: what the goroutine
returned, its error aside; or, for a `Fetch` past its `Get` and taken as live, what the `Get`
found, with no eviction. -/
def Goroutine.Matches (goroutine : Goroutine Request Response)
    (outcome : Outcome Request Response (Return Request Response)) : Prop :=
  match goroutine.op, goroutine.pc with
  | _, .returned _ result => outcome.result.map Return.withoutError = .ok result.withoutError
  | .fetch key, .fetchLooked none => outcome = .returning (.fetch (none, some (.noValueFound key)))
  | .fetch _, .fetchLooked (some value) => outcome = .returning (.fetch (value.asResource, none))
  | _, _ => False

/-- A goroutine whose call has not taken effect at clock `now`: it has not started, or it is a
`Fetch` that found an entry expired and waits for its recheck. -/
def Goroutine.Waiting (goroutine : Goroutine Request Response) (now : Time) : Prop :=
  match goroutine.op, goroutine.pc with
  | _, .start => True
  | .fetch _, .fetchExpired => True
  | .fetch _, .fetchLooked (some value) =>
      ∃ entry : CacheEntry Request Response, value = entry.toValue ∧ entry.isExpired now
  | _, _ => False

namespace World

/-- The sequential calls of the goroutines `lin` lists, each reading the clock at its point. -/
def linCalls (w : World Request Response) (lin : List (Nat × Nat)) :
    List (Call Request Response) :=
  lin.filterMap fun entry =>
    (w.goroutines[entry.1]?).map fun goroutine => goroutine.op.call (w.clocks.getD entry.2 0)

/-- The call of goroutine `entry.1` took effect at point `entry.2`, inside its interval, and its
sequential call has `outcome`. -/
def Placed (w : World Request Response)
    (outcome : Outcome Request Response (Return Request Response)) (entry : Nat × Nat) : Prop :=
  ∃ goroutine, w.goroutines[entry.1]? = some goroutine ∧ goroutine.invokedAt ≤ entry.2 ∧
    entry.2 < w.next ∧ (∀ returnedAt result, goroutine.pc = .returned returnedAt result →
      entry.2 ≤ returnedAt) ∧ goroutine.Matches outcome

/-- A `Fetch` of `key` that `lin` does not list is past its `Get`. -/
def PendsOn (w : World Request Response) (lin : List (Nat × Nat)) (key : String) : Prop :=
  ∃ index goroutine, w.goroutines[index]? = some goroutine ∧ index ∉ lin.map Prod.fst ∧
    goroutine.op = .fetch key ∧ goroutine.pc ≠ .start

/-- Every goroutine calls on one of `keys`. -/
def Keyed (keys : List String) (w : World Request Response) : Prop :=
  ∀ goroutine ∈ w.goroutines, goroutine.op.key ∈ keys

variable [DecidableEq Request]

/-- `lin` linearizes the run from `start` that led to `w`, so far: it lists in the order of their
points the goroutines whose call has taken effect, a `Fetch` between its `Get` and its first expiry
check counted as live; their sequential calls return what the goroutines returned and evict what
they evicted; and the sequential state holds the same entries as the cache, in the same recency
order but for the keys of the `Fetch` calls still pending. -/
structure Linearized (start : ResponseCache Request Response) (w : World Request Response)
    (lin : List (Nat × Nat)) : Prop where
  safe : w.Safe start.lru.maxEntries
  invoked : ∀ goroutine ∈ w.goroutines, goroutine.invokedAt < w.next
  nodup : (lin.map Prod.fst).Nodup
  sorted : lin.Pairwise fun earlier later => earlier.2 < later.2
  placed : List.Forall₂ w.Placed (start.toCache.outcomes (w.linCalls lin)) lin
  waiting : ∀ index goroutine, w.goroutines[index]? = some goroutine →
    index ∉ lin.map Prod.fst → goroutine.Waiting w.clock
  evictions : (start.toCache.outcomes (w.linCalls lin)).flatMap Outcome.onEvicted = w.onEvicted
  agree : ∃ (s : ResponseCache Request Response) (pending : String → Bool),
    w.cache = s.toCache ∧ ResponseCache.Agree pending s (start.run (w.linCalls lin)) ∧
      ∀ key, pending key → w.PendsOn lin key

end World

private theorem forall₂_imp_of_mem {α β : Type} {related related' : α → β → Prop}
    {first : List α} {second : List β} (both : List.Forall₂ related first second)
    (imp : ∀ a b, b ∈ second → related a b → related' a b) :
    List.Forall₂ related' first second := by
  induction both with
  | nil => exact .nil
  | cons head _ induction =>
      exact .cons (imp _ _ (List.mem_cons_self _ _) head)
        (induction fun a b member => imp a b (List.mem_cons_of_mem _ member))

private theorem forall₂_exists_of_mem {α β : Type} {related : α → β → Prop}
    {first : List α} {second : List β} (both : List.Forall₂ related first second) {b : β}
    (member : b ∈ second) : ∃ a ∈ first, related a b := by
  induction both with
  | nil => cases member
  | @cons a b' _ _ head _ induction =>
      rcases List.mem_cons.mp member with rfl | later
      · exact ⟨a, List.mem_cons_self _ _, head⟩
      · obtain ⟨found, inside, holds⟩ := induction later
        exact ⟨found, List.mem_cons_of_mem _ inside, holds⟩

private theorem forall₂_middle {α β : Type} {related : α → β → Prop}
    {first rest : List α} {a : α} {first' rest' : List β} {b : β}
    (both : List.Forall₂ related (first ++ a :: rest) (first' ++ b :: rest'))
    (same : first.length = first'.length) :
    List.Forall₂ related first first' ∧ related a b ∧ List.Forall₂ related rest rest' := by
  induction first generalizing first' with
  | nil =>
      cases first' with
      | nil =>
          cases both with
          | cons head tail => exact ⟨.nil, head, tail⟩
      | cons => cases same
  | cons head first induction =>
      cases first' with
      | nil => cases same
      | cons head' first' =>
          cases both with
          | cons related tail =>
              obtain ⟨before, middle, after⟩ := induction tail (Nat.succ.inj same)
              exact ⟨.cons related before, middle, after⟩

theorem Goroutine.Waiting.mono {goroutine : Goroutine Request Response} {now later : Time}
    (waiting : goroutine.Waiting now) (ordered : now ≤ later) : goroutine.Waiting later := by
  obtain ⟨op, invokedAt, pc⟩ := goroutine
  cases op <;> cases pc <;> try exact waiting
  case fetch.fetchLooked key value =>
    cases value with
    | none => exact waiting
    | some value =>
        obtain ⟨entry, stored, expired⟩ := waiting
        exact ⟨entry, stored, Resource.isExpired_of_le expired ordered⟩

namespace World

variable {w : World Request Response} {start : ResponseCache Request Response}
  {lin : List (Nat × Nat)}

@[simp] theorem linCalls_append (first rest : List (Nat × Nat)) :
    w.linCalls (first ++ rest) = w.linCalls first ++ w.linCalls rest :=
  List.filterMap_append _ _ _

theorem linCalls_cons {index point : Nat} {goroutine : Goroutine Request Response}
    (found : w.goroutines[index]? = some goroutine) (rest : List (Nat × Nat)) :
    w.linCalls ((index, point) :: rest) =
      goroutine.op.call (w.clocks.getD point 0) :: w.linCalls rest := by
  simp [linCalls, List.filterMap_cons, found]

theorem length_linCalls {l : List (Nat × Nat)}
    (present : ∀ entry ∈ l, w.goroutines[entry.1]? ≠ none) :
    (w.linCalls l).length = l.length := by
  induction l with
  | nil => rfl
  | cons entry rest induction =>
      obtain ⟨goroutine, found⟩ :=
        Option.ne_none_iff_exists'.mp (present entry (List.mem_cons_self _ _))
      rw [linCalls_cons found, List.length_cons, List.length_cons,
        induction fun entry member => present entry (List.mem_cons_of_mem _ member)]

theorem Placed.mono {outcome : Outcome Request Response (Return Request Response)}
    {entry : Nat × Nat}
    (placed : w.Placed outcome entry) {w' : World Request Response}
    (same : w'.goroutines[entry.1]? = w.goroutines[entry.1]?) (later : w.next ≤ w'.next) :
    w'.Placed outcome entry := by
  obtain ⟨goroutine, found, invoked, past, returns, matched⟩ := placed
  exact ⟨goroutine, same.trans found, invoked, by omega, returns, matched⟩

theorem key_mem_linCalls {keys : List String} (keyed : w.Keyed keys) (l : List (Nat × Nat)) :
    ∀ call ∈ w.linCalls l, call.key ∈ keys := fun call member => by
  obtain ⟨entry, -, found⟩ := List.mem_filterMap.mp member
  obtain ⟨goroutine, present, rfl⟩ := Option.map_eq_some'.mp found
  rw [Op.key_call]
  exact keyed goroutine (List.getElem?_mem present)

theorem Safe.valid {maxEntries : Int} (safe : w.Safe maxEntries)
    {s : ResponseCache Request Response} (cache : w.cache = s.toCache) : s.Valid := by
  obtain ⟨⟨typed, valid, -, -, stored⟩, -⟩ := safe
  rwa [← ResponseCache.toCache_injective (stored.symm.trans cache)]

variable [DecidableEq Request]

/-- Goroutines invoked on one of `keys` keep every goroutine calling on one of them. -/
theorem Keyed.act {keys : List String} (keyed : w.Keyed keys) {action : Action Request Response}
    (invoked : ∀ op, action = .invoke op → op.key ∈ keys) : (w.act action).Keyed keys :=
  forall_goroutines_act keyed action invoked fun _ _ => id

theorem clocks_act (action : Action Request Response) :
    (w.act action).clocks = w.clocks ++ [(w.act action).clock] := by
  cases action with
  | step index =>
      simp only [act]
      split <;> rfl
  | invoke | advance => rfl

theorem next_act (action : Action Request Response) : (w.act action).next = w.next + 1 := by
  simp [next, clocks_act]

theorem getD_clocks_act (action : Action Request Response) {point : Nat} (past : point < w.next) :
    (w.act action).clocks.getD point 0 = w.clocks.getD point 0 := by
  rw [clocks_act, List.getD_eq_getElem?_getD, List.getD_eq_getElem?_getD,
    List.getElem?_append_left past]

/-- The points of a linearization lie before the next point. -/
theorem Linearized.past (linearized : w.Linearized start lin) :
    ∀ entry ∈ lin, entry.2 < w.next :=
  fun _ member => by
    obtain ⟨-, -, -, -, -, past, -⟩ := forall₂_exists_of_mem linearized.placed member
    exact past

/-- An action that changes neither the cache nor the calls of `onEvicted`, and no goroutine but by
invoking new ones, keeps the linearization. -/
theorem Linearized.frame (linearized : w.Linearized start lin) {w' : World Request Response}
    (safe : w'.Safe start.lru.maxEntries) (cache : w'.cache = w.cache) (onEvicted : w'.onEvicted = w.onEvicted)
    (later : w'.next = w.next + 1) (clock : w.clock ≤ w'.clock)
    (clocks : ∀ point < w.next, w'.clocks.getD point 0 = w.clocks.getD point 0)
    (kept : ∀ (index : Nat) (goroutine : Goroutine Request Response),
      w.goroutines[index]? = some goroutine → w'.goroutines[index]? = some goroutine)
    (fresh : ∀ (index : Nat) (goroutine : Goroutine Request Response),
      w'.goroutines[index]? = some goroutine →
      w.goroutines[index]? = none → goroutine.pc = .start ∧ goroutine.invokedAt < w'.next) :
    w'.Linearized start lin := by
  have calls : w'.linCalls lin = w.linCalls lin := List.filterMap_congr fun entry member => by
    obtain ⟨outcome, -, goroutine, found, -, past, -⟩ :=
      forall₂_exists_of_mem linearized.placed member
    rw [kept _ _ found, found, Option.map_some', Option.map_some', clocks _ past]
  have pends : ∀ key, w.PendsOn lin key → w'.PendsOn lin key := fun key pending => by
    obtain ⟨index, goroutine, found, unlisted, fetching, started⟩ := pending
    exact ⟨index, goroutine, kept _ _ found, unlisted, fetching, started⟩
  obtain ⟨s, pending, stored, agree, justified⟩ := linearized.agree
  refine ⟨safe, fun goroutine member => ?_, linearized.nodup, linearized.sorted, ?_,
    fun index goroutine found unlisted => ?_, by rw [calls, onEvicted, linearized.evictions],
    ⟨s, pending, cache.trans stored, calls ▸ agree,
      fun key marked => pends key (justified key marked)⟩⟩
  · obtain ⟨index, found⟩ := List.mem_iff_getElem?.mp member
    cases old : w.goroutines[index]? with
    | none => exact (fresh _ _ found old).2
    | some previous =>
        rw [kept _ _ old, Option.some.injEq] at found
        subst found
        have := linearized.invoked _ (List.getElem?_mem old)
        omega
  · rw [calls]
    exact forall₂_imp_of_mem linearized.placed fun outcome entry _ placed => by
      obtain ⟨goroutine, found, invoked, past, returns, matched⟩ := placed
      exact ⟨goroutine, kept _ _ found, invoked, by omega, returns, matched⟩
  · cases old : w.goroutines[index]? with
    | none =>
        have started := (fresh _ _ found old).1
        obtain ⟨op, invokedAt, pc⟩ := goroutine
        cases started
        cases op <;> trivial
    | some previous =>
        rw [kept _ _ old, Option.some.injEq] at found
        subst found
        exact (linearized.waiting index _ old unlisted).mono clock

section Stepped

variable {index : Nat} {goroutine : Goroutine Request Response}
  (found : w.goroutines[index]? = some goroutine) {next : Cache Request Response}
  {pc : Pc Request Response} {evicted : List (String × Resource Request Response)}
  (stepped : Goroutine.step w.cache w.clock w.next goroutine.op goroutine.pc = (next, pc, evicted))
include found stepped

theorem act_step_eq :
    w.act (.step index) =
      { w with cache := next, goroutines := w.goroutines.set index { goroutine with pc := pc },
               onEvicted := w.onEvicted ++ evicted, clocks := w.clocks ++ [w.clock] } := by
  rw [act_step w found, stepped]

theorem getElem?_goroutines_act_step (other : Nat) :
    (w.act (.step index)).goroutines[other]? =
      if index = other then some { goroutine with pc := pc } else w.goroutines[other]? := by
  rw [act_step_eq found stepped]
  simp only [List.getElem?_set, (List.getElem?_eq_some.mp found).1, if_true]

theorem cache_act_step : (w.act (.step index)).cache = next := by
  rw [act_step_eq found stepped]

theorem onEvicted_act_step : (w.act (.step index)).onEvicted = w.onEvicted ++ evicted := by
  rw [act_step_eq found stepped]

/-- A step keeps the calls of every list of points before it. -/
theorem linCalls_act_step {l : List (Nat × Nat)} (past : ∀ entry ∈ l, entry.2 < w.next) :
    (w.act (.step index)).linCalls l = w.linCalls l :=
  List.filterMap_congr fun entry member => by
    rw [getD_clocks_act _ (past entry member), getElem?_goroutines_act_step found stepped]
    split
    · subst index
      simp [found]
    · rfl

/-- The call of the goroutine that steps, at the point of the step, ends the calls. -/
theorem linCalls_act_step_append {l : List (Nat × Nat)}
    (past : ∀ entry ∈ l, entry.2 < w.next) :
    (w.act (.step index)).linCalls (l ++ [(index, w.next)]) =
      w.linCalls l ++ [goroutine.op.call w.clock] := by
  have clocked : (w.act (.step index)).clocks[w.next]?.getD 0 = w.clock := by
    rw [(clock_act_step w index).2]
    simp [World.next]
  rw [linCalls, List.filterMap_append, ← linCalls, linCalls_act_step found stepped past]
  simp [getElem?_goroutines_act_step found stepped, clocked]

/-- The goroutine that steps, running a `Fetch`, is pending on its key after the step while the list
leaves it out. -/
theorem pendsOn_act_step_self {key : String} (fetching : goroutine.op = .fetch key)
    {lin' : List (Nat × Nat)} (unlisted : index ∉ lin'.map Prod.fst) :
    (w.act (.step index)).PendsOn lin' key := by
  have moved : pc ≠ .start := by
    simpa [stepped] using Goroutine.step_ne_start w.cache w.clock w.next goroutine.op goroutine.pc
  exact ⟨index, { goroutine with pc := pc }, by rw [getElem?_goroutines_act_step found stepped,
    if_pos rfl], unlisted, fetching, moved⟩

/-- A `Fetch` pending on `key` is still pending after a step when its goroutine stays off the
list. -/
theorem PendsOn.act_step {key : String} (pending : w.PendsOn lin key) {lin' : List (Nat × Nat)}
    (unlisted : ∀ other waiting, w.goroutines[other]? = some waiting →
      other ∉ lin.map Prod.fst → waiting.op = .fetch key → waiting.pc ≠ .start →
      other ∉ lin'.map Prod.fst) :
    (w.act (.step index)).PendsOn lin' key := by
  obtain ⟨other, waiting, present, unlisted', fetching, started⟩ := pending
  have unlisted := unlisted other waiting present unlisted' fetching started
  by_cases same : index = other
  · subst same
    rw [found, Option.some.injEq] at present
    subst present
    exact pendsOn_act_step_self found stepped fetching unlisted
  · refine ⟨other, waiting, ?_, unlisted, fetching, started⟩
    rw [getElem?_goroutines_act_step found stepped, if_neg same, present]

/-- What a step must give for `lin'` to linearize the run after it: `lin'` lists what `lin` lists
but for the goroutine that steps, in the order of the points; their sequential calls return and
evict what the goroutines did; the goroutine that steps waits when `lin'` leaves it out; and a
sequential state agrees with the cache. -/
theorem Linearized.act_step_of (linearized : w.Linearized start lin) {lin' : List (Nat × Nat)}
    (nodup : (lin'.map Prod.fst).Nodup)
    (sorted : lin'.Pairwise fun earlier later => earlier.2 < later.2)
    (covered : ∀ other ∈ lin.map Prod.fst, other ≠ index → other ∈ lin'.map Prod.fst)
    (placed : List.Forall₂ (w.act (.step index)).Placed
      (start.toCache.outcomes ((w.act (.step index)).linCalls lin')) lin')
    (waiting : index ∉ lin'.map Prod.fst → { goroutine with pc := pc }.Waiting w.clock)
    (evictions : (start.toCache.outcomes ((w.act (.step index)).linCalls lin')).flatMap
      Outcome.onEvicted = w.onEvicted ++ evicted)
    (agree : ∃ (s : ResponseCache Request Response) (pending : String → Bool),
      next = s.toCache ∧
      ResponseCache.Agree pending s (start.run ((w.act (.step index)).linCalls lin')) ∧
      ∀ key, pending key → (w.act (.step index)).PendsOn lin' key) :
    (w.act (.step index)).Linearized start lin' := by
  have clock := (clock_act_step w index).1
  refine ⟨safe_act linearized.safe _, fun moved member => ?_, nodup, sorted, placed,
    fun other moved present unlisted => ?_, by rw [onEvicted_act_step found stepped, evictions],
    by rwa [cache_act_step found stepped]⟩
  · obtain ⟨other, present⟩ := List.mem_iff_getElem?.mp member
    rw [getElem?_goroutines_act_step found stepped] at present
    rw [next_act]
    split at present
    · cases present
      have := linearized.invoked _ (List.getElem?_mem found)
      exact Nat.lt_succ_of_lt this
    · exact Nat.lt_succ_of_lt (linearized.invoked _ (List.getElem?_mem present))
  · rw [getElem?_goroutines_act_step found stepped] at present
    rw [clock]
    split at present
    · subst other
      cases present
      exact waiting unlisted
    · rename_i different
      exact linearized.waiting other moved present fun listed =>
        unlisted (covered other listed (Ne.symm different))

/-- A step that takes no call off or onto the list and calls `onEvicted` for nothing keeps the
list. -/
theorem Linearized.act_step_keep (linearized : w.Linearized start lin)
    (matched : index ∈ lin.map Prod.fst → ∀ outcome,
      goroutine.Matches outcome → { goroutine with pc := pc }.Matches outcome)
    (returns : ∀ returnedAt result, pc = .returned returnedAt result → w.next ≤ returnedAt)
    (waiting : index ∉ lin.map Prod.fst → { goroutine with pc := pc }.Waiting w.clock)
    (quiet : evicted = [])
    (agree : ∃ (s : ResponseCache Request Response) (pending : String → Bool),
      next = s.toCache ∧
      ResponseCache.Agree pending s (start.run (w.linCalls lin)) ∧
      ∀ key, pending key → (w.act (.step index)).PendsOn lin key) :
    (w.act (.step index)).Linearized start lin := by
  have calls := linCalls_act_step found stepped linearized.past
  refine linearized.act_step_of found stepped linearized.nodup linearized.sorted
    (fun other listed _ => listed) ?_ waiting ?_ (by rwa [calls])
  · rw [calls]
    refine forall₂_imp_of_mem linearized.placed fun outcome entry member placed => ?_
    by_cases same : index = entry.1
    · obtain ⟨previous, present, invoked, past, returned, previously⟩ := placed
      rw [← same, found, Option.some.injEq] at present
      subst present
      refine ⟨{ goroutine with pc := pc }, ?_, invoked, by rw [next_act]; omega,
        fun returnedAt result finished => le_trans (le_of_lt past) (returns _ _ finished),
        matched (same ▸ List.mem_map_of_mem _ member) outcome previously⟩
      rw [getElem?_goroutines_act_step found stepped, if_pos same]
    · exact placed.mono (by rw [getElem?_goroutines_act_step found stepped, if_neg same])
        (by rw [next_act]; omega)
  · rw [calls, quiet, List.append_nil, linearized.evictions]

/-- A step in which the call of a goroutine takes effect puts it at the end of the list, at the
point of the step. -/
theorem Linearized.act_step_append (linearized : w.Linearized start lin)
    (unlisted : index ∉ lin.map Prod.fst)
    (matched : { goroutine with pc := pc }.Matches
      ⟨((start.run (w.linCalls lin)).step (goroutine.op.call w.clock)).evicted.map evictedPair,
        .ok ((start.run (w.linCalls lin)).step (goroutine.op.call w.clock)).value⟩)
    (returns : ∀ returnedAt result, pc = .returned returnedAt result → w.next ≤ returnedAt)
    (reported : evicted =
      ((start.run (w.linCalls lin)).step (goroutine.op.call w.clock)).evicted.map evictedPair)
    (agree : ∃ (s : ResponseCache Request Response) (pending : String → Bool),
      next = s.toCache ∧
      ResponseCache.Agree pending s
        ((start.run (w.linCalls lin)).step (goroutine.op.call w.clock)).next ∧
      ∀ key, pending key → (w.act (.step index)).PendsOn (lin ++ [(index, w.next)]) key) :
    (w.act (.step index)).Linearized start (lin ++ [(index, w.next)]) := by
  have calls := linCalls_act_step_append found stepped linearized.past
  have other : ∀ entry ∈ lin, index ≠ entry.1 := fun entry member same =>
    unlisted (same ▸ List.mem_map_of_mem _ member)
  refine linearized.act_step_of found stepped ?_ ?_ (fun listed member _ => by simp [member])
    ?_ (fun listed => absurd (by simp) listed) ?_ (by rwa [calls, ResponseCache.run_append_call])
  · rw [List.map_append, List.nodup_append]
    exact ⟨linearized.nodup, List.nodup_singleton _, List.disjoint_singleton.mpr unlisted⟩
  · exact List.pairwise_append.mpr ⟨linearized.sorted, List.pairwise_singleton _ _,
      fun earlier member later last => by
        rw [List.mem_singleton.mp last]
        exact linearized.past earlier member⟩
  · rw [calls, ResponseCache.outcomes_append_call]
    refine List.rel_append
      (forall₂_imp_of_mem linearized.placed fun outcome entry member placed =>
        placed.mono
          (by rw [getElem?_goroutines_act_step found stepped, if_neg (other entry member)])
          (by rw [next_act]; omega)) (.cons ⟨{ goroutine with pc := pc }, ?_,
          le_of_lt (linearized.invoked goroutine (List.getElem?_mem found)),
          by rw [next_act]; omega, returns, matched⟩ .nil)
    rw [getElem?_goroutines_act_step found stepped, if_pos rfl]
  · rw [calls, ResponseCache.outcomes_append_call, List.flatMap_append, linearized.evictions,
      reported]
    simp

/-- A `Fetch` taken as live at its `Get` whose first expiry check then fails comes off the list: its
sequential call evicted nothing and only moved its key, which is pending from then on. -/
theorem Linearized.act_step_erase {first rest : List (Nat × Nat)} {point : Nat}
    (linearized : w.Linearized start (first ++ (index, point) :: rest)) (valid : start.Valid)
    {keys : List String} (roomy : start.Roomy keys) (keyed : w.Keyed keys) {key : String}
    (fetching : goroutine.op = .fetch key)
    (looked : ∀ outcome, goroutine.Matches outcome → outcome.onEvicted = [])
    (unchanged : next = w.cache) (expired : pc = .fetchExpired) (quiet : evicted = []) :
    (w.act (.step index)).Linearized start (first ++ rest) := by
  have sublist : (first ++ rest).Sublist (first ++ (index, point) :: rest) :=
    (List.sublist_cons_self _ rest).append_left first
  have fresh : index ∉ (first ++ rest).map Prod.fst := by
    have nodup := linearized.nodup
    rw [List.map_append, List.map_cons, List.nodup_middle, ← List.map_append] at nodup
    exact (List.nodup_cons.mp nodup).1
  have present : ∀ entry ∈ first, w.goroutines[entry.1]? ≠ none := fun entry member => by
    obtain ⟨-, -, goroutine, found, -⟩ :=
      forall₂_exists_of_mem linearized.placed (List.mem_append_left _ member)
    simp [found]
  have calls := linCalls_act_step found stepped fun entry member =>
    linearized.past entry (sublist.subset member)
  -- the sequential run before the `Fetch`, the `Fetch`, and the run after it
  set serial := start.run (w.linCalls first)
  set call : Call Request Response := .fetch key (w.clocks.getD point 0) (w.clocks.getD point 0)
  have split : start.toCache.outcomes (w.linCalls (first ++ (index, point) :: rest)) =
      start.toCache.outcomes (w.linCalls first) ++
        ⟨(serial.step call).evicted.map evictedPair, .ok (serial.step call).value⟩ ::
          (serial.step call).next.toCache.outcomes (w.linCalls rest) := by
    rw [linCalls_append, linCalls_cons found, fetching, ResponseCache.outcomes_middle]
    rfl
  have joined : start.toCache.outcomes (w.linCalls (first ++ rest)) =
      start.toCache.outcomes (w.linCalls first) ++ serial.toCache.outcomes (w.linCalls rest) := by
    rw [linCalls_append, Cache.outcomes_append, ResponseCache.run_toCache]
  have placed := linearized.placed
  rw [split] at placed
  obtain ⟨before, ⟨previous, again, -, -, -, previously⟩, after⟩ := forall₂_middle placed
    (by rw [Cache.length_outcomes, length_linCalls present])
  rw [found, Option.some.injEq] at again
  subst again
  have kept : (serial.step call).evicted = [] :=
    List.map_eq_nil_iff.mp (looked _ previously)
  have serialValid := ResponseCache.valid_run valid (w.linCalls first)
  have member : call.key ∈ keys := by
    simpa [fetching, Op.key] using keyed goroutine (List.getElem?_mem found)
  obtain ⟨later, same⟩ := (ResponseCache.agree_fetch_of_kept serial key _ _ kept).run
    ((roomy.run valid (key_mem_linCalls keyed first)).step serialValid call member)
    (ResponseCache.valid_step serialValid call) serialValid (w.linCalls rest)
    (key_mem_linCalls keyed rest)
  obtain ⟨s, pending, cache, agree, justified⟩ := linearized.agree
  refine linearized.act_step_of found stepped (List.Nodup.sublist (sublist.map _) linearized.nodup)
    (linearized.sorted.sublist sublist) (fun other listed different => ?_) ?_
    (fun _ => by rw [expired]; simp [Goroutine.Waiting, fetching]) ?_
    ⟨s, fun other => pending other || other == key, unchanged.trans cache, ?_,
      fun other marked => ?_⟩
  · simp only [List.map_append, List.map_cons, List.mem_append, List.mem_cons] at listed
    rw [List.map_append, List.mem_append]
    rcases listed with before | same | after
    exacts [.inl before, absurd same different, .inr after]
  · have move : ∀ outcome entry, entry ∈ first ++ rest → w.Placed outcome entry →
        (w.act (.step index)).Placed outcome entry := fun outcome entry member placed =>
      placed.mono (by rw [getElem?_goroutines_act_step found stepped,
        if_neg fun listed : index = entry.1 => fresh (listed ▸ List.mem_map_of_mem _ member)])
        (by rw [next_act]; omega)
    rw [calls, joined, ← same]
    exact List.rel_append
      (forall₂_imp_of_mem before fun outcome entry member =>
        move outcome entry (by simp [member]))
      (forall₂_imp_of_mem after fun outcome entry member =>
        move outcome entry (by simp [member]))
  · have evictions := linearized.evictions
    rw [split, List.flatMap_append, List.flatMap_cons, kept] at evictions
    rw [calls, joined, ← same, quiet, List.append_nil, List.flatMap_append, ← evictions]
    rfl
  · rw [linCalls_append, linCalls_cons found, fetching, ResponseCache.run_append] at agree
    rw [calls, linCalls_append, ResponseCache.run_append]
    exact agree.trans later
  · rcases Bool.or_eq_true _ _ ▸ marked with marked | marked
    · exact (justified other marked).act_step found stepped
        fun _ _ _ unlisted _ _ listed => unlisted ((sublist.map _).subset listed)
    · cases beq_iff_eq.mp marked
      exact pendsOn_act_step_self found stepped fetching fresh

/-- A pending key stays pending across the first step of a goroutine, for a list that adds at most
that goroutine. -/
theorem PendsOn.act_step_started {key : String} (pending : w.PendsOn lin key)
    (started : goroutine.pc = .start) {lin' : List (Nat × Nat)}
    (within : ∀ other ∈ lin'.map Prod.fst, other ∈ lin.map Prod.fst ∨ other = index) :
    (w.act (.step index)).PendsOn lin' key :=
  pending.act_step found stepped fun listed waiting present unlisted _ moved relisted => by
    rcases within listed relisted with old | rfl
    · exact unlisted old
    · rw [found, Option.some.injEq] at present
      subst present
      exact moved started

end Stepped

/-- A goroutine whose place matches no sequential outcome is not on the list. -/
theorem Linearized.unlisted (linearized : w.Linearized start lin) {index : Nat}
    {goroutine : Goroutine Request Response} (found : w.goroutines[index]? = some goroutine)
    (never : ∀ outcome, ¬goroutine.Matches outcome) : index ∉ lin.map Prod.fst :=
    fun listed => by
  obtain ⟨entry, member, rfl⟩ := List.mem_map.mp listed
  obtain ⟨outcome, -, listedAs, present, -, -, -, matched⟩ :=
    forall₂_exists_of_mem linearized.placed member
  rw [found, Option.some.injEq] at present
  subst present
  exact never outcome matched

/-- A goroutine that does not wait is on the list. -/
theorem Linearized.listed (linearized : w.Linearized start lin) {index : Nat}
    {goroutine : Goroutine Request Response} (found : w.goroutines[index]? = some goroutine)
    (busy : ¬goroutine.Waiting w.clock) : index ∈ lin.map Prod.fst := by
  by_contra unlisted
  exact busy (linearized.waiting _ _ found unlisted)

/-- The read-locked `Get` of a `Fetch`: when it finds no entry or a live one, the `Fetch` takes
effect there; when it finds an expired one, the `Fetch` waits and its key is pending. -/
theorem Linearized.act_lookup (linearized : w.Linearized start lin) {index invokedAt : Nat}
    {key : String} (found : w.goroutines[index]? = some ⟨.fetch key, invokedAt, .start⟩) :
    ∃ lin', (w.act (.step index)).Linearized start lin' := by
  obtain ⟨s, pending, cache, agree, justified⟩ := linearized.agree
  have unlisted := linearized.unlisted found fun _ => id
  have stepped := Goroutine.step_lookup s w.clock w.next key
  rw [← cache] at stepped
  have pends : ∀ lin' : List (Nat × Nat),
      (∀ other ∈ lin'.map Prod.fst, other ∈ lin.map Prod.fst ∨ other = index) →
      ∀ other, pending other → (w.act (.step index)).PendsOn lin' other :=
    fun _ within other marked => (justified other marked).act_step_started found stepped rfl within
  have appended : ∀ other ∈ (lin ++ [(index, w.next)]).map Prod.fst,
      other ∈ lin.map Prod.fst ∨ other = index := by simp
  cases present : s.find key with
  | none =>
      rw [ResponseCache.fetchLookup_of_find_none _ _ present] at stepped
      have missing : (start.run (w.linCalls lin)).find key = none :=
        (agree.find key).symm.trans present
      refine ⟨_, linearized.act_step_append found stepped unlisted ?_ (fun _ _ => nofun) ?_
        ⟨s, pending, rfl, ?_, pends _ appended⟩⟩ <;>
        simp [Op.call, ResponseCache.step, Effect.map, ResponseCache.fetch_of_find_none _ missing,
          Goroutine.Matches, Outcome.returning, agree]
  | some entry =>
      rw [ResponseCache.fetchLookup_of_find_some _ _ present] at stepped
      have present' : (start.run (w.linCalls lin)).find key = some entry :=
        (agree.find key).symm.trans present
      cases expired : entry.isExpired w.clock
      · refine ⟨_, linearized.act_step_append found stepped unlisted ?_ (fun _ _ => nofun) ?_
          ⟨_, pending, rfl, ?_, pends _ appended⟩⟩ <;>
          simp [Op.call, ResponseCache.step, Effect.map,
            ResponseCache.fetch_of_live _ present' expired, Goroutine.Matches, Outcome.returning,
            agree.moveToFront key entry]
      · refine ⟨lin, linearized.act_step_keep found stepped
          (fun listed => absurd listed unlisted) (fun _ _ => nofun)
          (fun _ => ⟨entry, rfl, expired⟩) rfl
          ⟨_, fun other => other == key || pending other, rfl,
            (ResponseCache.agree_moveToFront_self present).trans agree, fun other marked => ?_⟩⟩
        rcases Bool.or_eq_true _ _ ▸ marked with marked | marked
        · cases beq_iff_eq.mp marked
          exact pendsOn_act_step_self found stepped rfl unlisted
        · exact pends lin (fun other listed => .inl listed) other marked

/-- The critical section of `SetResponse`, `AddRequest` or `DeleteRequest` takes effect where it
runs, when no call evicts for capacity or no key is pending. -/
theorem Linearized.act_write (linearized : w.Linearized start lin) (valid : start.Valid)
    {keys : List String} (quiet : start.Roomy keys ∧ w.Keyed keys ∨ ∀ key, ¬w.PendsOn lin key)
    {index invokedAt : Nat}
    {op : Op Request Response}
    (writing : ∀ key, op ≠ .fetch key)
    (found : w.goroutines[index]? = some ⟨op, invokedAt, .start⟩) :
    (w.act (.step index)).Linearized start (lin ++ [(index, w.next)]) := by
  obtain ⟨s, pending, cache, agree, justified⟩ := linearized.agree
  have stepped := Goroutine.step_write s w.clock w.next writing
  rw [← cache] at stepped
  obtain ⟨next, evicted, value⟩ := agree.step_of (linearized.safe.valid cache)
    (ResponseCache.valid_run valid _) (op.call w.clock)
    (quiet.imp (fun ⟨roomy, keyed⟩ => ⟨agree.roomy_iff.mpr (roomy.run valid
        (key_mem_linCalls keyed lin)), by rw [Op.key_call]; exact keyed _ (List.getElem?_mem found)⟩)
      fun settled key => Bool.eq_false_iff.mpr fun marked => settled key (justified key marked))
  refine linearized.act_step_append found stepped
    (linearized.unlisted found fun _ => by cases op <;> exact id) ?_
    (fun _ _ finished => by cases finished; rfl) (by rw [evicted])
    ⟨_, pending, rfl, next, fun other marked =>
      (justified other marked).act_step_started found stepped rfl (by simp)⟩
  simp only [Goroutine.Matches, value]
  rfl

/-- A `Fetch` whose `Get` found nothing returns the not-found error, as its sequential call did. -/
theorem Linearized.act_miss (linearized : w.Linearized start lin) {index invokedAt : Nat}
    {key : String}
    (found : w.goroutines[index]? = some ⟨.fetch key, invokedAt, .fetchLooked none⟩) :
    (w.act (.step index)).Linearized start lin := by
  obtain ⟨s, pending, cache, agree, justified⟩ := linearized.agree
  refine linearized.act_step_keep found rfl (fun _ outcome matched => ?_)
    (fun _ _ finished => by cases finished; rfl) (fun unlisted => ?_) rfl
    ⟨s, pending, cache, agree, fun other marked =>
      (justified other marked).act_step found rfl fun _ _ _ unlisted _ _ => unlisted⟩
  · cases matched
    rfl
  · exact absurd (linearized.listed found id) unlisted

section Checked

variable {index invokedAt : Nat} {key : String} {entry : CacheEntry Request Response}
  (found : w.goroutines[index]? =
    some ⟨.fetch key, invokedAt, .fetchLooked (some entry.toValue)⟩)
include found

theorem PendsOn.act_step_check {other : String} (pending : w.PendsOn lin other) :
    (w.act (.step index)).PendsOn lin other :=
  pending.act_step found (Goroutine.step_check w.clock w.next w.cache key entry)
    fun _ _ _ unlisted _ _ => unlisted

/-- The first expiry check of a `Fetch` whose `Get` found a live `entry` returns it, as the
sequential call at the `Get` returned it. -/
theorem Linearized.act_check_live (linearized : w.Linearized start lin)
    (live : entry.isExpired w.clock = false) : (w.act (.step index)).Linearized start lin := by
  obtain ⟨s, pending, cache, agree, justified⟩ := linearized.agree
  have stepped := Goroutine.step_check w.clock w.next w.cache key entry
  rw [live, if_neg Bool.false_ne_true] at stepped
  have busy : ¬Goroutine.Waiting
      ⟨.fetch key, invokedAt, .fetchLooked (some entry.toValue)⟩ w.clock := by
    rintro ⟨other, same, expired⟩
    have resource : entry.toResource = other.toResource := LruValue.resource.inj same
    rw [CacheEntry.isExpired, ← resource, ← CacheEntry.isExpired, live] at expired
    cases expired
  refine linearized.act_step_keep found stepped (fun _ outcome matched => ?_)
    (fun _ _ finished => by cases finished; rfl)
    (fun unlisted => absurd (linearized.listed found busy) unlisted) rfl
    ⟨s, pending, cache, agree, fun other marked =>
      (justified other marked).act_step_check found⟩
  cases matched
  rfl

/-- The first expiry check of a `Fetch` whose `Get` found `entry`: a live entry is returned; an
expired one sends the `Fetch` on to its recheck, and off the list if it was on it. -/
theorem Linearized.act_check (linearized : w.Linearized start lin) (valid : start.Valid)
    {keys : List String} (roomy : start.Roomy keys) (keyed : w.Keyed keys) :
    ∃ lin', (w.act (.step index)).Linearized start lin' := by
  cases expired : entry.isExpired w.clock
  · exact ⟨lin, linearized.act_check_live found expired⟩
  obtain ⟨s, pending, cache, agree, justified⟩ := linearized.agree
  have stepped := Goroutine.step_check w.clock w.next w.cache key entry
  rw [expired, if_pos rfl] at stepped
  by_cases listed : index ∈ lin.map Prod.fst
  · obtain ⟨⟨listedIndex, point⟩, member, same⟩ := List.mem_map.mp listed
    cases same
    obtain ⟨first, rest, rfl⟩ := List.append_of_mem member
    exact ⟨_, linearized.act_step_erase found stepped valid roomy keyed rfl
      (fun outcome matched => by cases matched; rfl) rfl rfl rfl⟩
  · exact ⟨lin, linearized.act_step_keep found stepped (fun relisted => absurd relisted listed)
      (fun _ _ => nofun) (fun _ => trivial) rfl
      ⟨s, pending, cache, agree, fun other marked =>
        (justified other marked).act_step_check found⟩⟩

end Checked

/-- The write-locked recheck of a `Fetch` takes effect where it runs, and after it the cache and
the sequential state hold its key at the same place. -/
theorem Linearized.act_recheck (linearized : w.Linearized start lin) (valid : start.Valid)
    {keys : List String} (roomy : start.Roomy keys) (keyed : w.Keyed keys)
    {index invokedAt : Nat} {key : String}
    (found : w.goroutines[index]? = some ⟨.fetch key, invokedAt, .fetchExpired⟩) :
    (w.act (.step index)).Linearized start (lin ++ [(index, w.next)]) := by
  obtain ⟨s, pending, cache, agree, justified⟩ := linearized.agree
  have stepped := Goroutine.step_recheck s w.clock w.next key
  rw [← cache] at stepped
  have valid' : s.Valid := linearized.safe.valid cache
  have roomy' : s.Roomy keys := agree.roomy_iff.mpr (roomy.run valid (key_mem_linCalls keyed lin))
  have member : key ∈ keys := keyed _ (List.getElem?_mem found)
  obtain ⟨-, evicted, value⟩ :=
    agree.step roomy' valid' (ResponseCache.valid_run valid _) (.fetch key w.clock w.clock) member
  obtain ⟨nextRecheck, evictedRecheck⟩ := s.fetchRecheck_eq_step key w.clock
  refine linearized.act_step_append found stepped (linearized.unlisted found fun _ => id) ?_
    (fun _ _ finished => by cases finished; rfl) (by simp [Op.call, evictedRecheck, evicted])
    ⟨_, fun other => pending other && other != key, by rw [nextRecheck],
      agree.step_resolves roomy' valid' (ResponseCache.valid_run valid _)
        (.fetch key w.clock w.clock) member,
      fun other marked => ?_⟩
  · simp only [Goroutine.Matches, Op.call, ← value, ResponseCache.withoutError_fetchRecheck]
    rfl
  · obtain ⟨marked, different⟩ := Bool.and_eq_true _ _ ▸ marked
    refine (justified _ marked).act_step found stepped
      fun listed waiting present unlisted fetching _ relisted => ?_
    rw [List.map_append, List.mem_append] at relisted
    rcases relisted with old | last
    · exact unlisted old
    · cases List.mem_singleton.mp last
      rw [found, Option.some.injEq] at present
      subst present
      cases fetching
      simp at different

/-- A step that changes nothing keeps the list. -/
theorem Linearized.act_idle (linearized : w.Linearized start lin) {index : Nat}
    {goroutine : Goroutine Request Response} (found : w.goroutines[index]? = some goroutine)
    (idle : Goroutine.step w.cache w.clock w.next goroutine.op goroutine.pc =
      (w.cache, goroutine.pc, [])) :
    (w.act (.step index)).Linearized start lin := by
  have present : ∀ other, (w.act (.step index)).goroutines[other]? = w.goroutines[other]? :=
    fun other => by
      rw [getElem?_goroutines_act_step found idle]
      split
      · subst other
        rw [found]
      · rfl
  exact linearized.frame (safe_act linearized.safe _) (cache_act_step found idle)
    (by rw [onEvicted_act_step found idle, List.append_nil]) (next_act _)
    (le_of_eq (clock_act_step w index).1.symm) (fun _ past => getD_clocks_act _ past)
    (fun other _ old => (present other).trans old)
    (fun other _ new absent => by rw [present, absent] at new; cases new)

/-- When no goroutine holds an entry that can expire or waits for its recheck, no key is
pending. -/
theorem Linearized.settled (linearized : w.Linearized start lin)
    (held : ∀ goroutine ∈ w.goroutines, goroutine.pc.Timeless) (key : String) :
    ¬w.PendsOn lin key := by
  rintro ⟨index, ⟨op, invokedAt, pc⟩, found, unlisted, fetching, started⟩
  have waiting := linearized.waiting index _ found unlisted
  have timeless := held _ (List.getElem?_mem found)
  cases fetching
  cases pc with
  | start => exact started rfl
  | fetchLooked value =>
      cases value with
      | none => exact waiting
      | some value =>
          obtain ⟨entry, rfl, expired⟩ := waiting
          rw [CacheEntry.isExpired, Resource.isExpired_of_zero (timeless _ rfl _ rfl)] at expired
          cases expired
  | fetchExpired => exact timeless
  | returned | panicked => exact waiting

section Quiet

variable (valid : start.Valid)
include valid

/-- Every step of a goroutine keeps a linearization when no call can evict for capacity, or when
no goroutine holds an entry that can expire or waits for its recheck. -/
theorem Linearized.act_goroutine (linearized : w.Linearized start lin) {keys : List String}
    (quiet : start.Roomy keys ∧ w.Keyed keys ∨
      ∀ goroutine ∈ w.goroutines, goroutine.pc.Timeless)
    {index : Nat} {goroutine : Goroutine Request Response}
    (found : w.goroutines[index]? = some goroutine) :
    ∃ lin', (w.act (.step index)).Linearized start lin' := by
  obtain ⟨op, invokedAt, pc⟩ := goroutine
  have idle : Goroutine.step w.cache w.clock w.next op pc = (w.cache, pc, []) →
      ∃ lin', (w.act (.step index)).Linearized start lin' := fun idle =>
    ⟨lin, linearized.act_idle found idle⟩
  cases pc with
  | start =>
      cases op with
      | fetch key => exact linearized.act_lookup found
      | setResponse | addRequest | deleteRequest =>
          exact ⟨_, linearized.act_write valid (quiet.imp_right linearized.settled)
            (fun _ => by simp) found⟩
  | fetchLooked value =>
      cases op with
      | fetch key =>
          cases value with
          | none => exact ⟨lin, linearized.act_miss found⟩
          | some value =>
              obtain ⟨entry, rfl⟩ :=
                linearized.safe.places _ (List.getElem?_mem found) value rfl
              rcases quiet with ⟨roomy, keyed⟩ | held
              · exact linearized.act_check found valid roomy keyed
              · exact ⟨lin, linearized.act_check_live found (Resource.isExpired_of_zero
                  (held _ (List.getElem?_mem found) _ rfl _ rfl) w.clock)⟩
      | _ => exact idle rfl
  | fetchExpired =>
      cases op with
      | fetch key =>
          rcases quiet with ⟨roomy, keyed⟩ | held
          · exact ⟨_, linearized.act_recheck valid roomy keyed found⟩
          · exact (held _ (List.getElem?_mem found)).elim
      | _ => exact idle rfl
  | returned | panicked => cases op <;> exact idle rfl

/-- Every action keeps a linearization, under the same conditions. -/
theorem Linearized.act (linearized : w.Linearized start lin) {keys : List String}
    (quiet : start.Roomy keys ∧ w.Keyed keys ∨
      ∀ goroutine ∈ w.goroutines, goroutine.pc.Timeless)
    (action : Action Request Response) : ∃ lin', (w.act action).Linearized start lin' := by
  cases action with
  | step index =>
      cases found : w.goroutines[index]? with
      | some goroutine => exact linearized.act_goroutine valid quiet found
      | none =>
          have acted : w.act (.step index) = { w with clocks := w.clocks ++ [w.clock] } := by
            simp [World.act, found]
          exact ⟨lin, linearized.frame (safe_act linearized.safe _) (by rw [acted])
            (by rw [acted]) (next_act _) (by rw [acted]) (fun _ past => getD_clocks_act _ past)
            (fun _ _ old => by rw [acted]; exact old)
            (fun _ _ new absent => by rw [acted, absent] at new; cases new)⟩
  | invoke op =>
      refine ⟨lin, linearized.frame (safe_act linearized.safe _) rfl rfl (next_act _) (le_refl _)
        (fun _ past => getD_clocks_act _ past) (fun index goroutine found => ?_)
        (fun index goroutine new absent => ?_)⟩
      · exact (List.getElem?_append_left (List.getElem?_eq_some.mp found).1).trans found
      · simp only [World.act,
          List.getElem?_append_right (List.getElem?_eq_none_iff.mp absent)] at new
        obtain rfl := List.mem_singleton.mp (List.getElem?_mem new)
        exact ⟨rfl, by rw [next_act]; exact Nat.lt_succ_self _⟩
  | advance now =>
      exact ⟨lin, linearized.frame (safe_act linearized.safe _) rfl rfl (next_act _)
        (le_max_left _ _) (fun _ past => getD_clocks_act _ past) (fun _ _ found => found)
        (fun _ _ new absent => by simp [World.act, absent] at new)⟩

/-- Every run keeps a linearization when no call can evict for capacity, because the state has
room for every key the goroutines and the calls the run invokes use, or when no entry of the cache
can expire. -/
theorem Linearized.run (linearized : w.Linearized start lin) {keys : List String}
    (actions : List (Action Request Response))
    (quiet : start.Roomy keys ∧ w.Keyed keys ∧ (∀ op, .invoke op ∈ actions → op.key ∈ keys) ∨
      w.Timeless) :
    ∃ lin', (w.run actions).Linearized start lin' := by
  induction actions generalizing w lin with
  | nil => exact ⟨lin, linearized⟩
  | cons action actions induction =>
      obtain ⟨lin', linearized'⟩ := linearized.act valid
        (quiet.imp (fun roomy => ⟨roomy.1, roomy.2.1⟩) Timeless.held) action
      refine induction linearized' (quiet.imp (fun ⟨roomy, keyed, invoked⟩ => ⟨roomy, ?_,
        fun op member => invoked op (List.mem_cons_of_mem _ member)⟩)
        fun timeless => timeless.act action)
      exact keyed.act fun op acted => invoked op (by rw [acted]; exact List.mem_cons_self _ _)

end Quiet

end World

variable [DecidableEq Request]

end XdsRelay
