import XdsRelay.Concurrency.World
import Mathlib.Data.List.Permutation
import Mathlib.Tactic.IntervalCases

/-! # Linearizability

A run is linearizable when its calls, placed one after another in an order that respects real
time, compute what the goroutines returned. A call run alone is. Interleaved, `Fetch` is not: its
read-locked `Get` moves the entry to the front before the expiry check, so a concurrent insertion
into a full cache evicts another entry, one that no order of the calls run one after the other
evicts, and `Fetch` then reaps the one it moved.
-/

namespace XdsRelay

variable {Request Response : Type}

/-- A return value with its error left out. -/
def Return.withoutError : Return Request Response → Return Request Response
  | .fetch (resource, _) => .fetch (resource, none)
  | .setResponse requests _ => .setResponse requests none
  | .addRequest _ => .addRequest none
  | .deleteRequest _ => .deleteRequest none

/-- What goroutine `index` returned, its error left out. -/
def World.returned (w : World Request Response) (index : Nat) :
    Option (Except (Panic Request Response) (Return Request Response)) :=
  match w.goroutines[index]? with
  | some ⟨_, _, .returned _ result⟩ => some (.ok result.withoutError)
  | _ => none

/-- Every goroutine of the run has returned. -/
def World.Complete (w : World Request Response) : Prop :=
  ∀ goroutine ∈ w.goroutines, ∃ returnedAt result, goroutine.pc = .returned returnedAt result

/-- The point `point` lies in the interval of goroutine `index`, from its invocation to its
return. -/
def World.InInterval (w : World Request Response) (index point : Nat) : Prop :=
  ∃ goroutine ∈ w.goroutines[index]?, goroutine.invokedAt ≤ point ∧
    ∀ returnedAt result, goroutine.pc = .returned returnedAt result → point ≤ returnedAt

theorem World.InInterval.bounds {w : World Request Response} {index point : Nat}
    (inside : w.InInterval index point) {op : Op Request Response} {invokedAt returnedAt : Nat}
    {result : Return Request Response}
    (found : w.goroutines[index]? = some ⟨op, invokedAt, .returned returnedAt result⟩) :
    invokedAt ≤ point ∧ point ≤ returnedAt := by
  obtain ⟨goroutine, member, invoked, returned⟩ := inside
  rw [found, Option.mem_def, Option.some.injEq] at member
  subst member
  exact ⟨invoked, returned _ _ rfl⟩

/-- The sequential calls of the goroutines in `order`, each reading the clock at its point. -/
def World.serialCalls (w : World Request Response) (order : List Nat) (point : Nat → Nat) :
    List (Call Request Response) :=
  order.filterMap fun index =>
    (w.goroutines[index]?).map fun goroutine => goroutine.op.call (w.clocks.getD (point index) 0)

/-- The run from the cache `start` that ended in `w` is linearizable, error values aside: the
calls, placed one after another in an order that puts each at a point of its own interval and
read the clock there, return what the goroutines returned, make the same calls of `onEvicted`, as
a multiset of pairs, and end in the same cache, entries and recency order. -/
def Linearizable [DecidableEq Request] (start : Cache Request Response) (w : World Request Response) :
    Prop :=
  ∃ (order : List Nat) (point : Nat → Nat),
    order.Perm (List.range w.goroutines.length) ∧
    order.Pairwise (fun earlier later => point earlier ≤ point later) ∧
    (∀ index ∈ order, w.InInterval index (point index)) ∧
    (start.outcomes (w.serialCalls order point)).map
        (fun outcome => some (outcome.result.map Return.withoutError)) = order.map w.returned ∧
    ((start.outcomes (w.serialCalls order point)).flatMap Outcome.onEvicted).Perm w.onEvicted ∧
    start.run (w.serialCalls order point) = w.cache


/-- A call that runs alone on a state of the cache, its steps back to back, is linearizable. -/
theorem call_alone_linearizable [DecidableEq Request] (s : ResponseCache Request Response)
    (now : Time) (op : Op Request Response) :
    Linearizable s.toCache ((World.idle s.toCache now).run (op.alone 0)) := by
  obtain ⟨cache, onEvicted, returnedAt, later, goroutines⟩ := (World.idle s.toCache now).run_alone op
  obtain ⟨count, clocks⟩ := (World.idle s.toCache now).clocks_run_alone op 0
  simp only [World.goroutines_idle, World.next_idle, World.onEvicted_idle, World.clock_idle,
    World.clocks_idle, World.cache_idle, List.length_nil, List.nil_append]
    at cache onEvicted goroutines clocks later
  refine ⟨[0], fun _ => 1, by rw [goroutines]; exact List.Perm.refl _, List.pairwise_singleton _ _,
    ?_, ?_, ?_, ?_⟩
  · simp only [List.mem_singleton, forall_eq, World.InInterval, goroutines]
    refine ⟨⟨op, 1, .finish returnedAt _⟩, rfl, le_refl 1, fun returned result finished => ?_⟩
    simp only [ResponseCache.step_toCache, Pc.finish, Pc.returned.injEq] at finished
    omega
  · simp [World.serialCalls, World.returned, goroutines, clocks, Cache.outcomes,
      ResponseCache.step_toCache, Pc.finish, Except.map]
  · simp [World.serialCalls, goroutines, clocks, Cache.outcomes, onEvicted]
  · simp [World.serialCalls, goroutines, clocks, Cache.run, cache]

/-! ## An interleaving that is not linearizable -/

/-- `NewCache(maxEntries, onEvict, ttl)`, then `SetResponse("k", r)` and `SetResponse("j", r')` at
time 0. -/
def setKAndJ (maxEntries : Int) (ttl : Duration) : Cache Nat Nat :=
  (ResponseCache.empty maxEntries ttl : ResponseCache Nat Nat).toCache.run
    [.setResponse "k" 7 0, .setResponse "j" 8 0]

/-- At time 5 a `Fetch("k")` runs its read-locked `Get` and its first expiry check, an
`AddRequest("m", h)` then runs whole, and the `Fetch` takes its last step. -/
def fetchAroundInsertion : List (Action Nat Nat) :=
  [.advance 5, .invoke (.fetch "k"), .step 0, .step 0, .invoke (.addRequest "m" 1), .step 1, .step 0]

/-- `NewCache(2, onEvict, 1ns)`, and entries "k" then "j" set at time 0, so both expire at 1. At
time 5 the `Fetch("k")` of `fetchAroundInsertion` runs its read-locked `Get`, which moves "k" to
the front, and finds "k" expired; the `AddRequest("m", h)` then evicts "j", now at the back,
expired too but not reaped; and the `Fetch` reaps "k". In either order the two calls run one after
the other end with "m" and "j", evicting only "k". -/
theorem fetch_interleaved_with_insertion_not_linearizable :
    (newCache 2 1 : Except CacheError (Cache Nat Nat)) = .ok (ResponseCache.empty 2 1).toCache ∧
      ((World.idle (setKAndJ 2 1) 0).run fetchAroundInsertion).Complete ∧
      ¬ Linearizable (setKAndJ 2 1) ((World.idle (setKAndJ 2 1) 0).run fetchAroundInsertion) := by
  generalize hstart : setKAndJ 2 1 = start
  generalize hw : (World.idle start 0).run fetchAroundInsertion = w
  have goroutines : w.goroutines = [⟨.fetch "k", 2, .returned 7 (.fetch (none, none))⟩,
      ⟨.addRequest "m" 1, 5, .returned 6 (.addRequest none)⟩] := by
    subst hstart hw
    decide
  have clocks : w.clocks = [0, 5, 5, 5, 5, 5, 5, 5] := by
    subst hstart hw
    decide
  have diverges : ∀ calls ∈ [[.fetch "k" 5 5, .addRequest "m" 1 5],
      [.addRequest "m" 1 5, .fetch "k" 5 5]], start.run calls ≠ w.cache := by
    subst hstart hw
    decide
  refine ⟨rfl, by simp [World.Complete, goroutines], ?_⟩
  rintro ⟨order, point, perm, -, inInterval, -, -, final⟩
  rw [goroutines] at perm
  have reading : ∀ index ∈ order, w.clocks[point index]?.getD 0 = 5 := by
    intro index member
    have inside : 1 ≤ point index ∧ point index ≤ 7 := by
      have : index < 2 := by simpa using perm.subset member
      interval_cases index <;>
        · have := (inInterval _ member).bounds (by rw [goroutines]; rfl)
          omega
    obtain ⟨low, high⟩ := inside
    rw [clocks]
    interval_cases point index <;> rfl
  have orders : order = [0, 1] ∨ order = [1, 0] := by
    obtain ⟨first, second, rfl⟩ := List.length_eq_two.mp (by simpa using perm.length_eq)
    obtain ⟨small, small'⟩ : first < 2 ∧ second < 2 := by
      constructor <;> simpa using perm.subset (by simp)
    revert perm
    interval_cases first <;> interval_cases second <;> decide
  rcases orders with rfl | rfl <;>
    simp only [World.serialCalls, goroutines, List.filterMap_cons, List.filterMap_nil,
      List.getElem?_cons_zero, List.getElem?_cons_succ, Option.map_some',
      List.getD_eq_getElem?_getD, reading 0 (by simp), reading 1 (by simp), Op.call] at final <;>
    exact diverges _ (by simp) final

end XdsRelay
