import XdsRelay.Cache.TypeSafety

/-! # Goroutines around the cache

`cache.go` guards the `lru.Cache` with the `sync.RWMutex` `cacheMu`. Here each critical section is
one atomic step, with the calls of `onEvicted` made inside it, and so is each `time.Now()` read
outside a lock. `SetResponse`, `AddRequest` and `DeleteRequest` are one critical section each.
`Fetch` takes three steps: the read-locked `Get`, the first expiry check, and, when that check
fails, the write-locked recheck. The clock only moves forward. Run back to back, the steps of a
call compute the sequential call. Two read-locked sections never overlap here; `MutexWorld` makes
`RLock` a step of its own and shows that the runs in which they do not overlap are runs of `World`.
-/

namespace XdsRelay

variable {Request Response : Type}

/-- A call of the `Cache` interface as a goroutine makes it; it reads the clock as it runs. -/
inductive Op (Request Response : Type)
  | fetch (key : String)
  | setResponse (key : String) (response : Response)
  | addRequest (key : String) (req : Request)
  | deleteRequest (key : String) (req : Request)
  deriving DecidableEq

/-- The sequential call `op` makes when each of its clock readings is `now`. -/
def Op.call : Op Request Response → Time → Call Request Response
  | .fetch key, now => .fetch key now now
  | .setResponse key response, now => .setResponse key response now
  | .addRequest key req, now => .addRequest key req now
  | .deleteRequest key req, _ => .deleteRequest key req

/-- The key `op` is called on. -/
def Op.key : Op Request Response → String
  | .fetch key | .setResponse key _ | .addRequest key _ | .deleteRequest key _ => key

@[simp] theorem Op.key_call (op : Op Request Response) (now : Time) :
    (op.call now).key = op.key := by
  cases op <;> rfl

/-- Where a goroutine is in its call. -/
inductive Pc (Request Response : Type)
  /-- Invoked; no step taken yet. -/
  | start
  /-- `Fetch` after its read-locked `Get`, holding the value found. -/
  | fetchLooked (value : Option (LruValue Request Response))
  /-- `Fetch` after its first `time.Now()` found the resource expired. -/
  | fetchExpired
  /-- Returned `result` at point `returnedAt` of the run. -/
  | returned (returnedAt : Nat) (result : Return Request Response)
  /-- Stopped by a panic. -/
  | panicked (panic : Panic Request Response)
  deriving DecidableEq

/-- A goroutine inside the cache: its call, the point of the run at which it was invoked, and
where it is. -/
structure Goroutine (Request Response : Type) where
  op : Op Request Response
  invokedAt : Nat
  pc : Pc Request Response
  deriving DecidableEq

/-- The place after a critical section that ended with `outcome`. -/
def Pc.finish (returnedAt : Nat) (outcome : Outcome Request Response (Return Request Response)) :
    Pc Request Response :=
  match outcome.result with
  | .ok result => .returned returnedAt result
  | .error panic => .panicked panic

/-- One step of a goroutine running `op` at `pc`, on `c` at clock `now`; a step that returns
records the point `returnedAt`. It gives the cache after the step, the place after it, and the
calls of `onEvicted` made in it. A goroutine that has returned or panicked takes no step. -/
def Goroutine.step [DecidableEq Request] (c : Cache Request Response) (now : Time) (returnedAt : Nat) :
    Op Request Response → Pc Request Response →
      Cache Request Response × Pc Request Response × List (String × Resource Request Response)
  | .fetch key, .start =>
      let (c, value) := c.fetchLookup key
      (c, .fetchLooked value, [])
  | .fetch key, .fetchLooked none =>
      (c, .returned returnedAt (.fetch (none, some (.noValueFound key))), [])
  | .fetch key, .fetchLooked (some value) =>
      match value.asResource with
      | none => (c, .returned returnedAt (.fetch (none, some (.unableToCast key))), [])
      | some resource =>
          if resource.isExpired now then (c, .fetchExpired, [])
          else (c, .returned returnedAt (.fetch (some resource, none)), [])
  | .fetch key, .fetchExpired =>
      let (c, outcome) := c.fetchRecheck key now
      (c, .finish returnedAt (outcome.map .fetch), outcome.onEvicted)
  | .setResponse key response, .start =>
      let (c, outcome) := c.step (.setResponse key response now)
      (c, .finish returnedAt outcome, outcome.onEvicted)
  | .addRequest key req, .start =>
      let (c, outcome) := c.step (.addRequest key req now)
      (c, .finish returnedAt outcome, outcome.onEvicted)
  | .deleteRequest key req, .start =>
      let (c, outcome) := c.step (.deleteRequest key req)
      (c, .finish returnedAt outcome, outcome.onEvicted)
  | _, pc => (c, pc, [])

/-- The process around the cache: the cache, the clock, the goroutines that called it, the calls
of `onEvicted` so far, and the clock at each point of the run, `clocks[n]` after `n` actions. -/
structure World (Request Response : Type) where
  cache : Cache Request Response
  clock : Time
  goroutines : List (Goroutine Request Response)
  onEvicted : List (String × Resource Request Response)
  clocks : List Time

/-- What happens next: a goroutine calls `op`, goroutine `index` takes a step, or the clock
moves to `now` if that is later. -/
inductive Action (Request Response : Type)
  | invoke (op : Op Request Response)
  | step (index : Nat)
  | advance (now : Time)

namespace World

/-- The world before any call, with the cache `c` and the clock at `now`. -/
def idle (c : Cache Request Response) (now : Time) : World Request Response :=
  ⟨c, now, [], [], [now]⟩

/-- The point of the run that the next action leads to. -/
def next (w : World Request Response) : Nat := w.clocks.length

section Idle

variable (c : Cache Request Response) (now : Time)

@[simp] theorem cache_idle : (idle c now).cache = c := rfl

@[simp] theorem clock_idle : (idle c now).clock = now := rfl

@[simp] theorem goroutines_idle : (idle c now).goroutines = [] := rfl

@[simp] theorem onEvicted_idle : (idle c now).onEvicted = [] := rfl

@[simp] theorem clocks_idle : (idle c now).clocks = [now] := rfl

@[simp] theorem next_idle : (idle c now).next = 1 := rfl

end Idle

variable [DecidableEq Request]

def act (w : World Request Response) : Action Request Response → World Request Response
  | .invoke op =>
      { w with goroutines := w.goroutines ++ [⟨op, w.next, .start⟩], clocks := w.clocks ++ [w.clock] }
  | .step index =>
      match w.goroutines[index]? with
      | none => { w with clocks := w.clocks ++ [w.clock] }
      | some goroutine =>
          let (c, pc, evicted) := Goroutine.step w.cache w.clock w.next goroutine.op goroutine.pc
          { w with cache := c, goroutines := w.goroutines.set index { goroutine with pc := pc },
                   onEvicted := w.onEvicted ++ evicted, clocks := w.clocks ++ [w.clock] }
  | .advance now =>
      { w with clock := max w.clock now, clocks := w.clocks ++ [max w.clock now] }

def run (w : World Request Response) : List (Action Request Response) → World Request Response
  | [] => w
  | action :: actions => (w.act action).run actions

end World

/-! ## Calls run alone -/

/-- The actions that invoke `op` as goroutine `index` and run its steps back to back: three for
`Fetch`, one for the others. -/
def Op.alone (op : Op Request Response) (index : Nat) : List (Action Request Response) :=
  .invoke op :: List.replicate (match op with | .fetch _ => 3 | _ => 1) (.step index)

/-- The schedule that runs `calls` one after another, nothing between them: the clock moves to
each call's time, then the call is invoked as the next goroutine, from `first` on, and its steps
run back to back. -/
def World.serial (first : Nat) : List (Op Request Response × Time) → List (Action Request Response)
  | [] => []
  | (op, now) :: calls => .advance now :: op.alone first ++ serial (first + 1) calls

namespace World

variable [DecidableEq Request]

/-- A step of goroutine `index` runs `Goroutine.step` on it and records where it is after. -/
theorem act_step (w : World Request Response) {index : Nat} {goroutine : Goroutine Request Response}
    (found : w.goroutines[index]? = some goroutine) :
    w.act (.step index) =
      { w with cache := (Goroutine.step w.cache w.clock w.next goroutine.op goroutine.pc).1,
               goroutines := w.goroutines.set index
                 { goroutine with pc := (Goroutine.step w.cache w.clock w.next goroutine.op goroutine.pc).2.1 },
               onEvicted := w.onEvicted ++ (Goroutine.step w.cache w.clock w.next goroutine.op goroutine.pc).2.2,
               clocks := w.clocks ++ [w.clock] } := by
  simp only [act, found]

/-- What every goroutine invoked satisfies and every step of a goroutine keeps holds of every
goroutine after any action. -/
theorem forall_goroutines_act {P : Goroutine Request Response → Prop} {w : World Request Response}
    (holds : ∀ goroutine ∈ w.goroutines, P goroutine) (action : Action Request Response)
    (invoked : ∀ op, action = .invoke op → P ⟨op, w.next, .start⟩)
    (stepped : ∀ goroutine ∈ w.goroutines, P goroutine → P { goroutine with
      pc := (Goroutine.step w.cache w.clock w.next goroutine.op goroutine.pc).2.1 }) :
    ∀ goroutine ∈ (w.act action).goroutines, P goroutine := by
  cases action with
  | invoke op =>
      intro goroutine member
      rcases List.mem_append.mp member with old | new
      · exact holds goroutine old
      · rw [List.mem_singleton.mp new]
        exact invoked op rfl
  | step index =>
      cases found : w.goroutines[index]? with
      | none =>
          simp only [act, found]
          exact holds
      | some goroutine =>
          rw [act_step w found]
          intro other member
          rcases List.mem_or_eq_of_mem_set member with old | rfl
          · exact holds other old
          · have present := List.getElem?_mem found
            exact stepped goroutine present (holds goroutine present)
  | advance now => exact holds

theorem act_step_last (w : World Request Response) {goroutines : List (Goroutine Request Response)}
    {goroutine : Goroutine Request Response} (last : w.goroutines = goroutines ++ [goroutine]) :
    w.act (.step goroutines.length) =
      { w with cache := (Goroutine.step w.cache w.clock w.next goroutine.op goroutine.pc).1,
               goroutines := goroutines ++
                 [{ goroutine with pc := (Goroutine.step w.cache w.clock w.next goroutine.op goroutine.pc).2.1 }],
               onEvicted := w.onEvicted ++ (Goroutine.step w.cache w.clock w.next goroutine.op goroutine.pc).2.2,
               clocks := w.clocks ++ [w.clock] } := by
  simp [act, last]

theorem clock_act_step (w : World Request Response) (index : Nat) :
    (w.act (.step index)).clock = w.clock ∧ (w.act (.step index)).clocks = w.clocks ++ [w.clock] := by
  simp only [act]
  split <;> exact ⟨rfl, rfl⟩

/-- Steps leave the clock where it is and record it at each new point. -/
theorem clock_run_steps (w : World Request Response) (index count : Nat) :
    (w.run (List.replicate count (.step index))).clock = w.clock ∧
      (w.run (List.replicate count (.step index))).clocks =
        w.clocks ++ List.replicate count w.clock := by
  induction count generalizing w with
  | zero => simp [run]
  | succ count induction =>
      obtain ⟨clock, clocks⟩ := clock_act_step w index
      obtain ⟨clock', clocks'⟩ := induction (w.act (.step index))
      rw [clock] at clock' clocks'
      simp [List.replicate_succ, run, clock', clocks', clocks]

theorem run_append (w : World Request Response) (first second : List (Action Request Response)) :
    w.run (first ++ second) = (w.run first).run second := by
  induction first generalizing w with
  | nil => rfl
  | cons action first induction => exact induction (w.act action)

theorem clock_run_alone (w : World Request Response) (op : Op Request Response) (index : Nat) :
    (w.run (op.alone index)).clock = w.clock :=
  (clock_run_steps (w.act (.invoke op)) index _).1

theorem clocks_run_alone (w : World Request Response) (op : Op Request Response) (index : Nat) :
    ∃ count, (w.run (op.alone index)).clocks = w.clocks ++ w.clock :: List.replicate count w.clock :=
  ⟨match op with | .fetch _ => 3 | _ => 1, by simp [Op.alone, run, (clock_run_steps _ index _).2, act]⟩

/-- A call whose steps run back to back computes the sequential call at the clock of the world:
the same cache, the same calls of `onEvicted`, and the same return value or panic. -/
theorem run_alone (w : World Request Response) (op : Op Request Response) :
    (w.run (op.alone w.goroutines.length)).cache = (w.cache.step (op.call w.clock)).1 ∧
      (w.run (op.alone w.goroutines.length)).onEvicted =
        w.onEvicted ++ (w.cache.step (op.call w.clock)).2.onEvicted ∧
      ∃ returnedAt, w.next < returnedAt ∧ (w.run (op.alone w.goroutines.length)).goroutines =
        w.goroutines ++ [⟨op, w.next, .finish returnedAt (w.cache.step (op.call w.clock)).2⟩] := by
  have invoked : (w.act (.invoke op)).goroutines = w.goroutines ++ [⟨op, w.next, .start⟩] := rfl
  cases op
  case fetch key =>
    rcases lookup : w.cache.fetchLookup key with ⟨looked, _ | value⟩
    · simp [Op.alone, run, act, next, Goroutine.step, Op.call, Cache.step, Cache.fetch, lookup,
        Outcome.map, Pc.finish, Outcome.returning, Except.map]
    · rcases cast : value.asResource with _ | resource
      · simp [Op.alone, run, act, next, Goroutine.step, Op.call, Cache.step, Cache.fetch, lookup,
          Outcome.map, Pc.finish, Outcome.returning, Except.map, cast]
      · by_cases expired : resource.isExpired w.clock
        · simp [Op.alone, run, act, next, Goroutine.step, Op.call, Cache.step, Cache.fetch, lookup,
            Outcome.map, Outcome.returning, cast, expired]
          exact ⟨_, by omega, rfl⟩
        · simp [Op.alone, run, act, next, Goroutine.step, Op.call, Cache.step, Cache.fetch, lookup,
            Outcome.map, Pc.finish, Outcome.returning, Except.map, cast, expired]
  -- The writing calls take their one critical section as a single step.
  all_goals
    simp only [Op.alone, List.replicate, run, act_step_last _ invoked]
    exact ⟨rfl, rfl, _, by simp [next, act], rfl⟩

/-- Calls run one after another, each alone and at a clock no earlier than the last, compute what
the sequential calls compute: the same cache, the same calls of `onEvicted` in the same order, and
goroutines that end as the sequential calls end. -/
theorem run_serial (w : World Request Response) (calls : List (Op Request Response × Time))
    (ordered : List.Chain (· ≤ ·) w.clock (calls.map Prod.snd)) :
    (w.run (serial w.goroutines.length calls)).cache =
        w.cache.run (calls.map fun call => call.1.call call.2) ∧
      (w.run (serial w.goroutines.length calls)).onEvicted = w.onEvicted ++
        (w.cache.outcomes (calls.map fun call => call.1.call call.2)).flatMap Outcome.onEvicted ∧
      ∃ started, (w.run (serial w.goroutines.length calls)).goroutines = w.goroutines ++ started ∧
        started.map Goroutine.op = calls.map Prod.fst ∧
        List.Forall₂ (fun goroutine outcome => ∃ returnedAt, goroutine.pc = .finish returnedAt outcome)
          started (w.cache.outcomes (calls.map fun call => call.1.call call.2)) := by
  induction calls generalizing w with
  | nil => exact ⟨rfl, by simp [serial, run, Cache.outcomes], [], by simp [serial, run], rfl, .nil⟩
  | cons call calls induction =>
      obtain ⟨op, now⟩ := call
      obtain ⟨later, ordered⟩ := List.chain_cons.mp ordered
      set advanced := w.act (.advance now)
      have clock : advanced.clock = now := max_eq_right later
      obtain ⟨cache, onEvicted, returnedAt, -, goroutines⟩ := advanced.run_alone op
      set alone := advanced.run (op.alone advanced.goroutines.length)
      have length : alone.goroutines.length = w.goroutines.length + 1 := by
        rw [goroutines]
        simp [advanced, act]
      obtain ⟨cache', onEvicted', started, goroutines', ops, finished⟩ :=
        induction alone (by rw [clock_run_alone, clock]; exact ordered)
      rw [length] at cache' onEvicted' goroutines'
      have schedule : w.run (serial w.goroutines.length ((op, now) :: calls)) =
          alone.run (serial (w.goroutines.length + 1) calls) := by
        show advanced.run (op.alone w.goroutines.length ++ serial (w.goroutines.length + 1) calls) = _
        rw [run_append]
        rfl
      rw [schedule]
      refine ⟨by rw [cache', cache, clock]; rfl,
        by rw [onEvicted', onEvicted, cache, clock]; simp [Cache.outcomes, advanced, act],
        ⟨op, advanced.next, .finish returnedAt (advanced.cache.step (op.call advanced.clock)).2⟩ ::
          started, by rw [goroutines', goroutines]; simp [advanced, act], by simp [ops],
        .cons ⟨returnedAt, by rw [clock]; rfl⟩ (by rw [cache, clock] at finished; exact finished)⟩

end World

/-- Calls run one after another from any state of the cache, each alone, compute in `World`
exactly what the sequential calls compute: the same cache, the same calls of `onEvicted` in
the same order, and each goroutine ends as its sequential call ends, with its return value or its
panic. -/
theorem serial_schedules_compute_sequential_runs [DecidableEq Request] (c : Cache Request Response)
    (now : Time) (calls : List (Op Request Response × Time))
    (ordered : List.Chain (· ≤ ·) now (calls.map Prod.snd)) :
    ((World.idle c now).run (World.serial 0 calls)).cache =
        c.run (calls.map fun call => call.1.call call.2) ∧
      ((World.idle c now).run (World.serial 0 calls)).onEvicted =
        (c.outcomes (calls.map fun call => call.1.call call.2)).flatMap Outcome.onEvicted ∧
      ((World.idle c now).run (World.serial 0 calls)).goroutines.map Goroutine.op =
        calls.map Prod.fst ∧
      List.Forall₂ (fun goroutine outcome => ∃ returnedAt, goroutine.pc = .finish returnedAt outcome)
        ((World.idle c now).run (World.serial 0 calls)).goroutines
        (c.outcomes (calls.map fun call => call.1.call call.2)) := by
  obtain ⟨cache, onEvicted, started, goroutines, ops, finished⟩ :=
    (World.idle c now).run_serial calls ordered
  simp only [World.goroutines_idle, World.onEvicted_idle, World.cache_idle, List.length_nil,
    List.nil_append] at cache onEvicted goroutines
  rw [goroutines]
  exact ⟨cache, onEvicted, ops, finished⟩

end XdsRelay
