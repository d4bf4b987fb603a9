import XdsRelay.Concurrency.Progress

/-! # `cacheMu` step by step

`World` runs each critical section of `cacheMu` as one step. That leaves out the runs in which the
read-locked sections of two `Fetch` calls overlap: `RLock` admits both, and the `Get` of each
rewrites the links of the same list in `MoveToFront`, a data race. Here taking the read lock is a
step of its own, and a goroutine that takes it while another is inside its read-locked section
ends the run: `MutexWorld.run` gives `none`, and what is proved about runs is proved about the runs
without that race. A write-locked section waits while a goroutine is inside its read-locked
section.

The user's `onEvicted` is a parameter, `panics`, which says on which key and value it panics. Such
a panic stops the goroutine whose call made it. `removeElement` removes the entry before it calls
`OnEvicted`, the eviction is the last thing the call does, and the deferred `Unlock` releases
`cacheMu`, so the cache is left as the step of `World` leaves it.

A run without the race is a run of `World` (`MutexWorld.world_run`), so what holds of every run of
`World` holds of it.
-/

namespace XdsRelay

variable {Request Response : Type}

/-- What the next step of a goroutine takes of `cacheMu`. -/
inductive Lock
  /-- Nothing: the first expiry check of `Fetch`, or no step once the call has ended. -/
  | free
  /-- `RLock`, for the `Get` of `Fetch`. -/
  | read
  /-- `Lock`, for a writing call or for the recheck of `Fetch`. -/
  | write
  deriving DecidableEq

/-- The lock the next step of a goroutine at `pc` running `op` takes. -/
def Pc.lock : Pc Request Response → Op Request Response → Lock
  | .start, .fetch _ => .read
  | .start, _ | .fetchExpired, _ => .write
  | _, _ => .free

/-- How `cacheMu` meets the next step of a goroutine. -/
inductive Admission (Request Response : Type)
  /-- There is no such goroutine. -/
  | absent
  /-- `RLock` in `Fetch`: the goroutine enters its read-locked section. -/
  | rlock
  /-- `RLock` while another goroutine is inside its read-locked section: the `Get` of both would
  write the list at once. -/
  | overlap
  /-- `Lock` while a goroutine is inside its read-locked section: the goroutine waits. -/
  | blocked
  /-- The goroutine takes its step of `World`: a write-locked section, the `Get` and `RUnlock` of
  a `Fetch` inside its read-locked section, the first expiry check outside `cacheMu`, or nothing
  once it has ended. -/
  | proceeds (goroutine : Goroutine Request Response)

/-- The process around the cache with `cacheMu` made explicit: the `World` of the critical
sections, the goroutine inside its read-locked section, if any, and the goroutines that a panic of
`onEvicted` stopped. -/
structure MutexWorld (Request Response : Type) where
  world : World Request Response
  reader : Option Nat
  stopped : List Nat

/-- The action of `World` that changes nothing but records the clock at a new point: a step that
takes or waits for `cacheMu`. -/
def World.pause (w : World Request Response) : Action Request Response := .advance w.clock

section Pause

variable [DecidableEq Request] (w : World Request Response)

/-- A step of one goroutine leaves every other as it was. -/
theorem World.getElem?_goroutines_act_step_of_ne {index other : Nat} (different : index ≠ other) :
    (w.act (.step index)).goroutines[other]? = w.goroutines[other]? := by
  cases found : w.goroutines[index]? with
  | none => simp only [World.act, found]
  | some goroutine => rw [World.act_step w found, List.getElem?_set_ne different]

end Pause

namespace MutexWorld

/-- Before any call, with the cache `c` and the clock at `now`. -/
def idle (c : Cache Request Response) (now : Time) : MutexWorld Request Response :=
  ⟨World.idle c now, none, []⟩

/-- How `cacheMu` meets the next step of goroutine `index`. -/
def admission (s : MutexWorld Request Response) (index : Nat) : Admission Request Response :=
  match s.world.goroutines[index]? with
  | none => .absent
  | some goroutine =>
      match goroutine.pc.lock goroutine.op, s.reader with
      | .read, none => .rlock
      | .read, some reader => if reader = index then .proceeds goroutine else .overlap
      | .write, some _ => .blocked
      | _, _ => .proceeds goroutine

/-- The action of `World` that `action` amounts to. -/
def shadow (s : MutexWorld Request Response) : Action Request Response → Action Request Response
  | .step index =>
      match s.admission index with
      | .rlock | .overlap | .blocked => s.world.pause
      | .absent | .proceeds _ => .step index
  | action => action

/-- The goroutine inside its read-locked section, if any, is a `Fetch` that has not yet run its
`Get`. -/
def Inside (s : MutexWorld Request Response) : Prop :=
  ∀ reader, s.reader = some reader →
    ∃ goroutine, s.world.goroutines[reader]? = some goroutine ∧ goroutine.pc.lock goroutine.op = .read

section Idle

variable (c : Cache Request Response) (now : Time)

@[simp] theorem world_idle : (idle c now).world = World.idle c now := rfl

@[simp] theorem reader_idle : (idle c now).reader = none := rfl

@[simp] theorem stopped_idle : (idle c now).stopped = [] := rfl

end Idle

/-! ## What `cacheMu` admits -/

section Admission

/-- What each way of meeting `cacheMu` says of goroutine `index` and of the reader. -/
def Admits (s : MutexWorld Request Response) (index : Nat) : Admission Request Response → Prop
  | .absent => s.world.goroutines[index]? = none
  | .rlock => s.reader = none ∧ ∃ goroutine,
      s.world.goroutines[index]? = some goroutine ∧ goroutine.pc.lock goroutine.op = .read
  | .overlap => ∃ reader, s.reader = some reader ∧ reader ≠ index
  | .blocked => s.reader ≠ none ∧ ∃ goroutine,
      s.world.goroutines[index]? = some goroutine ∧ goroutine.pc.lock goroutine.op = .write
  | .proceeds goroutine => s.world.goroutines[index]? = some goroutine ∧
      (goroutine.pc.lock goroutine.op = .read → s.reader = some index) ∧
      (goroutine.pc.lock goroutine.op = .write → s.reader = none)

theorem admits_admission (s : MutexWorld Request Response) (index : Nat) :
    s.Admits index (s.admission index) := by
  unfold admission
  cases found : s.world.goroutines[index]? with
  | none => exact found
  | some goroutine =>
      cases lock : goroutine.pc.lock goroutine.op <;> cases reader : s.reader <;>
        simp only [Admits, found, lock, reader] <;> try split_ifs
      all_goals simp_all

variable {s : MutexWorld Request Response} {index : Nat}

theorem absent_of_admission (admitted : s.admission index = .absent) :
    s.world.goroutines[index]? = none :=
  (congrArg (s.Admits index) admitted).mp (s.admits_admission index)

theorem rlock_of_admission (admitted : s.admission index = .rlock) :
    s.reader = none ∧ ∃ goroutine,
      s.world.goroutines[index]? = some goroutine ∧ goroutine.pc.lock goroutine.op = .read :=
  (congrArg (s.Admits index) admitted).mp (s.admits_admission index)

end Admission

variable [DecidableEq Request]

/-- The pairs that the next step of `goroutine` passes to `onEvicted`. -/
def evictedBy (s : MutexWorld Request Response) (goroutine : Goroutine Request Response) :
    List (String × Resource Request Response) :=
  (Goroutine.step s.world.cache s.world.clock s.world.next goroutine.op goroutine.pc).2.2

/-- One action, `onEvicted` panicking on the pairs `panics` picks; `none` when a goroutine takes
the read lock while another is inside its read-locked section. -/
def act (panics : String × Resource Request Response → Bool) (s : MutexWorld Request Response) :
    Action Request Response → Option (MutexWorld Request Response)
  | .step index =>
      match s.admission index with
      | .absent => some { s with world := s.world.act (.step index) }
      | .rlock => some { s with world := s.world.act s.world.pause, reader := some index }
      | .overlap => none
      | .blocked => some { s with world := s.world.act s.world.pause }
      | .proceeds goroutine =>
          some { world := s.world.act (.step index),
                 reader := if s.reader = some index then none else s.reader,
                 stopped := if (s.evictedBy goroutine).any panics then s.stopped ++ [index]
                   else s.stopped }
  | action => some { s with world := s.world.act action }

def run (panics : String × Resource Request Response → Bool) (s : MutexWorld Request Response) :
    List (Action Request Response) → Option (MutexWorld Request Response)
  | [] => some s
  | action :: actions => (s.act panics action).bind fun s => s.run panics actions

/-- The actions of `World` that a run amounts to, as far as it stays in the model. -/
def shadows (panics : String × Resource Request Response → Bool) (s : MutexWorld Request Response) :
    List (Action Request Response) → List (Action Request Response)
  | [] => []
  | action :: actions => s.shadow action ::
      match s.act panics action with
      | some s => s.shadows panics actions
      | none => []

/-! ## Runs of `World` -/

variable {panics : String × Resource Request Response → Bool} {s s' : MutexWorld Request Response}

/-- An action that keeps the run in the model moves its world by the action of `World` it amounts
to. -/
theorem world_act {action : Action Request Response} (acted : s.act panics action = some s') :
    s'.world = s.world.act (s.shadow action) := by
  cases action with
  | step index =>
      cases admitted : s.admission index <;>
        simp only [act, shadow, admitted, Option.some.injEq, reduceCtorEq] at acted ⊢ <;>
        rw [← acted]
  | _ =>
      simp only [act, Option.some.injEq] at acted
      rw [← acted]
      rfl

/-- A run that stays in the model takes its first action in the model. -/
theorem act_of_run_cons {action : Action Request Response} {actions : List (Action Request Response)}
    (ran : s.run panics (action :: actions) = some s') :
    ∃ next, s.act panics action = some next ∧ next.run panics actions = some s' :=
  Option.bind_eq_some.mp ran

/-- What every action that stays in the model keeps holds after every run that does. -/
theorem run_induction {P : MutexWorld Request Response → Prop} (holds : P s)
    (kept : ∀ {s s' : MutexWorld Request Response} {action : Action Request Response},
      P s → s.act panics action = some s' → P s')
    {actions : List (Action Request Response)} (ran : s.run panics actions = some s') : P s' := by
  induction actions generalizing s with
  | nil => exact Option.some.inj ran ▸ holds
  | cons action actions induction =>
      obtain ⟨next, acted, ran⟩ := act_of_run_cons ran
      exact induction (kept holds acted) ran

/-- A run without overlapping read-locked sections is the run of `World` it amounts to. -/
theorem world_run {actions : List (Action Request Response)} (ran : s.run panics actions = some s') :
    s'.world = s.world.run (s.shadows panics actions) := by
  induction actions generalizing s with
  | nil => rw [← Option.some.inj ran]; rfl
  | cons action actions induction =>
      obtain ⟨next, acted, ran⟩ := act_of_run_cons ran
      simp only [shadows, acted, World.run, ← world_act acted]
      exact induction ran

/-- Every action keeps the goroutine inside its read-locked section a `Fetch` before its `Get`. -/
theorem Inside.act (inside : s.Inside) {action : Action Request Response}
    (acted : s.act panics action = some s') : s'.Inside := by
  intro reader holds
  cases action with
  | step index =>
      cases admitted : s.admission index with
      | absent =>
          simp only [MutexWorld.act, admitted, Option.some.injEq] at acted
          subst acted
          simp only [World.act, absent_of_admission admitted]
          exact inside reader holds
      | rlock =>
          simp only [MutexWorld.act, admitted, Option.some.injEq] at acted
          subst acted
          obtain ⟨-, found⟩ := rlock_of_admission admitted
          cases holds
          simpa using found
      | overlap => simp [MutexWorld.act, admitted] at acted
      | blocked =>
          simp only [MutexWorld.act, admitted, Option.some.injEq] at acted
          subst acted
          simpa using inside reader holds
      | proceeds goroutine =>
          simp only [MutexWorld.act, admitted, Option.some.injEq] at acted
          subst acted
          by_cases leaving : s.reader = some index
          · simp [leaving] at holds
          · simp only [leaving, if_false] at holds
            have different : index ≠ reader := fun same => leaving (same ▸ holds)
            simpa [World.getElem?_goroutines_act_step_of_ne _ different] using inside reader holds
  | invoke op =>
      simp only [MutexWorld.act, Option.some.injEq] at acted
      subst acted
      obtain ⟨goroutine, found, lock⟩ := inside reader holds
      exact ⟨goroutine, by
        simp [World.act, List.getElem?_append_left (List.getElem?_eq_some.mp found).1, found], lock⟩
  | advance now =>
      simp only [MutexWorld.act, Option.some.injEq] at acted
      subst acted
      exact inside reader holds

theorem Inside.run (inside : s.Inside) {actions : List (Action Request Response)}
    (ran : s.run panics actions = some s') : s'.Inside :=
  run_induction inside (fun inside acted => inside.act acted) ran

theorem run_append (first second : List (Action Request Response)) :
    s.run panics (first ++ second) = (s.run panics first).bind fun s => s.run panics second := by
  induction first generalizing s with
  | nil => rfl
  | cons action first induction =>
      cases acted : s.act panics action <;> simp [run, acted, induction]

/-! ## Every pending call can finish -/

/-- Every goroutine has returned: none has a step left, and no panic of `onEvicted` stopped one. -/
def Complete (s : MutexWorld Request Response) : Prop := s.world.Complete ∧ s.stopped = []

end MutexWorld

end XdsRelay
