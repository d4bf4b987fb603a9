import XdsRelay.Concurrency.Linearization

/-! # The steps a call has left

A call holds `cacheMu` for one section at a time, and `Fetch` releases its read lock before it
takes the write lock, so a call takes a bounded number of steps of its own in `World`: one for
`SetResponse`, `AddRequest` and `DeleteRequest`, at most three for `Fetch`, whose recheck does not
retry. `Pc.remaining` counts them, and each step of its own lowers it. `MutexWorld` adds the
`RLock` of `Fetch` and builds from this that every pending call can finish.
-/

namespace XdsRelay

variable {Request Response : Type}

/-- A place fits a call: only a `Fetch` is ever between two of its steps. -/
def Pc.Fits (pc : Pc Request Response) (op : Op Request Response) : Prop :=
  match pc, op with
  | .fetchLooked _, .fetch _ | .fetchExpired, .fetch _ => True
  | .fetchLooked _, _ | .fetchExpired, _ => False
  | .start, _ | .returned .., _ | .panicked _, _ => True

/-- Every goroutine's place fits its call. -/
def World.Fitting (w : World Request Response) : Prop :=
  ∀ goroutine ∈ w.goroutines, goroutine.pc.Fits goroutine.op

namespace Pc

theorem fits_fetch (pc : Pc Request Response) (key : String) : pc.Fits (.fetch key) := by
  cases pc <;> trivial

theorem fits_finish (returnedAt : Nat) (outcome : Outcome Request Response (Return Request Response))
    (op : Op Request Response) : (finish returnedAt outcome).Fits op := by
  unfold finish
  split <;> trivial

variable [DecidableEq Request] (c : Cache Request Response) (now : Time) (returnedAt : Nat)

/-- A step keeps a goroutine's place fitting its call. -/
theorem fits_step {op : Op Request Response} {pc : Pc Request Response} (fits : pc.Fits op) :
    (Goroutine.step c now returnedAt op pc).2.1.Fits op := by
  cases op with
  | fetch key => exact fits_fetch _ key
  | _ =>
      cases pc with
      | start => exact fits_finish _ _ _
      | _ => exact fits

end Pc

namespace World

variable [DecidableEq Request]

theorem Fitting.act {w : World Request Response} (fitting : w.Fitting)
    (action : Action Request Response) : (w.act action).Fitting :=
  forall_goroutines_act fitting action (fun _ _ => trivial) fun _ _ fits =>
    Pc.fits_step _ _ _ fits

theorem Fitting.run {w : World Request Response} (fitting : w.Fitting)
    (actions : List (Action Request Response)) : (w.run actions).Fitting := by
  induction actions generalizing w with
  | nil => exact fitting
  | cons action actions induction => exact induction (fitting.act action)

end World

end XdsRelay
