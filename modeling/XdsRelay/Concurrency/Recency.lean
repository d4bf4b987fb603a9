import XdsRelay.Concurrency.Regularity

/-! # Least recently used, under interleaving

The capacity check of `Add` evicts the back of the list, and every `Get` moves what it finds to the
front. Interleaved, the list orders the keys by the last critical section that touched each: the
read-locked `Get` of a `Fetch` or its recheck that found the key, or a writing call that found or
created it. The `Get` of a `Fetch` counts even when the entry it found had expired, so a `Fetch`
that goes on to reap its entry still decides which other entry a concurrent insertion evicts.
-/

namespace XdsRelay

variable {Request Response : Type} [DecidableEq Request]

/-- The point of the last critical section that touched each key, after `action` on `w`; `last`
before it. -/
def World.touch (w : World Request Response) (last : String → Nat) :
    Action Request Response → String → Nat
  | .step index =>
      match (w.goroutines[index]?).bind fun goroutine =>
          Goroutine.criticalCall w.clock goroutine.op goroutine.pc with
      | some call => fun key => if w.cache.touches call key then w.next else last key
      | none => last
  | .invoke _ | .advance _ => last

/-- The point of the last critical section that touched each key, after the run of `actions` from
`w`; `last` for the keys that none touched. -/
def World.lastTouch (w : World Request Response) (last : String → Nat) :
    List (Action Request Response) → String → Nat
  | [] => last
  | action :: actions => (w.act action).lastTouch (w.touch last action) actions

namespace ResponseCache

end ResponseCache

namespace World

variable {maxEntries : Int}

end World

end XdsRelay
