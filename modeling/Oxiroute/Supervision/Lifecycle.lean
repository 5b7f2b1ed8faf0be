import Mathlib.Order.Basic

/-!
# The lifecycle of one supervised instance

Model of `oxiroute-supervision/src/lifecycle.rs`.
-/

namespace Oxiroute.Supervision

/-- The states of an instance. -/
inductive Lifecycle where
  | spawned
  | handshaking
  | preparing
  | ready
  | activating
  | active
  | quiescing
  | reactivating
  | draining
  | snapshotting
  | stopping
  | stopped
  | failed
  deriving DecidableEq

/-- A transition that is not allowed. -/
structure TransitionError where
  fromLifecycle : Lifecycle
  toLifecycle : Lifecycle
  deriving DecidableEq

namespace Lifecycle

/-- The table of transitions: an instance that has not ended can fail. -/
def canTransitionTo : Lifecycle → Lifecycle → Bool
  | .spawned, .handshaking => true
  | .handshaking, .preparing => true
  | .preparing, .ready => true
  | .ready, .activating => true
  | .activating, .active | .reactivating, .active => true
  | .active, .quiescing => true
  | .quiescing, .reactivating | .quiescing, .draining => true
  | .draining, .snapshotting => true
  | .snapshotting, .stopping | .failed, .stopping | .spawned, .stopping
  | .handshaking, .stopping | .preparing, .stopping | .ready, .stopping
  | .activating, .stopping | .active, .stopping | .quiescing, .stopping
  | .reactivating, .stopping => true
  | .stopping, .stopped => true
  | .spawned, .failed | .handshaking, .failed | .preparing, .failed
  | .ready, .failed | .activating, .failed | .active, .failed
  | .quiescing, .failed | .reactivating, .failed | .draining, .failed
  | .snapshotting, .failed | .stopping, .failed => true
  | _, _ => false

def transition (l next : Lifecycle) : Except TransitionError Lifecycle :=
  if l.canTransitionTo next then .ok next else .error ⟨l, next⟩

theorem transition_ok {l next : Lifecycle} (h : l.canTransitionTo next = true) :
    l.transition next = .ok next := by
  unfold transition
  rw [if_pos h]

/-- An instance serves after it was activated, again or for the first time. -/
theorem canTransitionTo_active {l : Lifecycle} :
    l.canTransitionTo .active = true ↔ l = .activating ∨ l = .reactivating := by
  cases l <;> simp [canTransitionTo]

end Lifecycle

end Oxiroute.Supervision
