import Oxiroute.Lib.Prog
import Oxiroute.Supervision.Identity
import Oxiroute.Supervision.Lifecycle

/-!
# The replacement supervisor

Model of `oxiroute-supervision/src/replacement.rs`: the pure state machine that replaces one active
service generation at a time. `apply` is a `Prog` over the supervisor, so an error keeps whatever
the event had changed before it was detected, as `&mut self` does.

`phase?` is `phase`; `none` stands for its two `unreachable!` branches.

`Step` lists, event by event, what an accepted event requires of the supervisor, the actions it
returns and the supervisor it leaves; `apply_cases` and `apply_of_step` say that `apply` accepts
exactly the steps. Every invariant below is read off `Step`.
-/

namespace Oxiroute.Supervision

open Lib Lib.Prog Lifecycle List

/-- `Instance`: identity and lifecycle of one managed service instance. -/
structure Instance where
  instanceId : InstanceId
  generationId : GenerationId
  lifecycle : Lifecycle
  deriving DecidableEq

def Instance.at (i : Instance) (l : Lifecycle) : Instance := { i with lifecycle := l }

variable {i : Instance} {l : Lifecycle}

@[simp] theorem Instance.at_instanceId : (i.at l).instanceId = i.instanceId := rfl

@[simp] theorem Instance.at_generationId : (i.at l).generationId = i.generationId := rfl

@[simp] theorem Instance.at_lifecycle : (i.at l).lifecycle = l := rfl

inductive ReplacementEvent where
  | begin (candidate : Instance)
  | candidateSpawned (instanceId : InstanceId)
  | candidateHandshakeComplete (instanceId : InstanceId)
  | candidatePrepared (instanceId : InstanceId)
  | candidateActivated (instanceId : InstanceId)
  | candidateFailed (instanceId : InstanceId)
  | candidateStopped (instanceId : InstanceId)
  | activeQuiesced (instanceId : InstanceId)
  | activeReactivated (instanceId : InstanceId)
  | retiredDrained (instanceId : InstanceId)
  | retiredSnapshotCaptured (instanceId : InstanceId)
  | retiredFailed (instanceId : InstanceId)
  | retiredStopped (instanceId : InstanceId)
  | terminationTimedOut (instanceId : InstanceId)
  deriving DecidableEq

inductive ReplacementPhase where
  | running
  | adoptingCandidate
  | quiescing
  | activatingCandidate
  | rollingBack
  | drainingRetired
  | stoppingRetired
  deriving DecidableEq

/-- `ReplacementAction`: a side effect requested of the caller. -/
inductive ReplacementAction where
  | spawn (instance' : Instance)
  | prepare (instanceId : InstanceId)
  | activate (instanceId : InstanceId)
  | quiesce (instanceId : InstanceId)
  | drain (instanceId : InstanceId)
  | snapshot (instanceId : InstanceId)
  | terminate (instanceId : InstanceId)
  | kill (instanceId : InstanceId)
  deriving DecidableEq

inductive ReplacementError where
  | replacementInProgress
  | missingRole (role : String)
  | unexpectedLifecycle (role : String) (expected actual : Lifecycle)
  | duplicateInstanceId
  | unexpectedInstanceId (role : String) (expected actual : InstanceId)
  | staleGeneration (active candidate : GenerationId)
  | notStopping (instanceId : InstanceId)
  | transition (error : TransitionError)
  deriving DecidableEq

structure ReplacementSupervisor where
  active : Instance
  candidate : Option Instance
  retired : Option Instance
  deriving DecidableEq

namespace ReplacementSupervisor

abbrev Method := Prog ReplacementSupervisor ReplacementError

def new (active : Instance) : Except ReplacementError ReplacementSupervisor :=
  if active.lifecycle ≠ .active then
    .error (.unexpectedLifecycle "active" .active active.lifecycle)
  else .ok ⟨active, none, none⟩

/-- `phase`, derived from role ownership and lifecycles; `none` is an `unreachable!` branch. -/
def phase? (s : ReplacementSupervisor) : Option ReplacementPhase :=
  match s.retired with
  | some retired =>
    match retired.lifecycle with
    | .draining | .snapshotting => some .drainingRetired
    | .stopping => some .stoppingRetired
    | _ => none
  | none =>
    match s.candidate with
    | some candidate =>
      match candidate.lifecycle with
      | .spawned | .handshaking | .preparing => some .adoptingCandidate
      | .ready => some .quiescing
      | .activating => some .activatingCandidate
      | .stopping => some .rollingBack
      | _ => none
    | none =>
      match s.active.lifecycle with
      | .reactivating => some .rollingBack
      | _ => some .running

/-! ## The methods `apply` is made of -/

def expectLifecycle (i : Instance) (role : String) (expected : Lifecycle) : Method Unit :=
  if i.lifecycle ≠ expected then throw (.unexpectedLifecycle role expected i.lifecycle)
  else pure ()

def expectInstanceId (i : Instance) (role : String) (actual : InstanceId) : Method Unit :=
  if i.instanceId ≠ actual then
    throw (.unexpectedInstanceId role i.instanceId actual)
  else pure ()

def candidateRole : Method Instance := do
  okOr (← get).candidate (.missingRole "candidate")

def retiredRole : Method Instance := do
  okOr (← get).retired (.missingRole "retired")

variable (actual : InstanceId)

def expectCandidateId : Method Unit := do
  expectInstanceId (← candidateRole) "candidate" actual

def expectActiveId : Method Unit := do
  expectInstanceId (← get).active "active" actual

def expectRetiredId : Method Unit := do
  expectInstanceId (← retiredRole) "retired" actual

/-- `Instance::transition` on an instance held elsewhere: the instance in its next lifecycle. -/
def transitioned (i : Instance) (next : Lifecycle) : Method Instance :=
  match i.lifecycle.transition next with
  | .ok l => pure (i.at l)
  | .error e => throw (.transition e)

/-- `Instance::transition` on the active instance. -/
def transitionActiveTo (next : Lifecycle) : Method Unit := do
  let active ← transitioned (← get).active next
  modify fun s => { s with active }

/-- `Instance::transition` on the candidate. -/
def transitionCandidateTo (next : Lifecycle) : Method Unit := do
  let candidate ← transitioned (← candidateRole) next
  modify fun s => { s with candidate := some candidate }

/-- `Instance::transition` on the retired instance. -/
def transitionRetiredTo (next : Lifecycle) : Method Unit := do
  let retired ← transitioned (← retiredRole) next
  modify fun s => { s with retired := some retired }

variable (expected : Lifecycle)

/-- `candidate_mut`: the candidate, which must be in lifecycle `expected`. -/
def candidateMut : Method Instance := do
  let candidate ← candidateRole
  expectLifecycle candidate "candidate" expected
  pure candidate

def retiredMut : Method Instance := do
  let retired ← retiredRole
  expectLifecycle retired "retired" expected
  pure retired

def transitionCandidate (next : Lifecycle) : Method InstanceId := do
  let candidate ← candidateMut expected
  transitionCandidateTo next
  pure candidate.instanceId

def transitionRetired (next : Lifecycle) : Method InstanceId := do
  let retired ← retiredMut expected
  transitionRetiredTo next
  pure retired.instanceId

def begin (candidate : Instance) : Method (List ReplacementAction) := do
  let s ← get
  if s.candidate.isSome || s.retired.isSome then throw .replacementInProgress
  else if s.active.lifecycle ≠ .active then throw .replacementInProgress
  else if candidate.lifecycle ≠ .spawned then
    throw (.unexpectedLifecycle "candidate" .spawned candidate.lifecycle)
  else if candidate.instanceId = s.active.instanceId then throw .duplicateInstanceId
  else if candidate.generationId ≤ s.active.generationId then
    throw (.staleGeneration s.active.generationId candidate.generationId)
  else
    modify fun s => { s with candidate := some candidate }
    pure [.spawn candidate]

/-- `activate_candidate`. The candidate is taken out of its slot first and put back on the
lifecycle error; the later `?` would leave it out. -/
def activateCandidate : Method (List ReplacementAction) := do
  let candidate ← candidateRole
  modify fun s => { s with candidate := none }
  if candidate.lifecycle ≠ .activating then
    modify fun s => { s with candidate := some candidate }
    throw (.unexpectedLifecycle "candidate" .activating candidate.lifecycle)
  else
    let candidate ← transitioned candidate .active
    let old := (← get).active
    modify fun s => { s with active := candidate }
    let retired ← transitioned old .draining
    modify fun s => { s with retired := some retired }
    pure [.drain retired.instanceId]

def failCandidate : Method (List ReplacementAction) := do
  let candidate ← candidateRole
  transitionCandidateTo .failed
  transitionCandidateTo .stopping
  let active := (← get).active
  if active.lifecycle = .quiescing then
    transitionActiveTo .reactivating
    pure [.activate active.instanceId, .terminate candidate.instanceId]
  else
    pure [.terminate candidate.instanceId]

def ensureStopping (instanceId : InstanceId) : Method Unit := do
  let s ← get
  if (s.candidate.toList ++ s.retired.toList).any fun i =>
      i.instanceId == instanceId && i.lifecycle == .stopping then pure ()
  else throw (.notStopping instanceId)

def apply : ReplacementEvent → Method (List ReplacementAction)
  | .begin candidate => begin candidate
  | .candidateSpawned instanceId => do
    expectCandidateId instanceId
    let _ ← transitionCandidate .spawned .handshaking
    pure []
  | .candidateHandshakeComplete instanceId => do
    expectCandidateId instanceId
    let instanceId ← transitionCandidate .handshaking .preparing
    pure [.prepare instanceId]
  | .candidatePrepared instanceId => do
    expectCandidateId instanceId
    let _ ← candidateMut .preparing
    transitionCandidateTo .ready
    transitionActiveTo .quiescing
    pure [.quiesce (← get).active.instanceId]
  | .candidateActivated instanceId => do
    expectCandidateId instanceId
    activateCandidate
  | .candidateFailed instanceId => do
    expectCandidateId instanceId
    failCandidate
  | .candidateStopped instanceId => do
    expectCandidateId instanceId
    let _ ← candidateMut .stopping
    transitionCandidateTo .stopped
    modify fun s => { s with candidate := none }
    pure []
  | .activeQuiesced instanceId => do
    expectActiveId instanceId
    expectLifecycle (← get).active "active" .quiescing
    let candidate ← candidateMut .ready
    transitionCandidateTo .activating
    pure [.activate candidate.instanceId]
  | .activeReactivated instanceId => do
    expectActiveId instanceId
    transitionActiveTo .active
    pure []
  | .retiredDrained instanceId => do
    expectRetiredId instanceId
    let retired ← retiredMut .draining
    transitionRetiredTo .snapshotting
    pure [.snapshot retired.instanceId]
  | .retiredSnapshotCaptured instanceId => do
    expectRetiredId instanceId
    let instanceId ← transitionRetired .snapshotting .stopping
    pure [.terminate instanceId]
  | .retiredFailed instanceId => do
    expectRetiredId instanceId
    transitionRetiredTo .failed
    transitionRetiredTo .stopping
    pure [.kill instanceId]
  | .retiredStopped instanceId => do
    expectRetiredId instanceId
    let _ ← retiredMut .stopping
    transitionRetiredTo .stopped
    modify fun s => { s with retired := none }
    pure []
  | .terminationTimedOut instanceId => do
    ensureStopping instanceId
    pure [.kill instanceId]

/-! ## What an accepted event does -/

/-- The steps of the supervisor: the event, the actions it returns and the supervisor after it. -/
inductive Step (s : ReplacementSupervisor) :
    ReplacementEvent → List ReplacementAction → ReplacementSupervisor → Prop
  | begin {c : Instance} (hc : s.candidate = none) (hr : s.retired = none)
      (ha : s.active.lifecycle = .active) (hl : c.lifecycle = .spawned)
      (hid : c.instanceId ≠ s.active.instanceId) (hg : s.active.generationId < c.generationId) :
      Step s (.begin c) [.spawn c] { s with candidate := some c }
  | candidateSpawned {c : Instance} (hc : s.candidate = some c) (hl : c.lifecycle = .spawned) :
      Step s (.candidateSpawned c.instanceId) [] { s with candidate := some (c.at .handshaking) }
  | candidateHandshakeComplete {c : Instance} (hc : s.candidate = some c)
      (hl : c.lifecycle = .handshaking) :
      Step s (.candidateHandshakeComplete c.instanceId) [.prepare c.instanceId]
        { s with candidate := some (c.at .preparing) }
  | candidatePrepared {c : Instance} (hc : s.candidate = some c) (hl : c.lifecycle = .preparing)
      (ha : s.active.lifecycle = .active) :
      Step s (.candidatePrepared c.instanceId) [.quiesce s.active.instanceId]
        { s with active := s.active.at .quiescing, candidate := some (c.at .ready) }
  | candidateActivated {c : Instance} (hc : s.candidate = some c) (hl : c.lifecycle = .activating)
      (ha : s.active.lifecycle = .quiescing) :
      Step s (.candidateActivated c.instanceId) [.drain s.active.instanceId]
        ⟨c.at .active, none, some (s.active.at .draining)⟩
  | candidateFailed {c : Instance} (hc : s.candidate = some c)
      (hl : c.lifecycle.canTransitionTo .failed = true) (ha : s.active.lifecycle ≠ .quiescing) :
      Step s (.candidateFailed c.instanceId) [.terminate c.instanceId]
        { s with candidate := some (c.at .stopping) }
  | candidateFailedReactivating {c : Instance} (hc : s.candidate = some c)
      (hl : c.lifecycle.canTransitionTo .failed = true) (ha : s.active.lifecycle = .quiescing) :
      Step s (.candidateFailed c.instanceId)
        [.activate s.active.instanceId, .terminate c.instanceId]
        { s with active := s.active.at .reactivating, candidate := some (c.at .stopping) }
  | candidateStopped {c : Instance} (hc : s.candidate = some c) (hl : c.lifecycle = .stopping) :
      Step s (.candidateStopped c.instanceId) [] { s with candidate := none }
  | activeQuiesced {c : Instance} (hc : s.candidate = some c) (hl : c.lifecycle = .ready)
      (ha : s.active.lifecycle = .quiescing) :
      Step s (.activeQuiesced s.active.instanceId) [.activate c.instanceId]
        { s with candidate := some (c.at .activating) }
  | activeReactivated (ha : s.active.lifecycle.canTransitionTo .active = true) :
      Step s (.activeReactivated s.active.instanceId) [] { s with active := s.active.at .active }
  | retiredDrained {r : Instance} (hr : s.retired = some r) (hl : r.lifecycle = .draining) :
      Step s (.retiredDrained r.instanceId) [.snapshot r.instanceId]
        { s with retired := some (r.at .snapshotting) }
  | retiredSnapshotCaptured {r : Instance} (hr : s.retired = some r)
      (hl : r.lifecycle = .snapshotting) :
      Step s (.retiredSnapshotCaptured r.instanceId) [.terminate r.instanceId]
        { s with retired := some (r.at .stopping) }
  | retiredFailed {r : Instance} (hr : s.retired = some r)
      (hl : r.lifecycle.canTransitionTo .failed = true) :
      Step s (.retiredFailed r.instanceId) [.kill r.instanceId]
        { s with retired := some (r.at .stopping) }
  | retiredStopped {r : Instance} (hr : s.retired = some r) (hl : r.lifecycle = .stopping) :
      Step s (.retiredStopped r.instanceId) [] { s with retired := none }
  | terminationTimedOut {i : Instance} (hi : s.candidate = some i ∨ s.retired = some i)
      (hl : i.lifecycle = .stopping) :
      Step s (.terminationTimedOut i.instanceId) [.kill i.instanceId] s

variable {s s' : ReplacementSupervisor}

section run

variable {c r i : Instance} {l : Lifecycle}

theorem candidateRole_run (h : s.candidate = some c) : candidateRole s = (.ok c, s) := by
  simp [candidateRole, bind_run, h]

theorem retiredRole_run (h : s.retired = some r) : retiredRole s = (.ok r, s) := by
  simp [retiredRole, bind_run, h]

theorem expectLifecycle_run {role : String} (h : i.lifecycle = l) :
    expectLifecycle i role l s = (.ok (), s) := by
  simp [expectLifecycle, h]

theorem expectCandidateId_run (h : s.candidate = some c) :
    expectCandidateId c.instanceId s = (.ok (), s) := by
  simp [expectCandidateId, bind_run, candidateRole_run h, expectInstanceId]

theorem expectRetiredId_run (h : s.retired = some r) :
    expectRetiredId r.instanceId s = (.ok (), s) := by
  simp [expectRetiredId, bind_run, retiredRole_run h, expectInstanceId]

theorem expectActiveId_run : expectActiveId s.active.instanceId s = (.ok (), s) := by
  simp [expectActiveId, bind_run, expectInstanceId]

theorem candidateMut_run (h : s.candidate = some c) (hl : c.lifecycle = l) :
    candidateMut l s = (.ok c, s) := by
  simp [candidateMut, bind_run, candidateRole_run h, expectLifecycle_run hl]

theorem retiredMut_run (h : s.retired = some r) (hl : r.lifecycle = l) :
    retiredMut l s = (.ok r, s) := by
  simp [retiredMut, bind_run, retiredRole_run h, expectLifecycle_run hl]

theorem transitioned_run (h : i.lifecycle.canTransitionTo l = true) :
    transitioned i l s = (.ok (i.at l), s) := by
  simp [transitioned, Lifecycle.transition_ok h]

theorem transitionActiveTo_run (h : s.active.lifecycle.canTransitionTo l = true) :
    transitionActiveTo l s = (.ok (), { s with active := s.active.at l }) := by
  simp [transitionActiveTo, bind_run, transitioned_run h]

theorem transitionCandidateTo_run (h : s.candidate = some c)
    (ht : c.lifecycle.canTransitionTo l = true) :
    transitionCandidateTo l s = (.ok (), { s with candidate := some (c.at l) }) := by
  simp [transitionCandidateTo, bind_run, candidateRole_run h, transitioned_run ht]

theorem transitionRetiredTo_run (h : s.retired = some r)
    (ht : r.lifecycle.canTransitionTo l = true) :
    transitionRetiredTo l s = (.ok (), { s with retired := some (r.at l) }) := by
  simp [transitionRetiredTo, bind_run, retiredRole_run h, transitioned_run ht]

theorem failed_candidate_stops :
    transitionCandidateTo .stopping { s with candidate := some (c.at .failed) } =
      (.ok (), { s with candidate := some (c.at .stopping) }) :=
  transitionCandidateTo_run (c := c.at .failed) rfl rfl

theorem failed_retired_stops :
    transitionRetiredTo .stopping { s with retired := some (r.at .failed) } =
      (.ok (), { s with retired := some (r.at .stopping) }) :=
  transitionRetiredTo_run (r := r.at .failed) rfl rfl

end run

variable {e : ReplacementEvent}

theorem apply_of_step {acts : List ReplacementAction} (h : Step s e acts s') :
    apply e s = (.ok acts, s') := by
  cases h with
  | begin hc hr ha hl hid hg =>
    have hgen := UInt64.not_le.mpr hg
    simp [apply, begin, bind_run, hc, hr, ha, hl, hid, hgen]
  | candidateSpawned hc hl | candidateHandshakeComplete hc hl =>
    simp [apply, transitionCandidate, bind_run, expectCandidateId_run hc,
      candidateMut_run hc hl, transitionCandidateTo_run hc, hl, canTransitionTo]
  | candidatePrepared hc hl ha =>
    simp [apply, bind_run, expectCandidateId_run hc, candidateMut_run hc hl,
      transitionCandidateTo_run hc, transitionActiveTo_run, hl, ha, canTransitionTo]
  | candidateActivated hc hl ha =>
    simp [apply, activateCandidate, bind_run, expectCandidateId_run hc, candidateRole_run hc,
      transitioned_run, hl, ha, canTransitionTo]
  | @candidateFailed c hc hl ha =>
    simp [apply, failCandidate, bind_run, expectCandidateId_run hc, candidateRole_run hc,
      transitionCandidateTo_run hc hl, failed_candidate_stops, ha]
  | @candidateFailedReactivating c hc hl ha =>
    simp [apply, failCandidate, bind_run, expectCandidateId_run hc, candidateRole_run hc,
      transitionCandidateTo_run hc hl, failed_candidate_stops, transitionActiveTo_run, ha,
        canTransitionTo]
  | candidateStopped hc hl =>
    simp [apply, bind_run, expectCandidateId_run hc, candidateMut_run hc hl,
      transitionCandidateTo_run hc, hl, canTransitionTo]
  | activeQuiesced hc hl ha =>
    simp [apply, bind_run, expectActiveId_run, expectLifecycle_run ha, candidateMut_run hc hl,
      transitionCandidateTo_run hc, hl, canTransitionTo]
  | activeReactivated ha =>
    simp [apply, bind_run, expectActiveId_run, transitionActiveTo_run ha]
  | retiredDrained hr hl | retiredStopped hr hl =>
    simp [apply, bind_run, expectRetiredId_run hr, retiredMut_run hr hl,
      transitionRetiredTo_run hr, hl, canTransitionTo]
  | retiredSnapshotCaptured hr hl =>
    simp [apply, transitionRetired, bind_run, expectRetiredId_run hr, retiredMut_run hr hl,
      transitionRetiredTo_run hr, hl, canTransitionTo]
  | retiredFailed hr hl =>
    simp [apply, bind_run, expectRetiredId_run hr, transitionRetiredTo_run hr hl,
      failed_retired_stops]
  | @terminationTimedOut i hi hl =>
    have hany : (s.candidate.toList ++ s.retired.toList).any (fun j =>
        j.instanceId == i.instanceId && j.lifecycle == .stopping) = true := by
      simp only [any_eq_true]
      exact ⟨i, by simpa using hi, by simp [hl]⟩
    simp only [apply, ensureStopping, bind_run, get_run, hany, if_true, pure_run]

/-! ## The invariant of the three roles -/

/-- The active lifecycles that can stand beside a candidate in lifecycle `l`. -/
def Beside : Lifecycle → Lifecycle → Prop
  | .spawned, a | .handshaking, a | .preparing, a => a = .active
  | .ready, a | .activating, a => a = .quiescing
  | .stopping, a => a = .active ∨ a = .reactivating
  | _, _ => False

/-- What holds of every supervisor `new` and `apply` can produce. -/
structure WellFormed (s : ReplacementSupervisor) : Prop where
  /-- One replacement at a time: a candidate is only prepared when nothing is retiring. -/
  exclusive : s.candidate = none ∨ s.retired = none
  beside : ∀ c ∈ s.candidate, Beside c.lifecycle s.active.lifecycle
  /-- The active instance is quiesced only for a candidate. -/
  alone : s.candidate = none → s.active.lifecycle = .active ∨ s.active.lifecycle = .reactivating
  retired_lifecycle : ∀ r ∈ s.retired, r.lifecycle ∈ [draining, .snapshotting, .stopping]
  retired_beside : ∀ r ∈ s.retired, s.active.lifecycle = .active
  candidate_id : ∀ c ∈ s.candidate, c.instanceId ≠ s.active.instanceId
  retired_id : ∀ r ∈ s.retired, r.instanceId ≠ s.active.instanceId
  candidate_generation : ∀ c ∈ s.candidate, s.active.generationId < c.generationId
  retired_generation : ∀ r ∈ s.retired, r.generationId < s.active.generationId

theorem wellFormed_new {active : Instance} (h : new active = .ok s) : WellFormed s := by
  unfold new at h
  split at h
  · cases h
  · rename_i hl
    cases h
    have hl : active.lifecycle = .active := by simpa using hl
    constructor <;> simp [hl]

namespace WellFormed

variable {c r : Instance} {l a : Lifecycle}

variable (hw : WellFormed s)
include hw

theorem retired_none (hc : s.candidate = some c) : s.retired = none := by
  rcases hw.exclusive with h | h
  · rw [h] at hc
    cases hc
  · exact h

theorem candidate_none (hr : s.retired = some r) : s.candidate = none := by
  rcases hw.exclusive with h | h
  · exact h
  · rw [h] at hr
    cases hr

/-- The candidate and the active instance move together to compatible lifecycles. -/
theorem move_candidate (hc : s.candidate = some c) (hb : Beside l a) :
    WellFormed { s with active := s.active.at a, candidate := some (c.at l) } :=
  { hw with
    exclusive := .inr (hw.retired_none hc)
    beside := by rintro _ ⟨⟩; exact hb
    alone := fun h => absurd h (by simp)
    retired_beside := fun r hr => absurd ((hw.retired_none hc).symm.trans hr) (by simp)
    candidate_id := by rintro _ ⟨⟩; exact hw.candidate_id c hc
    candidate_generation := by rintro _ ⟨⟩; exact hw.candidate_generation c hc }

theorem move_candidate_only (hc : s.candidate = some c) (hb : Beside l s.active.lifecycle) :
    WellFormed { s with candidate := some (c.at l) } :=
  hw.move_candidate hc hb

theorem move_retired (hr : s.retired = some r) (hl : l ∈ [draining, .snapshotting, .stopping]) :
    WellFormed { s with retired := some (r.at l) } :=
  { hw with
    exclusive := .inl (hw.candidate_none hr)
    retired_lifecycle := by rintro _ ⟨⟩; exact hl
    retired_beside := fun _ _ => hw.retired_beside r hr
    retired_id := by rintro _ ⟨⟩; exact hw.retired_id r hr
    retired_generation := by rintro _ ⟨⟩; exact hw.retired_generation r hr }

theorem commit (hc : s.candidate = some c) :
    WellFormed ⟨c.at .active, none, some (s.active.at .draining)⟩ where
  exclusive := .inl rfl
  beside := by simp
  alone _ := .inl rfl
  retired_lifecycle := by simp
  retired_beside := by simp
  candidate_id := by simp
  retired_id := by
    rintro _ ⟨⟩
    exact (hw.candidate_id c hc).symm
  candidate_generation := by simp
  retired_generation := by
    rintro _ ⟨⟩
    exact hw.candidate_generation c hc

theorem begin (hr : s.retired = none) (ha : s.active.lifecycle = .active)
    (hl : c.lifecycle = .spawned) (hid : c.instanceId ≠ s.active.instanceId)
    (hg : s.active.generationId < c.generationId) : WellFormed { s with candidate := some c } :=
  { hw with
    exclusive := .inr hr
    beside := by
      rintro _ ⟨⟩
      rw [hl, ha]
      rfl
    alone := fun h => absurd h (by simp)
    candidate_id := by rintro _ ⟨⟩; exact hid
    candidate_generation := by rintro _ ⟨⟩; exact hg }

theorem drop_candidate (hc : s.candidate = some c) (hl : c.lifecycle = .stopping) :
    WellFormed { s with candidate := none } :=
  { hw with
    exclusive := .inl rfl
    beside := by simp
    alone := fun _ => by
      have hb := hw.beside c hc
      rw [hl] at hb
      exact hb
    candidate_id := by simp
    candidate_generation := by simp }

theorem drop_retired : WellFormed { s with retired := none } :=
  { hw with
    exclusive := .inr rfl
    retired_lifecycle := by simp
    retired_beside := by simp
    retired_id := by simp
    retired_generation := by simp }

/-- A reactivated instance is active again beside whatever is being torn down. -/
theorem reactivated (ha : s.active.lifecycle.canTransitionTo .active = true) :
    WellFormed { s with active := s.active.at .active } :=
  { hw with
    beside := fun c hc => by
      have hb := hw.beside c hc
      revert hb
      -- of the compatible pairs only a reactivating instance beside a stopping one may move
      rcases Lifecycle.canTransitionTo_active.mp ha with h | h <;> rw [h]
      all_goals cases c.lifecycle <;> simp [Beside]
    alone := fun _ => .inl rfl
    retired_beside := fun _ _ => rfl }

/-- **Every step keeps the invariant.** -/
theorem step {acts : List ReplacementAction} (h : Step s e acts s') : WellFormed s' := by
  cases h with
  | begin hc hr ha hl hid hg => exact hw.begin hr ha hl hid hg
  | candidateSpawned hc hl | candidateHandshakeComplete hc hl =>
    have hb := hw.beside _ hc
    rw [hl] at hb
    exact hw.move_candidate_only hc hb
  | candidatePrepared hc hl ha => exact hw.move_candidate hc rfl
  | candidateActivated hc hl ha => exact hw.commit hc
  | @candidateFailed c hc hl ha =>
    have hb := hw.beside _ hc
    refine hw.move_candidate_only hc ?_
    revert hb
    cases c.lifecycle <;> simp +contextual [Beside, ha]
  | candidateFailedReactivating hc hl ha => exact hw.move_candidate hc (.inr rfl)
  | candidateStopped hc hl => exact hw.drop_candidate hc hl
  | activeQuiesced hc hl ha => exact hw.move_candidate_only hc ha
  | activeReactivated ha => exact hw.reactivated ha
  | retiredDrained hr hl | retiredSnapshotCaptured hr hl | retiredFailed hr hl =>
    exact hw.move_retired hr (by simp)
  | retiredStopped hr hl => exact hw.drop_retired
  | terminationTimedOut hi hl => exact hw

/-- The `unreachable!` branches of `phase` are not reached. -/
theorem phase?_isSome : s.phase?.isSome := by
  unfold phase?
  cases hr : s.retired with
  | some r =>
    have hl := hw.retired_lifecycle r hr
    simp only [mem_cons, not_mem_nil, or_false] at hl
    rcases hl with hl | hl | hl <;> simp [hl]
  | none =>
    cases hc : s.candidate with
    | some c =>
      have hb := hw.beside c hc
      revert hb
      cases hl : c.lifecycle <;> simp [Beside, hl]
    | none => cases hl : s.active.lifecycle <;> simp

end WellFormed

/-! ## Rejected events -/

section reject

variable {c r : Instance} {α : Type} {P : Prop} {l : Lifecycle} {x : Method α}
  {f : Instance → Method α}

/-- The check of an id in a role that may be empty. -/
theorem expectRoleId_or {held : ReplacementSupervisor → Option Instance} {role : String}
    {id : InstanceId} (h : ∀ i, held s = some i → i.instanceId = id → P ∨ x.Rejects s) :
    P ∨ (((get >>= fun s => okOr (held s) (.missingRole role)) >>=
      fun i => expectInstanceId i role id) >>= fun _ => x).Rejects s := by
  cases hi : held s with
  | none => exact .inr (.bind ⟨_, by simp [bind_run, hi]; rfl⟩)
  | some i =>
    by_cases hid : i.instanceId = id
    · exact (h i hi hid).imp_right (.after (by simp [bind_run, hi, expectInstanceId, hid]; rfl))
    · exact .inr (.bind ⟨_, by simp [bind_run, hi, expectInstanceId, hid]; rfl⟩)

theorem expectActiveId_or {id : InstanceId} (h : s.active.instanceId = id → P ∨ x.Rejects s) :
    P ∨ (expectActiveId id >>= fun _ => x).Rejects s := by
  by_cases hid : s.active.instanceId = id
  · subst hid
    exact (h rfl).imp_right (.after expectActiveId_run)
  · exact .inr (.bind ⟨_, by simp [expectActiveId, bind_run, expectInstanceId, hid]; rfl⟩)

theorem expectLifecycle_cases (s : ReplacementSupervisor) (i : Instance) (role : String)
    (l : Lifecycle) : i.lifecycle = l ∨ (expectLifecycle i role l).Rejects s := by
  by_cases hl : i.lifecycle = l
  · exact .inl hl
  · exact .inr ⟨_, by simp [expectLifecycle, hl]; rfl⟩

theorem candidateMut_or (hc : s.candidate = some c) (h : c.lifecycle = l → P) :
    P ∨ (candidateMut l >>= f).Rejects s :=
  (expectLifecycle_cases s c "candidate" l).imp h fun hr =>
    .bind (.after (candidateRole_run hc) hr.bind)

theorem retiredMut_or (hr : s.retired = some r) (h : r.lifecycle = l → P) :
    P ∨ (retiredMut l >>= f).Rejects s :=
  (expectLifecycle_cases s r "retired" l).imp h fun hj =>
    .bind (.after (retiredRole_run hr) hj.bind)

theorem begin_cases (s : ReplacementSupervisor) (c : Instance) :
    (∃ acts s', Step s (.begin c) acts s') ∨ (begin c).Rejects s := by
  refine guard_cases fun hp => guard_cases fun ha => guard_cases fun hl =>
    guard_cases fun hid => guard_cases fun hg => .inl ?_
  have hnone : s.candidate = none ∧ s.retired = none := by simpa using hp
  exact ⟨_, _, .begin hnone.1 hnone.2 (Decidable.not_not.mp ha) (Decidable.not_not.mp hl) hid
    (UInt64.not_le.mp hg)⟩

end reject

/-- **An event is a step or is rejected with the supervisor unchanged**: on a well-formed supervisor
the transitions that follow the checks cannot fail. -/
theorem apply_cases (hw : WellFormed s) : (∃ acts s', Step s e acts s') ∨ (apply e).Rejects s := by
  cases e with
  | begin c => exact begin_cases s c
  | candidateSpawned id =>
    refine expectRoleId_or ?_
    rintro c hc rfl
    exact (candidateMut_or hc fun hl => ⟨_, _, .candidateSpawned hc hl⟩).imp_right (·.bind)
  | candidateHandshakeComplete id =>
    refine expectRoleId_or ?_
    rintro c hc rfl
    exact (candidateMut_or hc fun hl =>
      ⟨_, _, .candidateHandshakeComplete hc hl⟩).imp_right (·.bind)
  | candidatePrepared id =>
    refine expectRoleId_or ?_
    rintro c hc rfl
    refine candidateMut_or hc fun hl => ?_
    have hb := hw.beside c hc
    rw [hl] at hb
    exact ⟨_, _, .candidatePrepared hc hl hb⟩
  | candidateActivated id =>
    refine expectRoleId_or ?_
    rintro c hc rfl
    by_cases hl : c.lifecycle = .activating
    · have hb := hw.beside c hc
      rw [hl] at hb
      exact .inl ⟨_, _, .candidateActivated hc hl hb⟩
    · refine .inr ⟨.unexpectedLifecycle "candidate" .activating c.lifecycle, ?_⟩
      -- the candidate taken out of its slot is put back before the error is returned
      simp [activateCandidate, bind_run, candidateRole_run hc, hl, ← hc]
  | candidateFailed id =>
    refine expectRoleId_or ?_
    rintro c hc rfl
    have hl : c.lifecycle.canTransitionTo .failed = true := by
      have hb := hw.beside c hc
      revert hb
      cases c.lifecycle <;> simp [Beside, canTransitionTo]
    by_cases ha : s.active.lifecycle = .quiescing
    · exact .inl ⟨_, _, .candidateFailedReactivating hc hl ha⟩
    · exact .inl ⟨_, _, .candidateFailed hc hl ha⟩
  | candidateStopped id =>
    refine expectRoleId_or ?_
    rintro c hc rfl
    exact candidateMut_or hc fun hl => ⟨_, _, .candidateStopped hc hl⟩
  | activeQuiesced id =>
    refine expectActiveId_or ?_
    rintro rfl
    refine Or.imp_right (.after (get_run s)) ?_
    rcases expectLifecycle_cases s s.active "active" .quiescing with ha | h
    · have hsome : s.candidate ≠ none := fun hn => by
        rcases hw.alone hn with h | h <;> rw [h] at ha <;> cases ha
      obtain ⟨c, hc⟩ := Option.ne_none_iff_exists'.mp hsome
      exact (candidateMut_or hc fun hl => ⟨_, _, .activeQuiesced hc hl ha⟩).imp_right
        (.after (expectLifecycle_run ha))
    · exact .inr h.bind
  | activeReactivated id =>
    refine expectActiveId_or ?_
    rintro rfl
    by_cases ht : s.active.lifecycle.canTransitionTo .active = true
    · exact .inl ⟨_, _, .activeReactivated ht⟩
    · exact .inr (.bind ⟨_, by
        simp [transitionActiveTo, bind_run, transitioned, Lifecycle.transition, ht]; rfl⟩)
  | retiredDrained id =>
    refine expectRoleId_or ?_
    rintro r hr rfl
    exact retiredMut_or hr fun hl => ⟨_, _, .retiredDrained hr hl⟩
  | retiredSnapshotCaptured id =>
    refine expectRoleId_or ?_
    rintro r hr rfl
    exact (retiredMut_or hr fun hl => ⟨_, _, .retiredSnapshotCaptured hr hl⟩).imp_right (·.bind)
  | retiredFailed id =>
    refine expectRoleId_or ?_
    rintro r hr rfl
    refine .inl ⟨_, _, .retiredFailed hr ?_⟩
    have hl := hw.retired_lifecycle r hr
    simp only [mem_cons, not_mem_nil, or_false] at hl
    rcases hl with hl | hl | hl <;> rw [hl] <;> rfl
  | retiredStopped id =>
    refine expectRoleId_or ?_
    rintro r hr rfl
    exact retiredMut_or hr fun hl => ⟨_, _, .retiredStopped hr hl⟩
  | terminationTimedOut id =>
    by_cases hany : (s.candidate.toList ++ s.retired.toList).any (fun i =>
        i.instanceId == id && i.lifecycle == .stopping) = true
    · simp only [any_eq_true, mem_append, Option.mem_toList, Bool.and_eq_true,
        beq_iff_eq] at hany
      obtain ⟨i, hi, rfl, hl⟩ := hany
      exact .inl ⟨_, _, .terminationTimedOut hi hl⟩
    · exact .inr ⟨_, by
        simp only [apply, ensureStopping, bind_run, get_run, hany]; rfl⟩

theorem WellFormed.apply (hw : WellFormed s) : WellFormed (ReplacementSupervisor.apply e s).2 := by
  rcases apply_cases hw with ⟨acts, s', hstep⟩ | ⟨err, herr⟩
  · rw [apply_of_step hstep]
    exact hw.step hstep
  · rw [herr]
    exact hw

/-! ## Runs -/

/-- The supervisor after a sequence of events, accepted or rejected. -/
def afterEvents (s : ReplacementSupervisor) (events : List ReplacementEvent) :
    ReplacementSupervisor :=
  events.foldl (fun s e => (apply e s).2) s

theorem WellFormed.afterEvents (events : List ReplacementEvent) :
    ∀ {s : ReplacementSupervisor}, WellFormed s → WellFormed (s.afterEvents events) := by
  induction events with
  | nil => exact fun hw => hw
  | cons e es ih => exact fun hw => ih hw.apply

/-- The instances of the three roles. -/
def instances (s : ReplacementSupervisor) : List Instance :=
  s.active :: (s.candidate.toList ++ s.retired.toList)

theorem WellFormed.instanceIds_nodup (hw : WellFormed s) :
    (s.instances.map (·.instanceId)).Nodup := by
  unfold instances
  rcases hw.exclusive with h | h
  · rw [h]
    cases hr : s.retired with
    | none => simp
    | some r => simpa using (hw.retired_id r hr).symm
  · rw [h]
    cases hc : s.candidate with
    | none => simp
    | some c => simpa using (hw.candidate_id c hc).symm

theorem WellFormed.quiescing_iff (hw : WellFormed s) : s.active.lifecycle = .quiescing ↔
      ∃ c ∈ s.candidate, c.lifecycle = .ready ∨ c.lifecycle = .activating := by
  cases hc : s.candidate with
  | none => rcases hw.alone hc with h | h <;> simp [h]
  | some c =>
    have hb := hw.beside c hc
    simp only [Option.mem_def, Option.some.injEq, exists_eq_left']
    revert hb
    cases hl : c.lifecycle <;> simp +contextual [Beside, or_imp]

theorem WellFormed.active_lifecycle (hw : WellFormed s) :
    s.active.lifecycle ∈ [Lifecycle.active, .quiescing, .reactivating] := by
  cases hc : s.candidate with
  | none => rcases hw.alone hc with h | h <;> simp [h]
  | some c =>
    have hb := hw.beside c hc
    revert hb
    cases c.lifecycle <;> simp +contextual [Beside, or_imp]

theorem WellFormed.candidate_lifecycle (hw : WellFormed s) : ∀ c ∈ s.candidate, c.lifecycle ∈
    [spawned, .handshaking, .preparing, .ready, .activating, .stopping] := by
  intro c hc
  have hb := hw.beside c hc
  revert hb
  cases c.lifecycle <;> simp [Beside]

/-- **Every run of the supervisor keeps its three roles consistent**, whatever the events and
whether or not they are accepted. -/
theorem afterEvents_roles {active : Instance} {s₀ : ReplacementSupervisor}
    (h : new active = .ok s₀) (events : List ReplacementEvent) : let s := s₀.afterEvents events
    (s.candidate = none ∨ s.retired = none) ∧ (∀ c ∈ s.candidate, c.lifecycle ∈
      [spawned, .handshaking, .preparing, .ready, .activating, .stopping]) ∧
    (∀ r ∈ s.retired, r.lifecycle ∈ [draining, .snapshotting, .stopping]) ∧
    s.active.lifecycle ∈ [Lifecycle.active, .quiescing, .reactivating] ∧
    (s.active.lifecycle = .quiescing ↔
      ∃ c ∈ s.candidate, c.lifecycle = .ready ∨ c.lifecycle = .activating) ∧
    (s.instances.map (·.instanceId)).Nodup ∧
    (∀ c ∈ s.candidate, s.active.generationId < c.generationId) ∧
    (∀ r ∈ s.retired, r.generationId < s.active.generationId) ∧ s.phase?.isSome := by
  have hw := (wellFormed_new h).afterEvents events
  exact ⟨hw.exclusive, hw.candidate_lifecycle, hw.retired_lifecycle, hw.active_lifecycle,
    hw.quiescing_iff, hw.instanceIds_nodup, hw.candidate_generation, hw.retired_generation,
    hw.phase?_isSome⟩

/-- A first generation, serving. -/
def servingInstance : Instance := ⟨⟨"service-1", by decide⟩, 1, .active⟩

/-- The generation that replaces it. -/
def nextInstance : Instance := ⟨⟨"service-2", by decide⟩, 2, .spawned⟩

/-- A replacement carried up to the commit: the roles are as stated on the way. -/
theorem afterEvents_roles_commit : new servingInstance = .ok ⟨servingInstance, none, none⟩ ∧
    let s := (⟨servingInstance, none, none⟩ : ReplacementSupervisor).afterEvents
      [.begin nextInstance, .candidateSpawned nextInstance.instanceId,
        .candidateHandshakeComplete nextInstance.instanceId,
        .candidatePrepared nextInstance.instanceId, .activeQuiesced servingInstance.instanceId,
        .candidateActivated nextInstance.instanceId]
    s.active = nextInstance.at .active ∧
    s.retired = some (servingInstance.at .draining) ∧
    (s.candidate = none ∨ s.retired = none) ∧ s.phase?.isSome := by
  have h : new servingInstance = .ok ⟨servingInstance, none, none⟩ := rfl
  have hr := afterEvents_roles h [.begin nextInstance, .candidateSpawned nextInstance.instanceId,
      .candidateHandshakeComplete nextInstance.instanceId,
      .candidatePrepared nextInstance.instanceId, .activeQuiesced servingInstance.instanceId,
      .candidateActivated nextInstance.instanceId]
  exact ⟨h, by decide, by decide, hr.1, hr.2.2.2.2.2.2.2.2⟩

/-- **A rejected event changes nothing**, in every state a supervisor reaches: an event that takes
two transitions never stops between them. -/
theorem apply_error_unchanged {active : Instance} {s₀ : ReplacementSupervisor}
    (h : new active = .ok s₀) (events : List ReplacementEvent) (e : ReplacementEvent)
    {err : ReplacementError} (herr : (apply e (s₀.afterEvents events)).1 = .error err) :
    (apply e (s₀.afterEvents events)).2 = s₀.afterEvents events := by
  rcases apply_cases ((wellFormed_new h).afterEvents events) with ⟨acts, s', hstep⟩ | ⟨err', hrej⟩
  · rw [apply_of_step hstep] at herr
    cases herr
  · rw [hrej]

/-- A candidate reported active too early is taken out of its slot and put back. -/
theorem apply_error_unchanged_early :
    let s := (⟨servingInstance, none, none⟩ : ReplacementSupervisor).afterEvents
      [.begin nextInstance]
    (apply (.candidateActivated nextInstance.instanceId) s).1 =
      .error (.unexpectedLifecycle "candidate" .activating .spawned) ∧
    (apply (.candidateActivated nextInstance.instanceId) s).2 = s := by
  have h : new servingInstance = .ok ⟨servingInstance, none, none⟩ := rfl
  have herr : (apply (.candidateActivated nextInstance.instanceId)
      (afterEvents ⟨servingInstance, none, none⟩ [.begin nextInstance])).1 =
      .error (.unexpectedLifecycle "candidate" .activating .spawned) := rfl
  exact ⟨herr, apply_error_unchanged h _ _ herr⟩

end ReplacementSupervisor

end Oxiroute.Supervision
