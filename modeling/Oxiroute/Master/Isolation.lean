import Oxiroute.Master.Rounds
import Oxiroute.Master.Runs

/-!
# The serving worker is isolated

Two properties of whole runs of the master, from its launch through any calls, on a system that
carries out kills.

* `poll_errors`: a poll fails only when a process cannot be observed. It needs that no observation
  is handled that strands the master, and `poll_strands` shows a run in which one is.
* `afterCalls_spared`: no behaviour of the candidate or the retired worker fails the master or kills
  the active worker. It needs that the candidate sends no malformed frame once it has been killed,
  and `afterCalls_malformed` shows a run in which it does.
-/

set_option maxRecDepth 100000

namespace Oxiroute.Master

open Lib Prog Supervision

variable {E : Type} [Runtime E]

/-! ## Conditions on calls -/

section conditions

variable {s s' : Master E} {now : Instant}

/-- No observation the call handles strands the master. -/
def Call.Bears (s : Master E) : Call E → Prop
  | .poll now arrivals =>
    match gather now arrivals s with
    | (.ok observed, s₁) => Along Master.Bears now s₁ observed
    | (.error _, _) => True
  | _ => True

/-- No call of a run strands the master. -/
def BearsAll : Master E → List (Call E) → Prop
  | _, [] => True
  | s, call :: calls => call.Bears s ∧ BearsAll (perform call s).2 calls

/-- The call does the active worker no harm: the worker misses no deadline, what it reports is calm,
no request to it fails, and the candidate sends no malformed frame once it has been killed. -/
def Call.Spares (s : Master E) : Call E → Prop
  | .replace factory candidate now => ¬ (perform (.replace factory candidate now) s).2.Blamed
  | .poll now arrivals =>
    s.missedDeadline now .active = none ∧ ¬ (gather now arrivals s).2.Blamed ∧
      match gather now arrivals s with
      | (.ok observed, s₁) => Along (Master.Spares now) now s₁ observed
      | (.error _, _) => True
  | .shutdown _ => False
  | .adjustExecutor _ => True

/-- No call of a run does the active worker harm. -/
def SparesAll : Master E → List (Call E) → Prop
  | _, [] => True
  | s, call :: calls => call.Spares s ∧ SparesAll (perform call s).2 calls

/-! The conditions can be evaluated. -/

omit [Runtime E] in
instance (s : Master E) (role : WorkerRole) : Decidable (s.Stranded role) :=
  inferInstanceAs (Decidable (_ ∧ _ ∧ _ ∧ _))

instance (s : Master E) (role : WorkerRole) : (observation : Observation) →
    Decidable (s.Strands role observation)
  | .exit _ => inferInstanceAs (Decidable (s.Stranded role))
  | .ack _ | .status _ | .disconnected | .protocolFailure => inferInstanceAs (Decidable False)

instance (s : Master E) (item : Observed) : Decidable (s.Bears item) :=
  inferInstanceAs (Decidable (∀ role ∈ s.roleFor item.instanceId, ¬ _))

instance decidableAlong (P : Master E → Observed → Prop) [∀ s item, Decidable (P s item)]
    (now : Instant) : (s : Master E) → (items : List Observed) → Decidable (Along P now s items)
  | _, [] => inferInstanceAs (Decidable True)
  | s, item :: items =>
    have := decidableAlong P now (handleObserved now item s).2 items
    inferInstanceAs (Decidable (P s item ∧ Along P now (handleObserved now item s).2 items))

instance (s : Master E) : (call : Call E) → Decidable (call.Bears s)
  | .poll now arrivals =>
    match hr : gather now arrivals s with
    | (.ok observed, s₁) => decidable_of_iff (Along Master.Bears now s₁ observed)
        (by simp only [Call.Bears, hr])
    | (.error _, _) => .isTrue (by simp only [Call.Bears, hr])
  | .replace _ _ _ | .shutdown _ | .adjustExecutor _ => inferInstanceAs (Decidable True)

instance decidableBearsAll : (s : Master E) → (calls : List (Call E)) → Decidable (BearsAll s calls)
  | _, [] => inferInstanceAs (Decidable True)
  | s, call :: calls =>
    have := decidableBearsAll (perform call s).2 calls
    inferInstanceAs (Decidable (call.Bears s ∧ BearsAll (perform call s).2 calls))

instance (s : Master E) : (role : WorkerRole) → (observation : Observation) →
    Decidable (s.Calm role observation)
  | .active, .ack ack => inferInstanceAs (Decidable
      ((∃ w ∈ s.worker .active, ∃ p ∈ w.pending, p.requestId = ack.requestId ∧
        p.phase = ack.phase) →
        ack.outcome = .accepted))
  | .active, .status _ => inferInstanceAs (Decidable True)
  | .active, .exit _ | .active, .disconnected | .active, .protocolFailure =>
    inferInstanceAs (Decidable False)
  | .candidate, .protocolFailure =>
    inferInstanceAs (Decidable (∀ w ∈ s.candidate, w.state = .running))
  | .candidate, .ack _ | .candidate, .status _ | .candidate, .exit _ | .candidate, .disconnected
  | .retired, .ack _ | .retired, .status _ | .retired, .exit _ | .retired, .disconnected
  | .retired, .protocolFailure => inferInstanceAs (Decidable True)

instance (s : Master E) : Decidable s.Blamed :=
  inferInstanceAs (Decidable (∃ event ∈ s.events, event.issueFailed .active = true))

instance (now : Instant) (s : Master E) (item : Observed) : Decidable (Spares now s item) :=
  inferInstanceAs (Decidable ((∀ role ∈ s.roleFor item.instanceId, _) ∧ ¬ _))

instance (s : Master E) : (call : Call E) → Decidable (call.Spares s)
  | .poll now arrivals =>
    match hr : gather now arrivals s with
    | (.ok observed, s₁) => decidable_of_iff (s.missedDeadline now .active = none ∧ ¬ s₁.Blamed ∧
        Along (Master.Spares now) now s₁ observed) (by simp only [Call.Spares, hr])
    | (.error _, s₁) => decidable_of_iff (s.missedDeadline now .active = none ∧ ¬ s₁.Blamed)
        (by simp [Call.Spares, hr])
  | .replace factory candidate now =>
    inferInstanceAs (Decidable (¬ (perform (.replace factory candidate now) s).2.Blamed))
  | .shutdown _ => inferInstanceAs (Decidable False)
  | .adjustExecutor _ => inferInstanceAs (Decidable True)

instance decidableSparesAll : (s : Master E) → (calls : List (Call E)) →
    Decidable (SparesAll s calls)
  | _, [] => inferInstanceAs (Decidable True)
  | s, call :: calls =>
    have := decidableSparesAll (perform call s).2 calls
    inferInstanceAs (Decidable (call.Spares s ∧ SparesAll (perform call s).2 calls))

variable {arrivals : WorkerRole → Arrival} {call : Call E} {calls : List (Call E)}

theorem pollBody_survives (hkill : KillsSucceed E) (h : s.Tight)
    (hbears : (Call.poll now arrivals).Bears s) :
    wp (pollBody now arrivals) (Survived Tight) s := by
  refine wp_bind_at (gather_survives hkill h) (fun observed s₁ hr h₁ => ?_)
    fun _ _ h₁ => h₁.forget fun hp => hp.tight
  simp only [Call.Bears, hr] at hbears
  have hbatch : Prog.Ends (forEach observed (handleObserved now) >>= fun _ =>
      finishTerminalStates) s₁ fun _ s' => s'.Tight :=
    (forEach_handled hkill h₁.1.tight hbears).bind fun _ s₂ h₂ =>
      (finishTerminalStates_ends h₂).mono fun _ _ h₃ => h₃.1
  exact hbatch.wp fun _ _ h₃ => .ok h₃

theorem pollBody_spared (hkill : KillsSucceed E) (h : s.Tight) (hserving : s.Serving)
    (hspares : (Call.poll now arrivals).Spares s) :
    wp (pollBody now arrivals) (fun _ s' => s'.Tight ∧ s'.Serving) s := by
  obtain ⟨hmissed, hblamed, hitems⟩ := hspares
  have hgather : wp (gather now arrivals) _ s := gather_survives hkill h
  have hserving₁ : (gather now arrivals s).2.Serving :=
    (hgather.1.serving hmissed hserving).resolve_right hblamed
  refine wp_bind_at (R := fun _ s₁ => s₁.Tight ∧ s₁.Serving) ⟨hgather.1.tight, hserving₁⟩
    (fun observed s₁ hr h₁ => ?_) fun _ _ h₁ => h₁
  rw [hr] at hitems
  have hbatch : Prog.Ends (forEach observed (handleObserved now) >>= fun _ =>
      finishTerminalStates) s₁ fun _ s' => s'.Tight ∧ s'.Serving :=
    (forEach_spared hkill h₁.1 h₁.2 hitems).bind fun _ s₂ h₂ =>
      (finishTerminalStates_ends h₂.1).mono fun _ s₃ h₃ => ⟨h₃.1, h₃.2 h₂.2⟩
  exact hbatch.wp fun _ _ h₃ => h₃

variable {Q : Master E → Prop}

theorem poll_state (hQ : ∀ s : Master E, Q s → Q { s with events := [] })
    (h : Q (pollBody now arrivals s).2) : Q (poll now arrivals s).2 := by
  rw [poll_run]
  rcases hr : pollBody now arrivals s with ⟨e | a, s'⟩ <;> rw [hr] at h
  · exact h
  · exact hQ s' h

omit [Runtime E] in
theorem Tight.drained (h : s.Tight) : { s with events := [] }.Tight :=
  h.congr rfl rfl rfl fun role => by cases role <;> rfl

omit [Runtime E] in
theorem silent_state {α : Type} {x : Method E α} (h : wp x (fun _ s' => Q s') s) :
    Q ((x >>= fun _ => pure [] : Method E (List MasterEvent)) s).2 :=
  wp_bind (Q := fun _ s' => Q s') h (fun _ _ hq => hq) fun _ _ hq => hq

theorem perform_tight (hkill : KillsSucceed E) (h : s.Tight) (hbears : call.Bears s) :
    (perform call s).2.Tight := by
  cases call with
  | replace factory candidate now =>
    exact silent_state (wp_mono (replace_post hkill h) fun _ _ hp => hp.tight)
  | poll now arrivals =>
      exact poll_state (fun _ => Tight.drained) (pollBody_survives hkill h hbears).1
  | shutdown now => exact silent_state (shutdown_tight hkill h)
  | adjustExecutor executor => exact h.congr rfl rfl rfl fun role => by cases role <;> rfl

theorem perform_spared (hkill : KillsSucceed E) (h : s.Tight) (hserving : s.Serving)
    (hspares : call.Spares s) : (perform call s).2.Tight ∧ (perform call s).2.Serving := by
  cases call with
  | replace factory candidate now =>
    have hpost : Post True s (perform (.replace factory candidate now) s).2 :=
      silent_state (replace_post hkill h)
    exact ⟨hpost.tight, (hpost.serving trivial hserving).resolve_right hspares⟩
  | poll now arrivals =>
    exact poll_state (Q := fun s' => s'.Tight ∧ s'.Serving)
      (fun _ hs => ⟨hs.1.drained, hs.2.stage, hs.2.deferred⟩)
      (pollBody_spared hkill h hserving hspares)
  | shutdown now => exact hspares.elim
  | adjustExecutor executor =>
    exact ⟨h.congr rfl rfl rfl fun role => by cases role <;> rfl, hserving.stage, hserving.deferred⟩

theorem afterCalls_tight (hkill : KillsSucceed E) (h : s.Tight) (hbears : BearsAll s calls) :
    (afterCalls s calls).Tight := by
  induction calls generalizing s with
  | nil => exact h
  | cons call calls ih => exact ih (perform_tight hkill h hbears.1) hbears.2

theorem BearsAll.append (h : BearsAll s (calls ++ [call])) :
    BearsAll s calls ∧ call.Bears (afterCalls s calls) := by
  induction calls generalizing s with
  | nil => exact ⟨trivial, h.1⟩
  | cons first calls ih =>
    obtain ⟨hcalls, hcall⟩ := ih h.2
    exact ⟨⟨h.1, hcalls⟩, hcall⟩

theorem afterCalls_serving (hkill : KillsSucceed E) (h : s.Tight) (hserving : s.Serving)
    (hspares : SparesAll s calls) : (afterCalls s calls).Tight ∧ (afterCalls s calls).Serving := by
  induction calls generalizing s with
  | nil => exact ⟨h, hserving⟩
  | cons call calls ih =>
    obtain ⟨htight, hserves⟩ := perform_spared hkill h hserving hspares.1
    exact ih htight hserves hspares.2

end conditions

/-! ## Polls do not fail on the inside -/

section scenario

theorem killsSucceed_obliging : KillsSucceed Obliging := fun _ _ => rfl

/-- A frame of a type that does not exist. -/
def malformed : Arrival := ⟨.ok none, .ok (some ⟨0, 1, [], 0⟩)⟩

/-- The candidate adopts the listeners and is being activated. -/
def activating : List (Call Obliging) :=
  replacing ++ [.poll 0 (only .candidate (answered 3 .adoptListeners .accepted)),
      .poll 0 (only .active (answered 4 .quiesce .accepted))]

/-- The candidate refuses the listeners and is killed. -/
def refusing : List (Call Obliging) :=
  replacing ++ [.poll 0 (only .candidate (answered 3 .adoptListeners (.rejected 1)))]

end scenario

/-- **No poll fails on the inside.** If no candidate exits while it is activated and the exit of the
active worker has been deferred, a poll returns no other error than one of the system. -/
theorem poll_errors (hkill : KillsSucceed E) {config : MasterConfig}
    {listeners : Unix.DescriptorManifest} {executor : E} {factory : Except String UInt32}
    {active : WorkerInput} {now₀ now : Instant} {launched : Master E}
    (hlaunch : launch config listeners executor factory active now₀ = .ok launched)
    {calls : List (Call E)} {arrivals : WorkerRole → Arrival}
    (hbears : BearsAll launched (calls ++ [.poll now arrivals])) {error : MasterError}
    (herror : (poll now arrivals (afterCalls launched calls)).1 = .error error) :
    ∃ source, error = .io source := by
  obtain ⟨hcalls, hpoll⟩ := BearsAll.append hbears
  have htight := afterCalls_tight hkill (launch_post hkill hlaunch).1 hcalls
  have hbody := (pollBody_survives hkill htight hpoll).2
  rw [poll_run] at herror
  rcases hr : pollBody now arrivals (afterCalls launched calls) with ⟨e | a, s'⟩ <;>
    rw [hr] at hbody herror
  · exact hbody error (congrArg _ (Except.error.inj herror))
  · cases herror

/-- The active worker exits while the candidate is being activated, and the candidate's process can
not be observed after that. -/
theorem poll_errors_deferred : (poll 0 (only .candidate ⟨.error 3, .ok none⟩)
      (afterCalls steadyMaster (activating ++ [.poll 0 (only .active exited)]))).1 =
        .error (.io 3) ∧ ∃ source, MasterError.io 3 = .io source := by
  have herror : (poll 0 (only .candidate ⟨.error 3, .ok none⟩)
      (afterCalls steadyMaster (activating ++ [.poll 0 (only .active exited)]))).1 =
        .error (.io 3) := by decide +kernel
  exact ⟨herror, poll_errors killsSucceed_obliging launch_steady (by decide +kernel) herror⟩

/-- The candidate exits after the active worker, whose exit has been deferred. -/
theorem poll_strands : KillsSucceed Obliging ∧
    launch steadyConfig emptyManifest (⟨⟩ : Obliging) (.ok 10) firstWorker 0 = .ok steadyMaster ∧
    (poll 0 (only .candidate exited)
      (afterCalls steadyMaster (activating ++ [.poll 0 (only .active exited)]))).1 =
        .error (.replacement (.unexpectedLifecycle "candidate" .stopping .activating)) :=
  ⟨killsSucceed_obliging, launch_steady, by decide +kernel⟩

/-! ## Nobody else's failure is the active worker's -/

section isolation

omit [Runtime E] in
theorem Tight.spared {s : Master E} (h : s.Tight) (hserves : s.stage.serves = true) :
    ∀ w, s.active = some w → w.process.killRequested = false := by
  intro w hw
  have hw : s.worker .active = some w := hw
  unfold Tight at h
  cases hst : s.stage <;> rw [hst] at h hserves
  case bootAdopting => exact (h.worker hw).2.1.spared
  case bootActivating => exact (h.worker hw).2.1.spared
  case operational =>
    obtain ⟨sup, h⟩ := h
    have hstands : w.Sound := (h.settled .active w hw List.not_mem_nil).stands
    exact hstands.spared
  all_goals exact Bool.noConfusion hserves

end isolation

/-- **Isolation of the serving worker.** In every run whose calls spare the active worker, the
master neither fails nor asks for it to be killed, whatever the candidate and the retired worker do.
-/
theorem afterCalls_spared (hkill : KillsSucceed E) {config : MasterConfig}
    {listeners : Unix.DescriptorManifest} {executor : E} {factory : Except String UInt32}
    {active : WorkerInput} {now : Instant} {launched : Master E}
    (hlaunch : launch config listeners executor factory active now = .ok launched)
    (hsent : ¬ launched.Blamed) {calls : List (Call E)} (hspares : SparesAll launched calls) :
    (afterCalls launched calls).stage.serves = true ∧
      ∀ w, (afterCalls launched calls).active = some w → w.process.killRequested = false := by
  obtain ⟨htight, hserving⟩ := launch_post hkill hlaunch
  obtain ⟨htight', hserving'⟩ :=
    afterCalls_serving hkill htight (hserving.resolve_right hsent) hspares
  exact ⟨hserving'.stage, htight'.spared hserving'.stage⟩

/-- The candidate refuses the listeners, is killed and exits; the active worker serves on. -/
theorem afterCalls_spared_refusing :
    (afterCalls steadyMaster (refusing ++ [.poll 0 (only .candidate exited)])).stage.serves = true ∧
      ∀ w, (afterCalls steadyMaster (refusing ++ [.poll 0 (only .candidate exited)])).active =
        some w → w.process.killRequested = false :=
  afterCalls_spared killsSucceed_obliging launch_steady (by decide +kernel) (by decide +kernel)

/-- The candidate has been killed for its refusal, and a malformed frame of it is still read: the
master fails and kills the active worker, which has done nothing. -/
theorem afterCalls_malformed : KillsSucceed Obliging ∧
    launch steadyConfig emptyManifest (⟨⟩ : Obliging) (.ok 10) firstWorker 0 = .ok steadyMaster ∧
    SparesAll steadyMaster refusing ∧
    (afterCalls steadyMaster (refusing ++ [.poll 0 (only .candidate malformed)])).stage =
      .failing .protocol ∧
    (afterCalls steadyMaster (refusing ++ [.poll 0 (only .candidate malformed)])).active.any
      (·.process.killRequested) = true :=
  ⟨killsSucceed_obliging, launch_steady, by decide +kernel, by decide +kernel, by decide +kernel⟩

end Oxiroute.Master
