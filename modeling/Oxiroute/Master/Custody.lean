import Mathlib.Logic.Function.Basic
import Mathlib.Logic.Relation
import Oxiroute.Master.State

/-!
# Custody: which worker process is whose

What the master is for, without its requests and deadlines: it holds worker processes in three
slots, follows the roles of the replacement supervisor while it operates, and lets a process go
only once that process has been seen to exit. A process that is let go leaves its counters behind.

`Custody` is the state of that abstract machine and `Custody.Step` its moves.

* `Inv.steps`: along every run the slots hold exactly the instances of the supervisor's roles.
* `owned_steps`: along every run a held process stays held, in some slot, until its exit is known.
* `reading_steps`: along every run no cumulative counter goes down, as long as no status names a
  listener twice.

Two parameters say what a run may rely on: `accepted`, which statuses are taken in, and `known`,
the exits known before the run began.
-/

namespace Oxiroute.Master

open Lib (maxUInt64)
open Supervision (InstanceId)

/-- What stays of a worker while it is held: its identity, its process and its last status. -/
structure Badge where
  instanceId : InstanceId
  processId : UInt32
  status : Option WorkerStatus

/-- How far the master is: before the first activation, following the roles `ids` of a
supervisor, or on its way down. -/
inductive Mode where
  | booting
  | operating (ids : WorkerRole → Option InstanceId)
  | closing

/-- The abstract state. -/
@[ext]
structure Custody where
  mode : Mode
  slots : WorkerRole → Option Badge
  /-- The active worker's exit has been seen, and is not acted on yet. -/
  deferred : Bool
  /-- The instances whose exit is reported in the event queue. -/
  reported : InstanceId → Prop
  baseline : SupervisorSnapshotHistory

namespace Custody

/-- The instance held in a slot. -/
def ids (c : Custody) (role : WorkerRole) : Option InstanceId :=
  (c.slots role).map (·.instanceId)

/-- The worker in `role` is let go: its last status joins the baseline. -/
def take (c : Custody) (role : WorkerRole) : Custody :=
  { c with
    slots := Function.update c.slots role none
    baseline := c.baseline.reap ((c.slots role).bind (·.status)) }

/-- A candidate that becomes active, the active instance retiring. -/
def promoted {α : Type} (slots : WorkerRole → Option α) : WorkerRole → Option α
  | .active => slots .candidate
  | .candidate => none
  | .retired => slots .active

/-- The status kept after `status` arrived. -/
def retained (previous : Option WorkerStatus) (status : WorkerStatus) : WorkerStatus :=
  previous.elim status fun previous => retainMonotonicStatus previous status

/-- The roles of a supervisor that has just been made. -/
def sole (active : InstanceId) : WorkerRole → Option InstanceId
  | .active => some active
  | _ => none

variable (accepted : WorkerStatus → Prop) (known : InstanceId → Prop)

/-- The exit of this instance is known. -/
def Gone (c : Custody) (instanceId : InstanceId) : Prop :=
  known instanceId ∨ c.reported instanceId

/-- The moves of the abstract machine. -/
inductive Step (c : Custody) : Custody → Prop
  /-- Events are queued. -/
  | report {reported : InstanceId → Prop} (h : ∀ id, c.reported id → reported id) :
      Step c { c with reported := reported }
  /-- The master fails closed or shuts down. -/
  | close : Step c { c with mode := .closing }
  /-- The first worker is activated. -/
  | operate {b : Badge} (hm : c.mode = .booting) (hb : c.slots .active = some b) :
      Step c { c with mode := .operating (sole b.instanceId) }
  /-- The active worker's exit is kept for later. -/
  | defer (h : ∀ id, c.ids .active = some id → c.Gone known id) : Step c { c with deferred := true }
  | undefer : Step c { c with deferred := false }
  /-- On its way down the master lets go of a worker that has exited. -/
  | forget {role : WorkerRole} (hm : c.mode = .closing)
      (h : ∀ id, c.ids role = some id → c.Gone known id) : Step c (c.take role)
  /-- A replacement begins. -/
  | spawn {ids : WorkerRole → Option InstanceId} {b : Badge} (hm : c.mode = .operating ids)
      (hc : ids .candidate = none) (hb : b.status = none) : Step c { c with
        mode := .operating (Function.update ids .candidate (some b.instanceId))
        slots := Function.update c.slots .candidate (some b) }
  /-- The candidate becomes active. -/
  | commit {ids : WorkerRole → Option InstanceId} (hm : c.mode = .operating ids)
      (hc : (ids .candidate).isSome = true) (hr : ids .retired = none) : Step c { c with
        mode := .operating (promoted ids)
        slots := promoted c.slots
        deferred := false }
  /-- A candidate or retired worker that has exited leaves its role. -/
  | release {role : WorkerRole} {ids : WorkerRole → Option InstanceId} (hrole : role ≠ .active)
      (hm : c.mode = .operating ids) (h : ∀ id, c.ids role = some id → c.Gone known id) :
      Step c { c.take role with mode := .operating (Function.update ids role none) }
  /-- A worker reports a status. -/
  | status {role : WorkerRole} {b : Badge} {status : WorkerStatus}
      {baseline : SupervisorSnapshotHistory} (hb : c.slots role = some b)
      (hs : accepted status) (hm : baseline.metrics = c.baseline.metrics)
      (hl : baseline.listeners = c.baseline.listeners) : Step c { c with
        slots := Function.update c.slots role
          (some { b with status := some (retained b.status status) })
        baseline := baseline }

/-- A run of the abstract machine. -/
abbrev Steps : Custody → Custody → Prop := Relation.ReflTransGen (Step accepted known)

/-- The slots follow the roles. -/
def Follows (c : Custody) : Prop :=
  match c.mode with
  | .booting => (c.ids .active).isSome = true ∧ c.ids .candidate = none ∧ c.ids .retired = none
  | .operating ids => (ids .active).isSome = true ∧ c.ids = ids
  | .closing => True

/-- What holds in every state of a run. -/
structure Inv (c : Custody) : Prop where
  follows : c.Follows
  deferred : c.deferred = true → ∀ id, c.ids .active = some id → c.Gone known id

variable {accepted known} {c c' : Custody} {role : WorkerRole}

theorem ids_take : (c.take role).ids = Function.update c.ids role none := by
  funext role'
  by_cases hr : role' = role
  · subst hr
    simp [ids, take]
  · simp [ids, take, Function.update_of_ne hr]

variable {b : Badge} {slots : WorkerRole → Option Badge} {roles : WorkerRole → Option InstanceId}
  {o : Option Badge}

theorem ids_update : (fun role' => (Function.update slots role (some b) role').map (·.instanceId)) =
      Function.update (fun role' => (slots role').map (·.instanceId)) role (some b.instanceId) := by
  funext role'
  by_cases hr : role' = role
  · subst hr
    simp
  · simp [Function.update_of_ne hr]

theorem Follows.congr (h : c.Follows) (hm : c'.mode = c.mode) (hi : c'.ids = c.ids) :
    c'.Follows := by
  unfold Follows at h ⊢
  rwa [hm, hi]

theorem Inv.ids_eq (h : Inv known c) (hm : c.mode = .operating roles) :
    (roles .active).isSome = true ∧ c.ids = roles := by
  have hf := h.follows
  rwa [Follows, hm] at hf

theorem Inv.slot_none (h : Inv known c) (hm : c.mode = .operating roles) (hr : roles role = none) :
    c.slots role = none := by
  have := congrFun (h.ids_eq hm).2 role
  rw [hr] at this
  exact Option.map_eq_none_iff.mp this

theorem Inv.step (h : Inv known c) (hs : Step accepted known c c') : Inv known c' := by
  cases hs with
  | report hsub => exact ⟨h.follows, fun hd id hid => (h.deferred hd id hid).imp_right (hsub id)⟩
  | close => exact ⟨trivial, h.deferred⟩
  | @operate b hm hb =>
    have hf := h.follows
    rw [Follows, hm] at hf
    refine ⟨⟨rfl, funext fun role => ?_⟩, h.deferred⟩
    cases role with
    | active => simp [ids, hb, sole]
    | candidate => exact hf.2.1
    | retired => exact hf.2.2
  | defer hgone => exact ⟨h.follows, fun _ => hgone⟩
  | undefer => exact ⟨h.follows, fun hd => absurd hd Bool.false_ne_true⟩
  | @forget role hm hgone =>
    refine ⟨by rw [Follows, take, hm]; trivial, fun hd id hid => h.deferred hd id ?_⟩
    rw [ids_take] at hid
    by_cases hr : WorkerRole.active = role
    · subst hr
      simp at hid
    · rwa [Function.update_of_ne hr] at hid
  | @spawn roles b hm hc hnew =>
    obtain ⟨ha, hids⟩ := h.ids_eq hm
    refine ⟨⟨by simpa using ha, ids_update.trans ?_⟩, fun hd id hid => h.deferred hd id ?_⟩
    · exact congrArg (Function.update · _ _) hids
    · simpa [ids] using hid
  | @commit roles hm hc hr =>
    obtain ⟨-, hids⟩ := h.ids_eq hm
    refine ⟨⟨hc, funext fun role => ?_⟩, fun hd => absurd hd Bool.false_ne_true⟩
    cases role with
    | active => exact congrFun hids .candidate
    | candidate => rfl
    | retired => exact congrFun hids .active
  | @release role roles hrole hm hgone =>
    obtain ⟨ha, hids⟩ := h.ids_eq hm
    refine ⟨⟨?_, ?_⟩, fun hd id hid => h.deferred hd id ?_⟩
    · rwa [Function.update_of_ne (Ne.symm hrole)]
    · exact ids_take.trans (by rw [hids])
    · have hid' : (c.take role).ids .active = some id := hid
      rwa [ids_take, Function.update_of_ne (Ne.symm hrole)] at hid'
  | @status role b st baseline hb hs hmetrics hlisteners =>
    -- a status changes neither the identities nor what is reported
    have hids : (fun role' => (Function.update c.slots role
        (some { b with status := some (retained b.status st) }) role').map (·.instanceId)) =
        c.ids := by
      rw [ids_update]
      exact Function.update_eq_iff.mpr ⟨by simp [ids, hb], fun _ _ => rfl⟩
    refine ⟨?_, fun hd id hid => h.deferred hd id ?_⟩
    · exact h.follows.congr rfl hids
    · exact (congrFun hids .active).symm.trans hid

theorem Inv.steps (h : Inv known c) (hs : Steps accepted known c c') : Inv known c' := by
  induction hs with
  | refl => exact h
  | tail _ hstep ih => exact ih.step hstep

/-- Closing is final, and no slot gets an instance that it did not hold. -/
theorem closing_steps (hs : Steps accepted known c c') (hm : c.mode = .closing) :
    c'.mode = .closing ∧ ∀ role id, c'.ids role = some id → c.ids role = some id := by
  induction hs with
  | refl => exact ⟨hm, fun _ _ => id⟩
  | tail _ hstep ih =>
    obtain ⟨hm, hids⟩ := ih
    cases hstep with
    | report | defer | undefer => exact ⟨hm, hids⟩
    | close => exact ⟨rfl, hids⟩
    | operate hmode | spawn hmode | commit hmode | release _ hmode => cases hm.symm.trans hmode
    | forget | status =>
      -- a slot is emptied, or its instance sends a status
      refine ⟨hm, fun role id h => hids role id ?_⟩
      simp only [ids, take, Function.update_apply] at h ⊢
      grind

/-! ## Nothing is dropped -/

/-- The process `b` is held in some slot. -/
def Held (c : Custody) (b : Badge) : Prop :=
  ∃ role b', c.slots role = some b' ∧ b'.instanceId = b.instanceId ∧ b'.processId = b.processId

theorem Held.slot (hb : c.slots role = some b) : c.Held b := ⟨role, b, hb, rfl, rfl⟩

theorem Held.update {role' : WorkerRole} (hs : c'.slots = Function.update slots role o)
    (hb : slots role' = some b) (hne : role' ≠ role) : c'.Held b :=
  ⟨role', b, by rw [hs, Function.update_of_ne hne, hb], rfl, rfl⟩

theorem Gone.step {id : InstanceId} (h : c.Gone known id) (hs : Step accepted known c c') :
    c'.Gone known id := by
  cases hs with
  | report hsub => exact h.imp_right (hsub id)
  | _ => exact h

/-- One move: a held process stays held, or its exit is known. -/
theorem owned_step (h : Inv known c) (hs : Step accepted known c c') (hb : c.slots role = some b) :
    c'.Held b ∨ c'.Gone known b.instanceId := by
  have hid : c.ids role = some b.instanceId := by simp [ids, hb]
  cases hs with
  | report _ | close | operate _ _ | defer _ | undefer => exact .inl (.slot hb)
  | @forget role' hm hgone =>
    by_cases hr : role = role'
    · exact .inr (hgone _ (hr ▸ hid))
    · exact .inl (.update rfl hb hr)
  | @spawn roles b' hm hc hnew =>
    -- the candidate slot is free when a replacement begins
    refine .inl (.update rfl hb ?_)
    rintro rfl
    rw [(h.ids_eq hm).2, hc] at hid
    cases hid
  | @commit roles hm hc hr =>
    cases role with
    | active => exact .inl ⟨.retired, b, hb, rfl, rfl⟩
    | candidate => exact .inl ⟨.active, b, hb, rfl, rfl⟩
    | retired =>
      rw [(h.ids_eq hm).2, hr] at hid
      cases hid
  | @release role' roles hrole hm hgone =>
    by_cases hr : role = role'
    · exact .inr (hgone _ (hr ▸ hid))
    · exact .inl (.update rfl hb hr)
  | @status role' b' st baseline hb' _ _ _ =>
    by_cases hr : role = role'
    · subst hr
      cases hb.symm.trans hb'
      exact .inl ⟨role, { b with status := some (retained b.status st) }, by simp, rfl, rfl⟩
    · exact .inl (.update rfl hb hr)

/-- **No process is dropped**: along a run, a held process stays held until its exit is known. -/
theorem owned_steps (h : Inv known c) (hs : Steps accepted known c c')
    (hb : c.slots role = some b) :
    c'.Held b ∨ c'.Gone known b.instanceId := by
  induction hs with
  | refl => exact .inl (.slot hb)
  | @tail c₁ c₂ hpre hstep ih =>
    rcases ih with ⟨role₁, b₁, hb₁, hid, hp⟩ | hgone
    · rcases owned_step (h.steps hpre) hstep hb₁ with ⟨role₂, b₂, hb₂, hid₂, hp₂⟩ | hgone
      · exact .inl ⟨role₂, b₂, hb₂, hid₂.trans hid, hp₂.trans hp⟩
      · exact .inr (hid ▸ hgone)
    · exact .inr (hgone.step hstep)

/-! ## Nothing is uncounted -/

/-- The statuses the counters rely on: no listener is named twice. -/
def NamesOnce (status : WorkerStatus) : Prop := (listenerKeys status.listeners).Nodup

/-- A cumulative quantity: what the baseline holds of it and what one live status adds, capped at
`u64::MAX`. Reaping a worker moves its share to the baseline, and retention keeps it. -/
structure Meter where
  base : SupervisorSnapshotHistory → ℕ
  share : WorkerStatus → ℕ
  base_le : ∀ h, base h ≤ maxUInt64
  base_reap : ∀ h status, base (h.reap (some status)) = min maxUInt64 (base h + share status)
  base_congr : ∀ h h', h'.metrics = h.metrics → h'.listeners = h.listeners → base h' = base h
  share_retain : ∀ previous status, NamesOnce previous →
    share previous ≤ share (retainMonotonicStatus previous status)

namespace Meter

variable (m : Meter)

def slot (slot : Option Badge) : ℕ := (slot.bind (·.status)).elim 0 m.share

def reading (c : Custody) : ℕ :=
  min maxUInt64 (m.base c.baseline +
    (m.slot (c.slots .active) + m.slot (c.slots .candidate) + m.slot (c.slots .retired)))

theorem base_reap_slot (h : SupervisorSnapshotHistory) (b : Option Badge) :
    m.base (h.reap (b.bind (·.status))) = min maxUInt64 (m.base h + m.slot b) := by
  unfold slot
  cases b.bind _ with
  | none => exact (min_eq_right (m.base_le h)).symm
  | some status => exact m.base_reap h status

theorem reading_take : m.reading (c.take role) = m.reading c := by
  have hbase := m.base_reap_slot c.baseline (c.slots role)
  have hnone : m.slot none = 0 := rfl
  unfold reading take
  cases role <;> simp [hbase, hnone] <;> omega

theorem reading_update_le (hbase : m.base c'.baseline = m.base c.baseline)
    (hs : c'.slots = Function.update c.slots role o) (hle : m.slot (c.slots role) ≤ m.slot o) :
    m.reading c ≤ m.reading c' := by
  unfold reading
  rw [hbase, hs]
  cases role <;> simp <;> omega

theorem reading_promoted (hbase : c'.baseline = c.baseline) (hs : c'.slots = promoted c.slots)
    (hr : c.slots .retired = none) : m.reading c' = m.reading c := by
  have hnone : m.slot none = 0 := rfl
  unfold reading
  rw [hbase, hs, hr]
  simp only [promoted, hnone]
  omega

end Meter

/-- Every held status names each listener once. -/
def Distinct (c : Custody) : Prop :=
  ∀ role b status, c.slots role = some b → b.status = some status → NamesOnce status

theorem namesOnce_retained {previous : Option WorkerStatus} {status : WorkerStatus}
    (h : NamesOnce status) : NamesOnce (retained previous status) := by
  cases previous with
  | none => exact h
  | some previous => exact nodup_retain h

theorem Distinct.update (h : c.Distinct) (hs : c'.slots = Function.update c.slots role o)
    (ho : ∀ b ∈ o, ∀ status ∈ b.status, NamesOnce status) : c'.Distinct := by
  intro role' b status hb hst
  rw [hs] at hb
  by_cases hr : role' = role
  · subst hr
    rw [Function.update_self] at hb
    exact ho b hb status hst
  · rw [Function.update_of_ne hr] at hb
    exact h role' b status hb hst

theorem distinct_step (hd : c.Distinct) (hs : Step NamesOnce known c c') : c'.Distinct := by
  cases hs with
  | report _ | close | operate _ _ | defer _ | undefer => exact hd
  | forget _ _ => exact hd.update rfl (by simp)
  | @spawn _ b _ _ hnew =>
    exact hd.update rfl (by simp [hnew])
  | commit _ _ _ =>
    intro role b status hb hst
    cases role with
    | active => exact hd .candidate b status hb hst
    | candidate => exact absurd hb (by simp [promoted])
    | retired => exact hd .active b status hb hst
  | release _ _ _ => exact hd.update rfl (by simp)
  | @status role b st baseline hb hst _ _ =>
    refine hd.update rfl fun b' hb' status hstatus => ?_
    cases hb'
    cases hstatus
    exact namesOnce_retained hst

theorem reading_step {m : Meter} (h : Inv known c) (hd : c.Distinct)
    (hs : Step NamesOnce known c c') : m.reading c ≤ m.reading c' := by
  cases hs with
  | report _ | close | operate _ _ | defer _ | undefer => exact le_rfl
  | forget _ _ => exact le_of_eq m.reading_take.symm
  | @spawn roles b hm hc hnew =>
    exact m.reading_update_le rfl rfl (by rw [h.slot_none hm hc]; exact zero_le)
  | @commit roles hm hc hr =>
    refine le_of_eq (Eq.symm ?_)
    exact m.reading_promoted rfl rfl (h.slot_none hm hr)
  | @release role _ _ _ _ => exact le_of_eq m.reading_take.symm
  | @status role b st baseline hb _ hmetrics hlisteners =>
    refine m.reading_update_le (m.base_congr _ _ hmetrics hlisteners) rfl ?_
    rw [hb]
    -- the status kept is at least the one it replaces
    cases hprev : b.status with
    | none => simp [Meter.slot, hprev]
    | some previous =>
      simp only [Meter.slot, Option.bind_some, hprev, Option.elim_some, retained]
      exact m.share_retain previous st (hd role b previous hb hprev)

/-- **Nothing is uncounted**: along a run no meter goes down. -/
theorem reading_steps (m : Meter) (h : Inv known c) (hd : c.Distinct)
    (hs : Steps NamesOnce known c c') : c'.Distinct ∧ m.reading c ≤ m.reading c' := by
  induction hs with
  | refl => exact ⟨hd, le_rfl⟩
  | tail hpre hstep ih =>
    have hinv := h.steps hpre
    exact ⟨distinct_step ih.1 hstep, le_trans ih.2 (reading_step hinv ih.1 hstep)⟩

end Custody

end Oxiroute.Master
