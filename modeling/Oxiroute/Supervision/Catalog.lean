import Mathlib.Data.List.Nodup
import Oxiroute.Lib.Machine
import Oxiroute.Lib.Prog
import Oxiroute.Supervision.Identity

/-!
# The generation catalog

Model of `oxiroute-supervision/src/catalog.rs`: the launch documents of one supervised service by
role, with the allocator of generation identities.

`History` records what a caller sees over a run: the identities it was allocated, the documents
the catalog accepted (the first active one included) and the documents it was handed back.
`Coherent` relates the catalog to that history, and `Coherent.step` says every operation keeps
it; it needs only two of the three watermarks, `generation_high_watermark` being read by an error
text alone.
-/

namespace Oxiroute.Supervision

open Lib Prog List

inductive GenerationRole where
  | active
  | candidate
  | previous
  | quarantined
  | restartRequired
  deriving DecidableEq

structure GenerationLaunchDocument (R T : Type) where
  instanceId : InstanceId
  generationId : GenerationId
  revision : R
  payload : T

inductive CatalogError where
  | candidateInProgress
  | generationExhausted
  | missingRole (role : GenerationRole)
  | duplicateInstanceId (instanceId : InstanceId)
  | staleGeneration (current candidate : GenerationId)
  deriving DecidableEq

structure SupervisedGenerationCatalog (R T : Type) where
  active : GenerationLaunchDocument R T
  candidate : Option (GenerationLaunchDocument R T)
  previous : Option (GenerationLaunchDocument R T)
  quarantined : Option (GenerationLaunchDocument R T)
  restartRequired : Option (GenerationLaunchDocument R T)
  nextGeneration : Option GenerationId
  generationHighWatermark : GenerationId
  consumedGenerationHighWatermark : GenerationId

namespace SupervisedGenerationCatalog

variable {R T : Type}

def roles : List GenerationRole :=
  [.active, .candidate, .previous, .quarantined, .restartRequired]

def new (active : GenerationLaunchDocument R T) : SupervisedGenerationCatalog R T where
  nextGeneration := checkedAdd active.generationId 1
  generationHighWatermark := active.generationId
  consumedGenerationHighWatermark := active.generationId
  active := active
  candidate := none
  previous := none
  quarantined := none
  restartRequired := none

variable (c : SupervisedGenerationCatalog R T)

def get : GenerationRole → Option (GenerationLaunchDocument R T)
  | .active => some c.active
  | .candidate => c.candidate
  | .previous => c.previous
  | .quarantined => c.quarantined
  | .restartRequired => c.restartRequired

/-- `documents`: the retained documents in role order. -/
def documents : List (GenerationRole × GenerationLaunchDocument R T) :=
  roles.filterMap fun role => (c.get role).map fun document => (role, document)

/-- The documents of the four roles besides the active one, in the order both scans chain them. -/
def retained : List (GenerationLaunchDocument R T) :=
  c.candidate.toList ++ c.previous.toList ++ c.quarantined.toList ++ c.restartRequired.toList

def containsInstanceId (instanceId : InstanceId) : Bool :=
  c.active.instanceId == instanceId || c.retained.any fun d => d.instanceId == instanceId

def latestRetainedGeneration : GenerationId :=
  (c.retained.map (·.generationId)).foldl max c.active.generationId

abbrev Method (R T : Type) := Prog (SupervisedGenerationCatalog R T) CatalogError

def allocateGeneration : Method R T GenerationId := do
  let generation ← okOr (← Prog.get).nextGeneration .generationExhausted
  modify fun c => { c with
    nextGeneration := checkedAdd generation 1
    generationHighWatermark := generation }
  pure generation

def validateGeneration (candidate : GenerationId) : Method R T Unit := do
  let c ← Prog.get
  if candidate ≤ c.latestRetainedGeneration ∨ candidate ≤ c.consumedGenerationHighWatermark then
    throw (.staleGeneration c.generationHighWatermark candidate)
  else pure ()

def consumeGeneration (generation : GenerationId) (c : SupervisedGenerationCatalog R T) :
    SupervisedGenerationCatalog R T :=
  { c with consumedGenerationHighWatermark := generation }

def advanceGenerationAllocator (generation : GenerationId)
    (c : SupervisedGenerationCatalog R T) : SupervisedGenerationCatalog R T :=
  { c with
    generationHighWatermark := max c.generationHighWatermark generation
    nextGeneration :=
      match c.nextGeneration with
      | some next => if next ≤ generation then checkedAdd generation 1 else some next
      | none => none }

variable (document : GenerationLaunchDocument R T)

/-- The identity and generation checks both accepting operations make, and the watermarks they
move once the checks have passed. -/
def takeOn : Method R T Unit := do
  if (← Prog.get).containsInstanceId document.instanceId then
    throw (.duplicateInstanceId document.instanceId)
  else
    validateGeneration document.generationId
    modify (consumeGeneration document.generationId)
    modify (advanceGenerationAllocator document.generationId)

def beginCandidate (candidate : GenerationLaunchDocument R T) : Method R T Unit := do
  if (← Prog.get).candidate.isSome then throw .candidateInProgress
  else
    takeOn candidate
    modify fun c => { c with candidate := some candidate }

def commitCandidate : Method R T (Option (GenerationLaunchDocument R T)) := do
  let c ← Prog.get
  let candidate ← okOr c.candidate (.missingRole .candidate)
  modify fun c => { c with
    active := candidate, candidate := none, previous := some c.active }
  pure c.previous

def quarantineCandidate : Method R T (Option (GenerationLaunchDocument R T)) := do
  let c ← Prog.get
  let candidate ← okOr c.candidate (.missingRole .candidate)
  modify fun c => { c with candidate := none, quarantined := some candidate }
  pure c.quarantined

def recordRestartRequired : Method R T (Option (GenerationLaunchDocument R T)) := do
  takeOn document
  let displaced := (← Prog.get).restartRequired
  modify fun c => { c with restartRequired := some document }
  pure displaced

def takePrevious : Method R T (Option (GenerationLaunchDocument R T)) := do
  let taken := (← Prog.get).previous
  modify fun c => { c with previous := none }
  pure taken

def takeQuarantined : Method R T (Option (GenerationLaunchDocument R T)) := do
  let taken := (← Prog.get).quarantined
  modify fun c => { c with quarantined := none }
  pure taken

def takeRestartRequired : Method R T (Option (GenerationLaunchDocument R T)) := do
  let taken := (← Prog.get).restartRequired
  modify fun c => { c with restartRequired := none }
  pure taken

/-! ## Operations and what they do -/

/-- One call of the catalog's mutating interface. -/
inductive Operation (R T : Type) where
  | allocateGeneration
  | beginCandidate (candidate : GenerationLaunchDocument R T)
  | commitCandidate
  | quarantineCandidate
  | recordRestartRequired (document : GenerationLaunchDocument R T)
  | takePrevious
  | takeQuarantined
  | takeRestartRequired

/-- What a successful call hands to the caller. -/
inductive Outcome (R T : Type) where
  | allocated (generation : GenerationId)
  | returned (document : Option (GenerationLaunchDocument R T))

def perform : Operation R T → Method R T (Outcome R T)
  | .allocateGeneration => do pure (.allocated (← allocateGeneration))
  | .beginCandidate candidate => do
    beginCandidate candidate
    pure (.returned none)
  | .commitCandidate => do pure (.returned (← commitCandidate))
  | .quarantineCandidate => do pure (.returned (← quarantineCandidate))
  | .recordRestartRequired document => do pure (.returned (← recordRestartRequired document))
  | .takePrevious => do pure (.returned (← takePrevious))
  | .takeQuarantined => do pure (.returned (← takeQuarantined))
  | .takeRestartRequired => do pure (.returned (← takeRestartRequired))

variable {c c' : SupervisedGenerationCatalog R T} {d : GenerationLaunchDocument R T}

/-- Every document the catalog holds. -/
def held (c : SupervisedGenerationCatalog R T) : List (GenerationLaunchDocument R T) :=
  c.active :: c.retained

theorem documents_eq_held : c.documents.map (·.2) = c.held := by
  unfold documents roles held retained
  cases hc : c.candidate <;> cases hp : c.previous <;> cases hq : c.quarantined <;>
    cases hr : c.restartRequired <;> simp [get, hc, hp, hq, hr]

/-- The catalog can take on `d`: a new instance with a generation above every one consumed. -/
structure Admits (c : SupervisedGenerationCatalog R T) (d : GenerationLaunchDocument R T) :
    Prop where
  instanceId : ∀ e ∈ c.held, e.instanceId ≠ d.instanceId
  generationId : c.consumedGenerationHighWatermark < d.generationId

/-- The watermarks after `d` was admitted. -/
def admitted (c : SupervisedGenerationCatalog R T) (d : GenerationLaunchDocument R T) :
    SupervisedGenerationCatalog R T :=
  advanceGenerationAllocator d.generationId (consumeGeneration d.generationId c)

/-- What a successful call requires, returns and leaves. -/
inductive Step (c : SupervisedGenerationCatalog R T) :
    Operation R T → Outcome R T → SupervisedGenerationCatalog R T → Prop
  | allocateGeneration {g : GenerationId} (hn : c.nextGeneration = some g) :
      Step c .allocateGeneration (.allocated g)
        { c with nextGeneration := checkedAdd g 1, generationHighWatermark := g }
  | beginCandidate {d : GenerationLaunchDocument R T} (hc : c.candidate = none) (ha : c.Admits d) :
      Step c (.beginCandidate d) (.returned none) { c.admitted d with candidate := some d }
  | commitCandidate {d : GenerationLaunchDocument R T} (hc : c.candidate = some d) :
      Step c .commitCandidate (.returned c.previous)
        { c with active := d, candidate := none, previous := some c.active }
  | quarantineCandidate {d : GenerationLaunchDocument R T} (hc : c.candidate = some d) :
      Step c .quarantineCandidate (.returned c.quarantined)
        { c with candidate := none, quarantined := some d }
  | recordRestartRequired {d : GenerationLaunchDocument R T} (ha : c.Admits d) :
      Step c (.recordRestartRequired d) (.returned c.restartRequired)
        { c.admitted d with restartRequired := some d }
  | takePrevious : Step c .takePrevious (.returned c.previous) { c with previous := none }
  | takeQuarantined :
      Step c .takeQuarantined (.returned c.quarantined) { c with quarantined := none }
  | takeRestartRequired :
      Step c .takeRestartRequired (.returned c.restartRequired) { c with restartRequired := none }

theorem containsInstanceId_eq_false {id : InstanceId} (h : ¬ c.containsInstanceId id = true) :
    ∀ e ∈ c.held, e.instanceId ≠ id := by
  intro e he hid
  apply h
  unfold containsInstanceId
  rw [Bool.or_eq_true]
  rcases mem_cons.mp he with rfl | hr
  · exact .inl (beq_iff_eq.mpr hid)
  · exact .inr (any_eq_true.mpr ⟨e, hr, beq_iff_eq.mpr hid⟩)

/-- `takeOn` either moves the watermarks of a catalog that can take `d` on, or rejects. -/
theorem takeOn_cases :
    (c.Admits d ∧ takeOn d c = (.ok (), c.admitted d)) ∨ (takeOn d).Rejects c := by
  refine guard_cases fun hi => ?_
  by_cases hg : d.generationId ≤ c.latestRetainedGeneration ∨
      d.generationId ≤ c.consumedGenerationHighWatermark
  · refine .inr (Prog.Rejects.bind ⟨.staleGeneration c.generationHighWatermark d.generationId, ?_⟩)
    simp [validateGeneration, bind_run, if_pos hg]
  · refine .inl ⟨⟨containsInstanceId_eq_false hi, UInt64.not_le.mp (not_or.mp hg).2⟩, ?_⟩
    simp [takeOn, validateGeneration, bind_run, if_neg hi, if_neg hg, admitted]

/-- **A call is a step or is rejected with the catalog unchanged.** -/
theorem perform_cases {op : Operation R T} :
    (∃ o c', Step c op o c' ∧ perform op c = (.ok o, c')) ∨ (perform op).Rejects c := by
  cases op with
  | allocateGeneration =>
    cases hn : c.nextGeneration with
    | none =>
      refine .inr ⟨.generationExhausted, ?_⟩
      simp [perform, allocateGeneration, bind_run, hn]
    | some g =>
      refine .inl ⟨_, _, .allocateGeneration hn, ?_⟩
      simp [perform, allocateGeneration, bind_run, hn]
  | beginCandidate d =>
    cases hc : c.candidate with
    | some e =>
      refine .inr (Prog.Rejects.bind ⟨.candidateInProgress, ?_⟩)
      simp [beginCandidate, bind_run, hc]
    | none =>
      rcases takeOn_cases with ⟨ha, hrun⟩ | ⟨e, he⟩
      · refine .inl ⟨_, _, .beginCandidate hc ha, ?_⟩
        simp [perform, beginCandidate, bind_run, hc, hrun]
      · refine .inr (Prog.Rejects.bind ⟨e, ?_⟩)
        simp [beginCandidate, bind_run, hc, he]
  | commitCandidate =>
    cases hc : c.candidate with
    | none =>
      refine .inr ⟨.missingRole .candidate, ?_⟩
      simp [perform, commitCandidate, bind_run, hc]
    | some d =>
      refine .inl ⟨_, _, .commitCandidate hc, ?_⟩
      simp [perform, commitCandidate, bind_run, hc]
  | quarantineCandidate =>
    cases hc : c.candidate with
    | none =>
      refine .inr ⟨.missingRole .candidate, ?_⟩
      simp [perform, quarantineCandidate, bind_run, hc]
    | some d =>
      refine .inl ⟨_, _, .quarantineCandidate hc, ?_⟩
      simp [perform, quarantineCandidate, bind_run, hc]
  | recordRestartRequired d =>
    rcases takeOn_cases with ⟨ha, hrun⟩ | hr
    · refine .inl ⟨_, _, .recordRestartRequired ha, ?_⟩
      simp only [perform, recordRestartRequired, bind_run, hrun, Prog.get_run,
        modify_run, pure_run]
      rfl
    · exact .inr (hr.bind.bind)
  | takePrevious => exact .inl ⟨_, _, .takePrevious, rfl⟩
  | takeQuarantined => exact .inl ⟨_, _, .takeQuarantined, rfl⟩
  | takeRestartRequired => exact .inl ⟨_, _, .takeRestartRequired, rfl⟩

/-! ## Histories -/

/-- What the caller has seen so far, latest first. -/
structure History (R T : Type) where
  allocated : List GenerationId
  accepted : List (GenerationLaunchDocument R T)
  returned : List (GenerationLaunchDocument R T)

/-- The document a successful call moves into the catalog. -/
def Operation.accepts : Operation R T → List (GenerationLaunchDocument R T)
  | .beginCandidate d | .recordRestartRequired d => [d]
  | _ => []

/-- The identity a successful call hands out. -/
def Outcome.allocates : Outcome R T → List GenerationId
  | .allocated g => [g]
  | .returned _ => []

/-- The document a successful call moves out of the catalog. -/
def Outcome.returns : Outcome R T → List (GenerationLaunchDocument R T)
  | .allocated _ => []
  | .returned d => d.toList

def History.record (h : History R T) (op : Operation R T) (o : Outcome R T) : History R T where
  allocated := o.allocates ++ h.allocated
  accepted := op.accepts ++ h.accepted
  returned := o.returns ++ h.returned

/-- A catalog made from its first active document, and its history, after a sequence of calls. -/
def afterOperations (active : GenerationLaunchDocument R T) (ops : List (Operation R T)) :
    SupervisedGenerationCatalog R T × History R T :=
  observeAll perform History.record (new active, ⟨[], [active], []⟩) ops

/-- A catalog agrees with its history. -/
structure Coherent (c : SupervisedGenerationCatalog R T) (h : History R T) : Prop where
  /-- The next identity to allocate is above every one handed out or consumed. -/
  next : ∀ n ∈ c.nextGeneration, (∀ g ∈ h.allocated, g < n) ∧ c.consumedGenerationHighWatermark < n
  consumed : ∀ d ∈ h.accepted, d.generationId ≤ c.consumedGenerationHighWatermark
  generations : (h.accepted.map (·.generationId)).Nodup
  instances : (c.held.map (·.instanceId)).Nodup
  /-- No document is lost or duplicated. -/
  owned : h.accepted.Perm (c.held ++ h.returned)

variable {h : History R T} {active : GenerationLaunchDocument R T} {role : GenerationRole}

theorem Coherent.new : Coherent (new active) ⟨[], [active], []⟩ where
  next n hn := ⟨by simp, Lib.lt_of_checkedAdd_one hn⟩
  consumed := by simp [SupervisedGenerationCatalog.new]
  generations := by simp
  instances := by simp [held, retained, SupervisedGenerationCatalog.new]
  owned := by simp [held, retained, SupervisedGenerationCatalog.new]

theorem Coherent.next_admitted (hc : Coherent c h) : ∀ n ∈ (c.admitted d).nextGeneration,
      (∀ g ∈ h.allocated, g < n) ∧ (c.admitted d).consumedGenerationHighWatermark < n := by
  intro n hn
  simp only [admitted, advanceGenerationAllocator, consumeGeneration, Option.mem_def] at hn ⊢
  split at hn
  · rename_i next hnext
    have hold := (hc.next next hnext).1
    split at hn
    · rename_i hle
      have hlt := Lib.lt_of_checkedAdd_one hn
      exact ⟨fun g hg => UInt64.lt_trans (UInt64.lt_of_lt_of_le (hold g hg) hle) hlt, hlt⟩
    · rename_i hlt
      cases hn
      exact ⟨hold, UInt64.not_le.mp hlt⟩
  · cases hn

theorem Coherent.generations_admitted (hc : Coherent c h) (ha : c.Admits d) :
    ((d :: h.accepted).map (·.generationId)).Nodup := by
  rw [map_cons, nodup_cons]
  refine ⟨fun hmem => ?_, hc.generations⟩
  obtain ⟨e, he, heq⟩ := mem_map.mp hmem
  have hle := hc.consumed e he
  rw [heq] at hle
  exact UInt64.not_le.mpr ha.generationId hle

theorem Coherent.consumed_admitted (hc : Coherent c h) (ha : c.Admits d) :
    ∀ e ∈ d :: h.accepted, e.generationId ≤ d.generationId := by
  intro e he
  rcases mem_cons.mp he with rfl | he
  · exact UInt64.le_refl _
  · exact UInt64.le_of_lt (UInt64.lt_of_le_of_lt (hc.consumed e he) ha.generationId)

/-- A list of documents that loses and gains the same ones: the shape of every ownership step. -/
theorem Coherent.owned_of_perm {moved accepted returned : List (GenerationLaunchDocument R T)}
    (hc : Coherent c h) (hp : (accepted ++ c.held).Perm (moved ++ returned)) :
    (accepted ++ h.accepted).Perm (moved ++ (returned ++ h.returned)) := by
  have h1 : (accepted ++ h.accepted).Perm (accepted ++ (c.held ++ h.returned)) :=
    List.Perm.append_left _ hc.owned
  rw [← append_assoc] at h1 ⊢
  exact h1.trans (List.Perm.append_right _ hp)

variable {op : Operation R T} {o : Outcome R T}

/-- The documents a step leaves held and returns are those held before and accepted. -/
theorem Step.held_perm (hs : Step c op o c') :
    (op.accepts ++ c.held).Perm (c'.held ++ o.returns) := by
  classical
  rw [perm_iff_count]
  cases hs with
  | allocateGeneration hn =>
    simp [Operation.accepts, Outcome.returns, held, retained]
  | beginCandidate hc ha =>
    simp only [Operation.accepts, Outcome.returns, held, retained, admitted,
      advanceGenerationAllocator, consumeGeneration, hc, count_append, count_cons,
      Option.toList_none, Option.toList_some, count_nil]
    omega
  | commitCandidate hc | quarantineCandidate hc =>
    simp only [Operation.accepts, Outcome.returns, held, retained, hc, count_append,
      count_cons, Option.toList_none, Option.toList_some, count_nil]
    omega
  | recordRestartRequired ha =>
    simp only [Operation.accepts, Outcome.returns, held, retained, admitted,
      advanceGenerationAllocator, consumeGeneration, count_append, count_cons,
      Option.toList_some, count_nil]
    omega
  | takePrevious | takeQuarantined | takeRestartRequired =>
    simp only [Operation.accepts, Outcome.returns, held, retained, count_append,
      count_cons, Option.toList_none, count_nil]
    omega

/-- A step keeps the instance identities of the held documents distinct: they are among the ones
held before it and the one it admits. -/
theorem Step.instances_nodup (hs : Step c op o c') (hn : (c.held.map (·.instanceId)).Nodup) :
    (c'.held.map (·.instanceId)).Nodup := by
  have hnew : ((op.accepts ++ c.held).map (·.instanceId)).Nodup := by
    cases hs with
    | beginCandidate hc ha | recordRestartRequired ha =>
      refine nodup_cons.mpr ⟨fun hmem => ?_, hn⟩
      obtain ⟨e, he, heq⟩ := mem_map.mp hmem
      exact ha.instanceId e he heq
    | allocateGeneration | commitCandidate | quarantineCandidate | takePrevious
      | takeQuarantined | takeRestartRequired => exact hn
  rw [(hs.held_perm.map _).nodup_iff, map_append] at hnew
  exact hnew.of_append_left

/-- **Every step keeps a catalog coherent with its history.** -/
theorem Coherent.step (hc : Coherent c h) (hs : Step c op o c') : Coherent c' (h.record op o) := by
  have hi := hs.instances_nodup hc.instances
  have ho := hc.owned_of_perm hs.held_perm
  cases hs with
  | @allocateGeneration g hn =>
    refine ⟨fun n hn' => ?_, hc.consumed, hc.generations, hi, ho⟩
    have hlt : g < n := Lib.lt_of_checkedAdd_one hn'
    obtain ⟨hold, hcons⟩ := hc.next g hn
    refine ⟨fun a ha => ?_, UInt64.lt_trans hcons hlt⟩
    rcases mem_cons.mp ha with rfl | ha
    · exact hlt
    · exact UInt64.lt_trans (hold a ha) hlt
  | beginCandidate _ ha | recordRestartRequired ha =>
    exact ⟨hc.next_admitted, hc.consumed_admitted ha, hc.generations_admitted ha, hi, ho⟩
  | commitCandidate | quarantineCandidate | takePrevious | takeQuarantined
    | takeRestartRequired => exact ⟨hc.next, hc.consumed, hc.generations, hi, ho⟩

theorem coherent_afterOperations {ops : List (Operation R T)} :
    Coherent (afterOperations active ops).1 (afterOperations active ops).2 := by
  refine observeAll_invariant (fun c h op hc => ?_) ops _ .new
  refine perform_cases.imp_left ?_
  rintro ⟨o, c', hs, hrun⟩
  exact ⟨o, c', hrun, hc.step hs⟩

/-! ## What a run guarantees -/

theorem mem_documents : (role, d) ∈ c.documents ↔ c.get role = some d := by
  unfold documents
  rw [mem_filterMap]
  constructor
  · rintro ⟨r, _, hr⟩
    obtain ⟨e, he, heq⟩ := Option.map_eq_some_iff.mp hr
    obtain ⟨rfl, rfl⟩ := Prod.mk.inj heq
    exact he
  · intro hg
    exact ⟨role, by cases role <;> simp [roles], by rw [hg]; rfl⟩

theorem mem_held : d ∈ c.held ↔ ∃ role, c.get role = some d := by
  rw [← documents_eq_held, mem_map]
  constructor
  · rintro ⟨⟨role, e⟩, he, rfl⟩
    exact ⟨role, mem_documents.mp he⟩
  · rintro ⟨role, hg⟩
    exact ⟨(role, d), mem_documents.mpr hg, rfl⟩

theorem Coherent.owned_generations (hc : Coherent c h) :
    ((c.held ++ h.returned).map (·.generationId)).Nodup :=
  (hc.owned.map _).nodup_iff.mp hc.generations

theorem Coherent.role_unique (hc : Coherent c h) {role' : GenerationRole} (hr : c.get role = some d)
    (hr' : c.get role' = some d) : role = role' := by
  have hn := hc.owned_generations
  rw [map_append, ← documents_eq_held, map_map] at hn
  have heq := inj_on_of_nodup_map hn.of_append_left (mem_documents.mpr hr)
    (mem_documents.mpr hr') rfl
  exact congrArg Prod.fst heq

/-- **The catalog over a whole run.** Identities are fresh, no generation is accepted twice, the
retained instances are distinct, a failing call changes nothing, and an accepted document is held in
one role or was handed back once. -/
theorem afterOperations_ledger (active : GenerationLaunchDocument R T)
    (ops : List (Operation R T)) : let c := (afterOperations active ops).1
    let h := (afterOperations active ops).2
    (∀ g c', allocateGeneration c = (.ok g, c') →
      (∀ a ∈ h.allocated, a < g) ∧ ∀ d ∈ h.accepted, d.generationId < g) ∧
    (h.accepted.map (·.generationId)).Nodup ∧
    (c.documents.map (·.2.instanceId)).Nodup ∧
    (∀ op e c', perform op c = (.error e, c') → c' = c) ∧
    ∀ d ∈ h.accepted,
      ((∃! role, c.get role = some d) ∧ d ∉ h.returned) ∨
      ((∀ role, c.get role ≠ some d) ∧
        ∃ before after, h.returned = before ++ d :: after ∧ d ∉ before ∧ d ∉ after) := by
  intro c h
  have hc : Coherent c h := coherent_afterOperations
  refine ⟨fun g c' hg => ?_, hc.generations, ?_, fun op e c' he => ?_, fun d hd => ?_⟩
  · have hn : c.nextGeneration = some g := by
      cases hn : c.nextGeneration with
      | none => simp [allocateGeneration, bind_run, hn] at hg
      | some n =>
        simp only [allocateGeneration, bind_run, Prog.get_run, hn, okOr_some,
          pure_run, modify_run, Prod.mk.injEq, Except.ok.injEq] at hg
        rw [hg.1]
    obtain ⟨hold, hcons⟩ := hc.next g hn
    exact ⟨hold, fun d hd => UInt64.lt_of_le_of_lt (hc.consumed d hd) hcons⟩
  · have hi := hc.instances
    rw [← documents_eq_held, map_map] at hi
    exact hi
  · rcases perform_cases with ⟨o, c'', _, hrun⟩ | ⟨e', he'⟩
    · rw [hrun] at he
      exact absurd (congrArg Prod.fst he) (by simp)
    · rw [he'] at he
      exact (congrArg Prod.snd he).symm
  · have hn := hc.owned_generations.of_map _
    obtain ⟨_, hret, hdisj⟩ := nodup_append'.mp hn
    rcases mem_append.mp (hc.owned.mem_iff.mp hd) with hh | hr
    · obtain ⟨role, hg⟩ := mem_held.mp hh
      exact .inl ⟨⟨role, hg, fun _ hg' => hc.role_unique hg' hg⟩, fun hr => hdisj hh hr⟩
    · obtain ⟨before, after, heq⟩ := append_of_mem hr
      rw [heq, nodup_middle, nodup_cons, mem_append, not_or] at hret
      exact .inr ⟨fun role hg => hdisj (mem_held.mpr ⟨role, hg⟩) hr, before, after, heq, hret.1⟩

end SupervisedGenerationCatalog

end Oxiroute.Supervision
