import Oxiroute.Cache.System

/-!
# Fills and purges

A leader keeps its guard over arbitrary work while other clients purge its base, cancel every fill
or start a new one. What makes this safe is that generations are handed out once: a guard whose
flight left the table is never current again, whatever happens later.

* `Tracked`: every generation handed out is in the table and nobody was told anything about it, or
  it left the table and its followers were told one outcome.
* `Traced`: the guards were handed out in the order of their generations, and a flight is the one
  of the latest guard of its base.
* `Lost`: what is left to a guard that is not current.
-/

namespace Oxiroute.Cache

open Lib Http FillGuard Table List

/-! ## Guards that are not current -/

/-- Nothing a guard may still do changes the cache, and a store of an entry of its own finds the
generation lost. -/
structure FillGuard.Lost (config : CacheConfig) (g : FillGuard) (s : State) : Prop where
  outcome : ∀ entry claimed, g.claim entry = .ok claimed →
    (g.store config entry s).1 = .ok .generationLost
  store : ∀ entry, (g.store config entry s).2 = s
  complete : g.completeWithoutStore s = (false, s)
  drop : g.drop s = s

theorem FillGuard.lost_of_not_current {config : CacheConfig} {g : FillGuard} {s : State}
    (h : g.isCurrent s = false) : g.Lost config s := by
  have hdrop : g.drop s = s := by rw [FillGuard.drop, if_pos h]
  have hclaimed : ∀ entry, g.storeClaimed config entry s = (.generationLost, s) := by
    intro entry
    rw [storeClaimed, if_pos h]
  refine ⟨?_, ?_, ?_, hdrop⟩
  · intro entry claimed hc
    simp only [store, hc, hclaimed]
  · intro entry
    unfold store
    cases g.claim entry with
    | error e => exact hdrop
    | ok claimed => simp only [hclaimed]
  · rw [completeWithoutStore, FillGuard.finish, if_pos h]

namespace World

/-! ## Generations -/

/-- A generation is that of a flight in the table. -/
def Flying (s : State) (generation : ℕ) : Prop :=
  ∃ base flight, s.flights.lookup base = some flight ∧ flight.generation = generation

/-- Every generation handed out is in the table or was given its one outcome. -/
structure Tracked (s : State) : Prop where
  below : ∀ n, Flying s n → n < s.nextGeneration
  base : ∀ b f b' f', s.flights.lookup b = some f → s.flights.lookup b' = some f' →
    f.generation = f'.generation → b = b'
  silent : ∀ n, Flying s n → n ∉ s.signals.map Prod.fst
  once : (s.signals.map Prod.fst).Nodup
  terminal : ∀ p ∈ s.signals, p.2 ≠ .filling
  told : ∀ n ∈ s.signals.map Prod.fst, n < s.nextGeneration
  covered : ∀ n < s.nextGeneration, Flying s n ∨ n ∈ s.signals.map Prod.fst

variable {s t : State} {base : BaseKey} {shared : Shared} {joined : Option FillJoin} {w : World}
  {g : FillGuard} {n : ℕ}

theorem Tracked.of_same (h : Tracked s) (hs : State.SameFills s t) : Tracked t := by
  obtain ⟨hf, hsig, hgen⟩ := hs
  constructor <;> simp only [Flying, hf, hsig, hgen]
  · exact h.below
  · exact h.base
  · exact h.silent
  · exact h.once
  · exact h.terminal
  · exact h.told
  · exact h.covered

variable {outcome : FillOutcome} {op : Op} {l : List (ℕ × FillOutcome)} {i j : ℕ} {g' : FillGuard}

theorem Retired.flying {flight : Flight} (hr : Retired s base flight outcome t) (h : Tracked s) :
    Flying t n ↔ Flying s n ∧ n ≠ flight.generation := by
  constructor
  · rintro ⟨b, f, hb, rfl⟩
    rw [hr.flights, lookup_erase] at hb
    split_ifs at hb with hne
    refine ⟨⟨b, f, hb, rfl⟩, fun heq => hne ?_⟩
    exact h.base b f base flight hb hr.found heq
  · rintro ⟨⟨b, f, hb, rfl⟩, hne⟩
    refine ⟨b, f, ?_, rfl⟩
    rw [hr.flights, lookup_erase, if_neg, hb]
    rintro rfl
    rw [hr.found] at hb
    exact hne (congrArg _ (Option.some.inj hb)).symm

theorem Tracked.retired {flight : Flight} (h : Tracked s) (hr : Retired s base flight outcome t) :
    Tracked t := by
  have hfound : Flying s flight.generation := ⟨base, flight, hr.found, rfl⟩
  have hsig : t.signals.map Prod.fst = s.signals.map Prod.fst ++ [flight.generation] := by
    rw [hr.signals, map_append]
    rfl
  constructor
  · intro n hn
    rw [hr.nextGeneration]
    exact h.below n ((hr.flying h).mp hn).1
  · intro b f b' f' hb hb' heq
    rw [hr.flights, lookup_erase] at hb hb'
    split_ifs at hb
    split_ifs at hb'
    exact h.base b f b' f' hb hb' heq
  · intro n hn hmem
    obtain ⟨hs, hne⟩ := (hr.flying h).mp hn
    rw [hsig, mem_append, mem_singleton] at hmem
    rcases hmem with hmem | rfl
    · exact h.silent n hs hmem
    · exact hne rfl
  · rw [hsig]
    exact nodup_append.mpr ⟨h.once, by simp, fun a ha b hb => by
      rw [mem_singleton.mp hb]
      rintro rfl
      exact h.silent _ hfound ha⟩
  · intro p hp
    rw [hr.signals, mem_append, mem_singleton] at hp
    rcases hp with hp | rfl
    · exact h.terminal p hp
    · exact hr.terminal
  · intro n hn
    rw [hr.nextGeneration]
    rw [hsig, mem_append, mem_singleton] at hn
    rcases hn with hn | rfl
    · exact h.told n hn
    · exact h.below _ hfound
  · intro n hn
    rw [hr.nextGeneration] at hn
    rw [hr.flying h, hsig, mem_append, mem_singleton]
    by_cases heq : n = flight.generation
    · exact .inr (.inr heq)
    · rcases h.covered n hn with hs | hmem
      · exact .inl ⟨hs, heq⟩
      · exact .inr (.inl hmem)

theorem Tracked.retires (h : Tracked s) (hr : Retires s t) : Tracked t := by
  induction hr with
  | same hs => exact h.of_same hs
  | retire _ hone ih => exact ih.retired hone

theorem flying_joined
    (hf : t.flights = update base (fun f => { f with followers := f.followers + 1 }) s.flights)
    (b : BaseKey) :
    (t.flights.lookup b).map Flight.generation = (s.flights.lookup b).map Flight.generation := by
  rw [hf]
  by_cases hb : b = base
  · rw [hb, lookup_update_self, Option.map_map]
    rfl
  · rw [lookup_update_ne hb]

/-- The generations of the flights decide what is tracked. -/
theorem Tracked.of_generations (h : Tracked s) (hf : ∀ b, (t.flights.lookup b).map Flight.generation
      = (s.flights.lookup b).map Flight.generation) (hsig : t.signals = s.signals)
    (hgen : t.nextGeneration = s.nextGeneration) : Tracked t := by
  have hback : ∀ {b f}, t.flights.lookup b = some f →
      ∃ f', s.flights.lookup b = some f' ∧ f'.generation = f.generation := by
    intro b f hb
    have hb' := hf b
    rw [hb, Option.map_some] at hb'
    exact Option.map_eq_some_iff.mp hb'.symm
  have hflying : ∀ n, Flying t n ↔ Flying s n := by
    intro n
    constructor
    · rintro ⟨b, f, hb, rfl⟩
      obtain ⟨f', hb', heq⟩ := hback hb
      exact ⟨b, f', hb', heq⟩
    · rintro ⟨b, f, hb, rfl⟩
      have hb' := hf b
      rw [hb, Option.map_some] at hb'
      obtain ⟨f', hb', heq⟩ := Option.map_eq_some_iff.mp hb'
      exact ⟨b, f', hb', heq⟩
  constructor <;> try simp only [hflying, hsig, hgen]
  · exact h.below
  · intro b f b' f' hb hb' heq
    obtain ⟨f₁, h₁, hg₁⟩ := hback hb
    obtain ⟨f₂, h₂, hg₂⟩ := hback hb'
    exact h.base b f₁ b' f₂ h₁ h₂ (hg₁.trans (heq.trans hg₂.symm))
  · exact h.silent
  · exact h.once
  · exact h.terminal
  · exact h.told
  · exact h.covered

theorem Tracked.led (h : Tracked s) (hfree : s.flights.lookup base = none)
    (hf : t.flights = s.flights.insert base { generation := s.nextGeneration, followers := 0 })
    (hsig : t.signals = s.signals) (hgen : t.nextGeneration = s.nextGeneration + 1) :
    Tracked t := by
  have hnew : ∀ b f, t.flights.lookup b = some f ↔
      b = base ∧ f = { generation := s.nextGeneration, followers := 0 }
        ∨ b ≠ base ∧ s.flights.lookup b = some f := by
    intro b f
    rw [hf, lookup_insert]
    split_ifs with hb
    · simp [hb, eq_comm]
    · simp [hb]
  have hflying : ∀ n, Flying t n ↔ Flying s n ∨ n = s.nextGeneration := by
    intro n
    constructor
    · rintro ⟨b, f, hb, rfl⟩
      rcases (hnew b f).mp hb with ⟨_, rfl⟩ | ⟨_, hb⟩
      · exact .inr rfl
      · exact .inl ⟨b, f, hb, rfl⟩
    · rintro (⟨b, f, hb, rfl⟩ | rfl)
      · refine ⟨b, f, (hnew b f).mpr (.inr ⟨?_, hb⟩), rfl⟩
        rintro rfl
        rw [hfree] at hb
        cases hb
      · exact ⟨base, _, (hnew base _).mpr (.inl ⟨rfl, rfl⟩), rfl⟩
  constructor <;> try simp only [hflying, hsig, hgen]
  · rintro n (hn | rfl)
    · exact (h.below n hn).trans (Nat.lt_succ_self _)
    · exact Nat.lt_succ_self _
  · intro b f b' f' hb hb' heq
    rcases (hnew b f).mp hb with ⟨rfl, rfl⟩ | ⟨_, hb⟩
    · rcases (hnew b' f').mp hb' with ⟨rfl, _⟩ | ⟨_, hb'⟩
      · rfl
      · exact absurd heq.symm (h.below _ ⟨b', f', hb', rfl⟩).ne
    · rcases (hnew b' f').mp hb' with ⟨rfl, rfl⟩ | ⟨_, hb'⟩
      · exact absurd heq (h.below _ ⟨b, f, hb, rfl⟩).ne
      · exact h.base b f b' f' hb hb' heq
  · rintro n (hn | rfl)
    · exact h.silent n hn
    · exact fun hmem => (h.told _ hmem).false
  · exact h.once
  · exact h.terminal
  · exact fun n hn => (h.told n hn).trans (Nat.lt_succ_self _)
  · intro n hn
    rcases Nat.lt_succ_iff_lt_or_eq.mp hn with hlt | heq
    · rcases h.covered n hlt with hs | hmem
      · exact .inl (.inl hs)
      · exact .inr hmem
    · exact .inl (.inr heq)

theorem tracked_effect (h : Tracked s) (heffect : FillEffect shared s t joined) : Tracked t := by
  cases heffect with
  | retires hr => exact h.retires hr
  | joined base flight _ _ hf hsig hgen => exact h.of_generations (flying_joined hf) hsig hgen
  | led base hfree _ hf hsig hgen => exact h.led hfree hf hsig hgen

/-! ## What the clients hold -/

/-- The guard among what an operation hands out. -/
def guardOf : Option FillJoin → List FillGuard
  | some (.leader guard) => [guard]
  | _ => []

/-- The flight a follower among what an operation hands out waits for. -/
def waiterOf : Option FillJoin → List ℕ
  | some (.follower generation) => [generation]
  | _ => []

/-- What an operation does to what the clients hold of the fills. -/
structure Holds (w w' : World) (joined : Option FillJoin) : Prop where
  guards : w'.guards.Sublist (w.guards ++ guardOf joined)
  issued : w'.issued = w.issued ++ guardOf joined
  waiters : w'.waiters = w.waiters ++ waiterOf joined

theorem Holds.unchanged {w' : World} (hg : w'.guards.Sublist w.guards) (hi : w'.issued = w.issued)
    (hw : w'.waiters = w.waiters) : Holds w w' none :=
  ⟨by simpa [guardOf] using hg, by simpa [guardOf] using hi, by simpa [waiterOf] using hw⟩

theorem Holds.keep {r : Except CacheError PreparedEntry} :
    Holds w ({ w with state := s }.keep r) none := by
  cases r with
  | error e | ok entry => exact .unchanged (.refl _) rfl rfl

theorem step_holds [Crates] (shared : Shared) (w : World) (op : Op) :
    Holds w (step shared w op) (handing shared w op) := by
  cases op with
  | prepare request response timeline => exact .keep
  | prepareNotModified request key notModified timing timeline => exact .keep
  | receive entry =>
    simp only [step, handing]
    split_ifs <;> exact .unchanged (.refl _) rfl rfl
  | beginFill base =>
    simp only [step, handing]
    cases (w.state.beginFill shared base).1 with
    | error e => exact .unchanged (.refl _) rfl rfl
    | ok joined =>
      cases joined with
      | leader g => exact ⟨.refl _, rfl, by simp [join, handed, waiterOf]⟩
      | follower generation =>
        exact ⟨by simp [join, handed, guardOf], by simp [join, handed, guardOf], rfl⟩
      | atCapacity => exact .unchanged (.refl _) rfl rfl
  | store guard entry =>
    simp only [step, handing]
    cases w.guards[guard]? with
    | none => exact .unchanged (.refl _) rfl rfl
    | some g =>
      cases w.prepared[entry]? with
      | none => exact .unchanged (.refl _) rfl rfl
      | some e => exact .unchanged (eraseIdx_sublist _ _) rfl rfl
  | completeWithoutStore guard | dropGuard guard =>
    simp only [step, handing]
    cases w.guards[guard]? with
    | none => exact .unchanged (.refl _) rfl rfl
    | some g => exact .unchanged (eraseIdx_sublist _ _) rfl rfl
  | restore now wall record =>
    simp only [step, handing]
    cases decodeRecord _ now wall record with
    | error e | ok decoded => exact .unchanged (.refl _) rfl rfl
  | _ => exact .unchanged (.refl _) rfl rfl

/-- The guards were handed out in the order of their generations; a flight is at least as new as
every guard of its base; and everyone waits for a generation that was handed out. -/
structure Traced (w : World) : Prop where
  tracked : Tracked w.state
  guards : w.guards.Sublist w.issued
  ascending : w.issued.Pairwise fun g g' => g.generation < g'.generation
  issued : ∀ g ∈ w.issued, g.generation < w.state.nextGeneration
  newest : ∀ g ∈ w.issued, ∀ flight, w.state.flights.lookup g.base = some flight →
    g.generation ≤ flight.generation
  waiting : ∀ n ∈ w.waiters, n < w.state.nextGeneration

theorem traced_init : Traced init := by
  refine ⟨⟨?_, ?_, ?_, by simp [init, State.init], ?_, ?_, ?_⟩, .refl _, .nil, ?_, ?_, ?_⟩ <;>
    simp [init, State.init, Flying]

/-- The flight of a base after an operation was its flight before, or is the next one. -/
theorem FillEffect.flight (h : FillEffect shared s t joined) {b : BaseKey} {f : Flight}
    (hf : t.flights.lookup b = some f) :
    (∃ f', s.flights.lookup b = some f' ∧ f'.generation = f.generation)
      ∨ f.generation = s.nextGeneration := by
  cases h with
  | retires hr =>
    left
    induction hr generalizing f with
    | same hs => exact ⟨f, hs.flights ▸ hf, rfl⟩
    | retire _ hone ih =>
      rw [hone.flights, lookup_erase] at hf
      split_ifs at hf
      exact ih hf
  | joined base flight _ _ hj _ _ =>
    left
    have heq := flying_joined hj b
    rw [hf, Option.map_some] at heq
    exact Option.map_eq_some_iff.mp heq.symm
  | led base _ _ hl _ _ =>
    rw [hl, lookup_insert] at hf
    split_ifs at hf
    · exact .inr (congrArg _ (Option.some.inj hf)).symm
    · exact .inl ⟨f, hf, rfl⟩

theorem Retires.nextGeneration (h : Retires s t) : t.nextGeneration = s.nextGeneration := by
  induction h with
  | same hs => exact hs.nextGeneration
  | retire _ hone ih => exact hone.nextGeneration.trans ih

theorem FillEffect.next_le (h : FillEffect shared s t joined) :
    s.nextGeneration ≤ t.nextGeneration := by
  cases h with
  | retires hr => exact hr.nextGeneration.ge
  | joined _ _ _ _ _ _ hgen => exact hgen.ge
  | led _ _ _ _ _ hgen => exact hgen ▸ Nat.le_succ _

/-- A new guard has the next generation, which is the one of the flight of its base. -/
theorem FillEffect.leader (h : FillEffect shared s t joined) (hg : g ∈ guardOf joined) :
    g.generation = s.nextGeneration ∧ s.nextGeneration < t.nextGeneration
      ∧ ∃ flight, t.flights.lookup g.base = some flight ∧ flight.generation = g.generation := by
  cases h with
  | retires _ | joined _ _ _ _ _ _ _ => simp [guardOf] at hg
  | led base _ _ hl _ hgen =>
    obtain rfl := mem_singleton.mp hg
    refine ⟨rfl, hgen ▸ Nat.lt_succ_self _, ⟨s.nextGeneration, 0⟩, ?_, rfl⟩
    rw [hl, AList.lookup_insert]

theorem FillEffect.waiter (h : FillEffect shared s t joined) (hn : n ∈ waiterOf joined) :
    Flying s n := by
  cases h with
  | retires _ => simp [waiterOf] at hn
  | joined base flight hf _ _ _ _ => exact ⟨base, flight, hf, (mem_singleton.mp hn).symm⟩
  | led _ _ _ _ _ _ => simp [waiterOf] at hn

theorem pairwise_guardOf {R : FillGuard → FillGuard → Prop} : (guardOf joined).Pairwise R := by
  rcases joined with _ | (g | n | _)
  · exact .nil
  · exact pairwise_singleton R g
  · exact .nil
  · exact .nil

theorem traced_step [Crates] (h : Traced w) : Traced (step shared w op) := by
  have heffect := (step_effect shared w op).fills
  have hholds := step_holds shared w op
  refine ⟨tracked_effect h.tracked heffect, ?_, ?_, ?_, ?_, ?_⟩
  · rw [hholds.issued]
    exact hholds.guards.trans (h.guards.append (.refl _))
  · rw [hholds.issued]
    refine pairwise_append.mpr ⟨h.ascending, pairwise_guardOf, ?_⟩
    intro g hg g' hg'
    rw [(heffect.leader hg').1]
    exact h.issued g hg
  · intro g hg
    rw [hholds.issued, mem_append] at hg
    rcases hg with hg | hg
    · exact (h.issued g hg).trans_le heffect.next_le
    · rw [(heffect.leader hg).1]
      exact (heffect.leader hg).2.1
  · intro g hg flight hf
    rw [hholds.issued, mem_append] at hg
    rcases hg with hg | hg
    · rcases heffect.flight hf with ⟨f', hf', heq⟩ | heq
      · exact heq ▸ h.newest g hg f' hf'
      · exact heq ▸ (h.issued g hg).le
    · obtain ⟨_, _, f', hf', heq⟩ := heffect.leader hg
      rw [hf'] at hf
      exact (Option.some.inj hf) ▸ heq.ge
  · intro n hn
    rw [hholds.waiters, mem_append] at hn
    rcases hn with hn | hn
    · exact (h.waiting n hn).trans_le heffect.next_le
    · exact (h.tracked.below n (heffect.waiter hn)).trans_le heffect.next_le

theorem traced_run [Crates] (shared : Shared) (ops : List Op) : Traced (run shared ops) :=
  runFrom_keeps (P := Traced) (fun _ _ h => traced_step h) ops init traced_init

/-! ## Lost generations -/

/-- **A guard that is not current never is again.** -/
theorem not_current_step [Crates] (h : Traced w) (hg : g ∈ w.issued)
    (hlost : g.isCurrent w.state = false) : g.isCurrent (step shared w op).state = false := by
  by_contra hcur
  rw [Bool.not_eq_false] at hcur
  obtain ⟨flight, hf, hgen⟩ := isCurrent_iff.mp hcur
  rcases (step_effect shared w op).fills.flight hf with ⟨f', hf', heq⟩ | heq
  · have hcur' : g.isCurrent w.state = true := isCurrent_iff.mpr ⟨f', hf', heq.trans hgen⟩
    simp [hlost] at hcur'
  · exact (h.issued g hg).ne (hgen.symm.trans heq)

theorem issued_step [Crates] (hg : g ∈ w.issued) : g ∈ (step shared w op).issued := by
  rw [(step_holds shared w op).issued]
  exact mem_append_left _ hg

theorem not_current_runFrom [Crates] (h : Traced w) (hg : g ∈ w.issued)
    (hlost : g.isCurrent w.state = false) {ops : List Op} :
    g.isCurrent (runFrom shared w ops).state = false := by
  let P (w : World) : Prop := Traced w ∧ g ∈ w.issued ∧ g.isCurrent w.state = false
  have hrun : P (runFrom shared w ops) := by
    refine runFrom_keeps ?_ ops w ⟨h, hg, hlost⟩
    rintro w op ⟨h, hg, hlost⟩
    exact ⟨traced_step h, issued_step hg, not_current_step h hg hlost⟩
  exact hrun.2.2

/-- The operations that cancel the fill of a base: a purge of one of its keys, of the base or of a
tag one of its entries carries, and the cancellation of every fill. -/
def Cancels (config : CacheConfig) (s : State) (base : BaseKey) : Op → Prop
  | .purgeExact key => key.base = base
  | .purgeBase b => b = base
  | .purgeTag tag =>
    validateTag tag config.maxTagBytes = true ∧ ∃ key ∈ s.tagged tag, key.base = base
  | .cancelAllFills => True
  | _ => False

theorem cancelFlight_lookup (s : State) (base : BaseKey) (outcome : FillOutcome) (b : BaseKey) :
    (s.cancelFlight base outcome).2.flights.lookup b
      = if b = base then none else s.flights.lookup b := by
  unfold State.cancelFlight
  cases hf : s.flights.lookup base with
  | none =>
    split_ifs with hb
    · rw [hb, hf]
    · rfl
  | some flight => exact lookup_erase

theorem foldl_purgeTagged_lookup (b : BaseKey) (keys : List CacheKey) (acc : PurgeResult × State)
    (h : acc.2.flights.lookup b = none ∨ ∃ key ∈ keys, key.base = b) :
    (keys.foldl State.purgeTagged acc).2.flights.lookup b = none := by
  induction keys generalizing acc with
  | nil => simpa using h
  | cons key keys ih =>
    refine ih _ ?_
    have hstep : (State.purgeTagged acc key).2.flights.lookup b
        = if b = key.base then none else acc.2.flights.lookup b := by
      have hsame := State.sameFills_dropEntry acc.2 key
      exact (cancelFlight_lookup _ key.base .purged b).trans (by rw [hsame.flights])
    rw [hstep]
    rcases h with h | ⟨k, hk, hb⟩
    · left
      rw [h, ite_self]
    · rcases mem_cons.mp hk with rfl | hk
      · left
        rw [if_pos hb.symm]
      · exact .inr ⟨k, hk, hb⟩

theorem Cancels.step [Crates] (h : Cancels shared.config w.state base op) :
    (step shared w op).state.flights.lookup base = none := by
  cases op with
  | purgeExact key =>
    exact (cancelFlight_lookup _ key.base .purged base).trans (if_pos (Eq.symm h))
  | purgeBase b =>
    exact (cancelFlight_lookup _ b .purged base).trans (if_pos (Eq.symm h))
  | purgeTag tag =>
    obtain ⟨hvalid, htagged⟩ := h
    have hnone := foldl_purgeTagged_lookup base _ (⟨0, 0, 0⟩, w.state) (.inr htagged)
    simp only [World.step, State.purgeTag, hvalid, Bool.true_eq_false, if_false]
    exact hnone
  | cancelAllFills => exact AList.lookup_empty base
  | _ => exact h.elim

/-! ## Runs -/

/-- Whether a follower still waits or was told its outcome: its flight is in the table and nothing
was sent, or it left the table and one final outcome was sent. -/
def Served (s : State) (generation : ℕ) : Prop :=
  (Flying s generation ∧ s.signals.filter (fun p => p.1 = generation) = [])
  ∨ ¬Flying s generation ∧ ∃ outcome, outcome ≠ FillOutcome.filling
      ∧ s.signals.filter (fun p => p.1 = generation) = [(generation, outcome)]

theorem filter_fst_eq_nil (h : n ∉ l.map Prod.fst) : l.filter (fun p => p.1 = n) = [] := by
  rw [filter_eq_nil_iff]
  intro p hp heq
  exact h (mem_map.mpr ⟨p, hp, of_decide_eq_true heq⟩)

theorem filter_fst_of_nodup (h : (l.map Prod.fst).Nodup) (hn : n ∈ l.map Prod.fst) :
    ∃ outcome, (n, outcome) ∈ l ∧ l.filter (fun p => p.1 = n) = [(n, outcome)] := by
  induction l with
  | nil => simp at hn
  | cons p l ih =>
    rw [map_cons, nodup_cons] at h
    by_cases hp : p.1 = n
    · refine ⟨p.2, by simp [← hp], ?_⟩
      rw [filter_cons_of_pos (by simpa using hp), filter_fst_eq_nil (hp ▸ h.1), ← hp]
    · rw [map_cons, mem_cons] at hn
      obtain ⟨outcome, hmem, hfilter⟩ := ih h.2 (hn.resolve_left (Ne.symm hp))
      refine ⟨outcome, mem_cons_of_mem _ hmem, ?_⟩
      rw [filter_cons_of_neg (by simpa using hp), hfilter]

theorem Tracked.served (h : Tracked s) (hn : n < s.nextGeneration) : Served s n := by
  rcases h.covered n hn with hfly | hmem
  · exact .inl ⟨hfly, filter_fst_eq_nil (h.silent n hfly)⟩
  · obtain ⟨outcome, hout, hfilter⟩ := filter_fst_of_nodup h.once hmem
    exact .inr ⟨fun hfly => h.silent n hfly hmem, outcome, h.terminal _ hout, hfilter⟩

/-- Two guards of one base, of which the second was handed out later: the first is not current. -/
theorem Traced.superseded (h : Traced w) (hi : w.issued[i]? = some g) (hj : w.issued[j]? = some g')
    (hij : i < j) (hbase : g.base = g'.base) : g.isCurrent w.state = false := by
  by_contra hcur
  rw [Bool.not_eq_false] at hcur
  obtain ⟨flight, hf, hgen⟩ := isCurrent_iff.mp hcur
  obtain ⟨hilt, rfl⟩ := List.getElem?_eq_some_iff.mp hi
  obtain ⟨hjlt, rfl⟩ := List.getElem?_eq_some_iff.mp hj
  have hlt := pairwise_iff_getElem.mp h.ascending i j hilt hjlt hij
  have hle := h.newest _ (getElem_mem hjlt) flight (hbase ▸ hf)
  rw [hgen] at hle
  exact absurd hlt (not_lt.mpr hle)

theorem Traced.current_unique (h : Traced w) (hi : w.guards[i]? = some g)
    (hj : w.guards[j]? = some g') (hbase : g.base = g'.base) (hg : g.isCurrent w.state = true)
    (hg' : g'.isCurrent w.state = true) : i = j := by
  obtain ⟨flight, hf, hgen⟩ := isCurrent_iff.mp hg
  obtain ⟨flight', hf', hgen'⟩ := isCurrent_iff.mp hg'
  rw [hbase, hf'] at hf
  cases hf
  have hpair := pairwise_iff_getElem.mp (h.ascending.sublist h.guards)
  obtain ⟨hilt, rfl⟩ := List.getElem?_eq_some_iff.mp hi
  obtain ⟨hjlt, rfl⟩ := List.getElem?_eq_some_iff.mp hj
  have heq := hgen.symm.trans hgen'
  rcases lt_trichotomy i j with hij | hij | hij
  · exact absurd heq (hpair i j hilt hjlt hij).ne
  · exact hij
  · exact absurd heq (hpair j i hjlt hilt hij).ne'

/-- **Purges beat fills**: in every state of a run a base has at most one current guard, a guard
that was purged, cancelled or superseded can change nothing, and a follower was told one final
outcome just when its flight left the table. -/
theorem run_purge_beats_fill [Crates] (shared : Shared) (ops : List Op) :
    (∀ (i j : ℕ) (g g' : FillGuard), (run shared ops).guards[i]? = some g →
      (run shared ops).guards[j]? = some g' →
      g.base = g'.base → g.isCurrent (run shared ops).state = true →
      g'.isCurrent (run shared ops).state = true → i = j) ∧ (∀ g ∈ (run shared ops).issued, ∀ op,
        Cancels shared.config (run shared ops).state g.base op → ∀ later, g.Lost shared.config
            (runFrom shared (step shared (run shared ops) op) later).state)
    ∧ (∀ (i j : ℕ) (g g' : FillGuard), (run shared ops).issued[i]? = some g →
      (run shared ops).issued[j]? = some g' →
        i < j → g.base = g'.base → g.Lost shared.config (run shared ops).state)
    ∧ ∀ n ∈ (run shared ops).waiters, Served (run shared ops).state n := by
  have h := traced_run shared ops
  refine ⟨?_, ?_, ?_, ?_⟩
  · intro i j g g' hi hj hbase hg hg'
    exact h.current_unique hi hj hbase hg hg'
  · intro g hg op hop later
    refine lost_of_not_current ?_
    have hlost : g.isCurrent (step shared (run shared ops) op).state = false := by
      rw [isCurrent, State.generationMatches, hop.step]
      rfl
    exact not_current_runFrom (traced_step h) (issued_step hg) hlost
  · intro i j g g' hi hj hij hbase
    exact lost_of_not_current (h.superseded hi hj hij hbase)
  · intro n hn
    exact h.tracked.served (h.waiting n hn)

end World

end Oxiroute.Cache
