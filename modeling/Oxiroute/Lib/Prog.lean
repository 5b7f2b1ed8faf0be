import Mathlib.Algebra.Order.Ring.Nat

/-!
# Programs whose state survives an error

`Prog σ ε α` is a computation over a mutable state `σ` that returns an `α` or fails with an `ε`.
Unlike `StateT σ (Except ε)`, a failing computation keeps every change it made before the
failure: it is what a method on `&mut self` returning `Result<α, ε>` does.

`wp x Q s` says that `x`, started in `s`, ends with a result and a state that satisfy `Q`; the
result is the `Except` value, so one postcondition covers the success and the failure exit. The
rules below take a proof apart along the program text. `Keeps` is the special case of a property
that every exit preserves, `Ends` the one of a computation that succeeds.
-/

namespace Oxiroute.Lib

/-! ## Results -/

section Results

variable {ε α β : Type} {x : Except ε α} {a : α}

theorem mapError_eq_ok {ε' : Type} {f : ε → ε'} : x.mapError f = .ok a ↔ x = .ok a := by
  cases x <;> simp [Except.mapError]

theorem bind_eq_ok {f : α → Except ε β} {b : β} :
    (x >>= f) = .ok b ↔ ∃ a, x = .ok a ∧ f a = .ok b := by
  cases x with
  | error e | ok a => simp [bind, Except.bind]

theorem guard_eq_ok {p : Prop} [Decidable p] {e : ε} :
    (if p then .error e else x) = .ok a ↔ ¬p ∧ x = .ok a := by
  by_cases hp : p <;> simp [hp]

end Results

/-- A computation over a state that is kept when the computation fails. -/
structure Prog (σ ε α : Type) where
  run : σ → Except ε α × σ

namespace Prog

variable {σ ε α β : Type}

instance : CoeFun (Prog σ ε α) fun _ => σ → Except ε α × σ := ⟨run⟩

instance : Monad (Prog σ ε) where
  pure a := ⟨fun s => (.ok a, s)⟩
  bind x f := ⟨fun s =>
    match x s with
    | (.ok a, s') => f a s'
    | (.error e, s') => (.error e, s')⟩

def get : Prog σ ε σ := ⟨fun s => (.ok s, s)⟩

def modify (f : σ → σ) : Prog σ ε Unit := ⟨fun s => (.ok (), f s)⟩

/-- Fail, keeping the state. -/
def throw (e : ε) : Prog σ ε α := ⟨fun s => (.error e, s)⟩

/-- A pure fallible value; `?` on a `Result`. -/
def ofExcept (r : Except ε α) : Prog σ ε α := ⟨fun s => (r, s)⟩

/-- `ok_or`: a missing value is the error `e`. -/
def okOr (o : Option α) (e : ε) : Prog σ ε α :=
  match o with
  | some a => pure a
  | none => throw e

/-- Run `x` and hand its result on as a value: a `match` on the returned `Result`. -/
def attempt (x : Prog σ ε α) : Prog σ ε (Except ε α) := ⟨fun s => (.ok (x s).1, (x s).2)⟩

/-- Run `f` on every element of a list, stopping at the first failure. -/
def forEach : List α → (α → Prog σ ε Unit) → Prog σ ε Unit
  | [], _ => pure ()
  | a :: as, f => f a >>= fun _ => forEach as f

/-! ## Running a program -/

variable {a : α} {x : Prog σ ε α} {s' : σ} {r : Except ε α} {e : ε} {f : α → Prog σ ε β} {p : Prop}

@[simp] theorem pure_run {s : σ} : (pure a : Prog σ ε α) s = (.ok a, s) := rfl

@[simp] theorem get_run (s : σ) : (get : Prog σ ε σ) s = (.ok s, s) := rfl

@[simp] theorem modify_run {f : σ → σ} {s : σ} : (modify f : Prog σ ε Unit) s = (.ok (), f s) := rfl

theorem attempt_run {s : σ} (h : x s = (r, s')) : attempt x s = (.ok r, s') := by
  change (Except.ok (x s).1, (x s).2) = _
  rw [h]

@[simp] theorem throw_run {s : σ} : (throw e : Prog σ ε α) s = (.error e, s) := rfl

@[simp] theorem ofExcept_run {s : σ} : (ofExcept r : Prog σ ε α) s = (r, s) := rfl

@[simp] theorem okOr_some : (okOr (some a) e : Prog σ ε α) = pure a := rfl

@[simp] theorem okOr_none : (okOr (none : Option α) e : Prog σ ε α) = throw e := rfl

theorem bind_run {s : σ} : (x >>= f) s =
      match x s with
      | (.ok a, s') => f a s'
      | (.error e, s') => (.error e, s') := rfl

theorem bind_ok {s : σ} (h : x s = (.ok a, s')) : (x >>= f) s = f a s' := by
  rw [bind_run, h]

theorem bind_error {s : σ} (h : x s = (.error e, s')) : (x >>= f) s = (.error e, s') := by
  rw [bind_run, h]

theorem bind_bind {γ : Type} {g : β → Prog σ ε γ} {s : σ} :
    ((x >>= f) >>= g) s = (x >>= fun a => f a >>= g) s := by
  simp only [bind_run]
  rcases x s with ⟨_ | a, s'⟩ <;> rfl

theorem bind_eq_ok {s s'' : σ} {b : β} :
    (x >>= f) s = (.ok b, s'') ↔ ∃ a s', x s = (.ok a, s') ∧ f a s' = (.ok b, s'') := by
  rw [bind_run]
  rcases x s with ⟨_ | a, s'⟩
  · simp
  · constructor
    · intro h
      exact ⟨a, s', rfl, h⟩
    · rintro ⟨_, _, h, hf⟩
      obtain ⟨ha, rfl⟩ := Prod.mk.inj h
      cases ha
      exact hf

theorem guard_eq_ok [Decidable p] {s : σ} :
    (if p then throw e else x) s = (.ok a, s') ↔ ¬p ∧ x s = (.ok a, s') := by
  by_cases hp : p
  · simp [hp]
  · simp [hp]

/-- `x` fails in `s` and leaves `s` as it was. -/
def Rejects (x : Prog σ ε α) (s : σ) : Prop := ∃ e, x s = (.error e, s)

theorem rejects_throw {s : σ} : Rejects (throw e : Prog σ ε α) s := ⟨e, rfl⟩

theorem Rejects.bind {s : σ} (h : Rejects x s) : Rejects (x >>= f) s := by
  obtain ⟨e, he⟩ := h
  exact ⟨e, bind_error he⟩

theorem Rejects.after {s : σ} (hx : x s = (.ok a, s)) (h : Rejects (f a) s) :
    Rejects (x >>= f) s := by
  obtain ⟨e, he⟩ := h
  exact ⟨e, (bind_ok hx).trans he⟩

/-- An early return: a program guarded by `p` rejects where `p` holds. -/
theorem guard_cases {P : Prop} [Decidable p] {s : σ} (h : ¬p → P ∨ Rejects x s) :
    P ∨ Rejects (if p then throw e else x) s := by
  by_cases hp : p
  · rw [if_pos hp]
    exact .inr rejects_throw
  · rw [if_neg hp]
    exact h hp

/-! ## Runs with a history -/

section history

variable {η ω ο : Type}

/-- One call `op` on a state with a history of what its caller saw: a successful call is recorded,
a failed one leaves the history alone. -/
def observe (perform : ω → Prog σ ε ο) (record : η → ω → ο → η) (sh : σ × η) (op : ω) : σ × η :=
  match perform op sh.1 with
  | (.ok o, s') => (s', record sh.2 op o)
  | (.error _, s') => (s', sh.2)

/-- A state and its history after a sequence of calls. -/
def observeAll (perform : ω → Prog σ ε ο) (record : η → ω → ο → η) (sh : σ × η) (ops : List ω) :
    σ × η :=
  ops.foldl (observe perform record) sh

/-- **Invariants of runs with a history**: a relation between state and history that every
successful call keeps holds after any sequence of calls, if failing calls change nothing. -/
theorem observeAll_invariant {perform : ω → Prog σ ε ο} {record : η → ω → ο → η} {I : σ → η → Prop}
    (hstep : ∀ s h op, I s h →
      (∃ o s', perform op s = (.ok o, s') ∧ I s' (record h op o)) ∨ (perform op).Rejects s)
    (ops : List ω) : ∀ sh : σ × η, I sh.1 sh.2 →
      I (observeAll perform record sh ops).1 (observeAll perform record sh ops).2 := by
  induction ops with
  | nil => exact fun _ h => h
  | cons op ops ih =>
    intro sh h
    refine ih _ ?_
    unfold observe
    rcases hstep sh.1 sh.2 op h with ⟨o, s', hrun, h'⟩ | ⟨e, he⟩
    · rw [hrun]
      exact h'
    · rw [he]
      exact h

end history

/-! ## Weakest preconditions -/

/-- `x` started in `s` ends with a result and a state satisfying `Q`. -/
def wp (x : Prog σ ε α) (Q : Except ε α → σ → Prop) (s : σ) : Prop := Q (x s).1 (x s).2

variable {Q R : Except ε α → σ → Prop} {s : σ}

theorem wp_of_run (h : x s = (r, s')) (hq : Q r s') : wp x Q s := by
  unfold wp
  rw [h]
  exact hq

theorem wp_mono (h : wp x R s) (hq : ∀ r s', R r s' → Q r s') : wp x Q s :=
  hq _ _ h

theorem wp_pure (h : Q (.ok a) s) : wp (pure a) Q s := h

theorem wp_throw (h : Q (.error e) s) : wp (throw e) Q s := h

theorem wp_ofExcept (h : Q r s) : wp (ofExcept r) Q s := h

/-- **Sequencing**: the first part's postcondition `R` is the second part's precondition on the
success exit, and must give `Q` on the failure exit. -/
theorem wp_bind_at {Q : Except ε β → σ → Prop} (hx : wp x R s)
    (hok : ∀ a s', x s = (.ok a, s') → R (.ok a) s' → wp (f a) Q s')
    (herr : ∀ e s', R (.error e) s' → Q (.error e) s') : wp (x >>= f) Q s := by
  unfold wp at hx ⊢
  rw [bind_run]
  rcases hr : x s with ⟨e | a, s'⟩ <;> rw [hr] at hx
  · exact herr e s' hx
  · exact hok a s' hr hx

theorem wp_bind {Q : Except ε β → σ → Prop} (hx : wp x R s)
    (hok : ∀ a s', R (.ok a) s' → wp (f a) Q s')
      (herr : ∀ e s', R (.error e) s' → Q (.error e) s') :
    wp (x >>= f) Q s :=
  wp_bind_at hx (fun a s' _ => hok a s') herr

theorem wp_get_bind {f : σ → Prog σ ε β} {Q : Except ε β → σ → Prop} (h : wp (f s) Q s) :
    wp (get >>= f) Q s := h

/-! ## Invariants of a program -/

/-- `x` keeps the state property `I`, whether it succeeds or fails. -/
def Keeps (I : σ → Prop) (x : Prog σ ε α) : Prop := ∀ s, I s → I (x s).2

section keeps

variable {I : σ → Prop}

theorem keeps_pure (a : α) : Keeps I (pure a : Prog σ ε α) := fun _ h => h

theorem keeps_get : Keeps I (get : Prog σ ε σ) := fun _ h => h

variable {e : ε} {x : Prog σ ε α} {f : α → Prog σ ε β}

theorem keeps_throw : Keeps I (throw e : Prog σ ε α) := fun _ h => h

theorem keeps_ofExcept : Keeps I (ofExcept r : Prog σ ε α) := fun _ h => h

theorem keeps_okOr {o : Option α} : Keeps I (okOr o e : Prog σ ε α) := by
  cases o with
  | some a => exact keeps_pure a
  | none => exact keeps_throw

theorem keeps_modify {f : σ → σ} (h : ∀ s, I s → I (f s)) : Keeps I (modify f : Prog σ ε Unit) := h

theorem Keeps.bind_at (hx : Keeps I x)
    (hf : ∀ a s s', I s → x s = (.ok a, s') → I s' → I ((f a) s').2) : Keeps I (x >>= f) := by
  intro s hs
  rw [bind_run]
  have h := hx s hs
  rcases hr : x s with ⟨e | a, s'⟩ <;> rw [hr] at h
  · exact h
  · exact hf a s s' hs hr h

theorem Keeps.bind (hx : Keeps I x) (hf : ∀ a, Keeps I (f a)) : Keeps I (x >>= f) :=
  hx.bind_at fun a _ s' _ _ h => hf a s' h

theorem keeps_get_bind {f : σ → Prog σ ε β} (h : ∀ s, I s → I ((f s) s).2) :
    Keeps I (get >>= f) := h

theorem Keeps.ite [Decidable p] {y : Prog σ ε α} (hx : Keeps I x) (hy : Keeps I y) :
    Keeps I (if p then x else y) := by
  split
  · exact hx
  · exact hy

theorem Keeps.attempt (hx : Keeps I x) : Keeps I x.attempt := hx

theorem Keeps.forEach_mem {f : α → Prog σ ε Unit} :
    ∀ {as : List α}, (∀ a ∈ as, Keeps I (f a)) → Keeps I (forEach as f)
  | [], _ => keeps_pure ()
  | _ :: _, hf => (hf _ List.mem_cons_self).bind fun _ =>
      Keeps.forEach_mem fun a ha => hf a (List.mem_cons_of_mem _ ha)

theorem Keeps.forEach {f : α → Prog σ ε Unit} (hf : ∀ a, Keeps I (f a)) (as : List α) :
    Keeps I (forEach as f) := Keeps.forEach_mem fun a _ => hf a

end keeps

/-! ## Programs that succeed -/

/-- `x` started in `s` succeeds, with a result and a state satisfying `Q`. -/
def Ends (x : Prog σ ε α) (s : σ) (Q : α → σ → Prop) : Prop := ∃ a s', x s = (.ok a, s') ∧ Q a s'

section ends

variable {Q R : α → σ → Prop}

theorem ends_pure (h : Q a s) : Ends (pure a : Prog σ ε α) s Q := ⟨a, s, rfl, h⟩

variable {x : Prog σ ε α} {f : α → Prog σ ε β}

theorem Ends.mono (h : Ends x s R) (hq : ∀ a s', R a s' → Q a s') : Ends x s Q := by
  obtain ⟨a, s', hr, h⟩ := h
  exact ⟨a, s', hr, hq a s' h⟩

theorem Ends.bind_at {Q : β → σ → Prop} (hx : Ends x s R)
    (hf : ∀ a s', x s = (.ok a, s') → R a s' → Ends (f a) s' Q) : Ends (x >>= f) s Q := by
  obtain ⟨a, s', hr, h⟩ := hx
  obtain ⟨b, s'', hr', h'⟩ := hf a s' hr h
  exact ⟨b, s'', by rw [bind_ok hr, hr'], h'⟩

theorem Ends.bind {Q : β → σ → Prop} (hx : Ends x s R) (hf : ∀ a s', R a s' → Ends (f a) s' Q) :
    Ends (x >>= f) s Q :=
  hx.bind_at fun a s' _ h => hf a s' h

theorem Ends.wp {R : Except ε α → σ → Prop} (h : Ends x s Q) (hq : ∀ a s', Q a s' → R (.ok a) s') :
    wp x R s := by
  obtain ⟨a, s', hr, ha⟩ := h
  exact wp_of_run hr (hq a s' ha)

theorem Ends.of_eq {y : Prog σ ε α} {t : σ} (h : Ends y t Q) (he : x s = y t) : Ends x s Q := by
  obtain ⟨a, s', hr, h⟩ := h
  exact ⟨a, s', he.trans hr, h⟩

end ends

end Prog

end Oxiroute.Lib
