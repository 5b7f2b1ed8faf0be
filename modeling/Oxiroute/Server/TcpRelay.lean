import Oxiroute.Http.Header
import Oxiroute.Lib.Runs

/-!
# The TCP relay

Model of `relay_streams` and `DirectionState` of `crates/oxiroute-server/src/tcp_relay.rs`. Each
round of the loop polls a new step of both directions and ends with the first one that completes.
The step of the other direction is dropped where it is suspended.

* `Answer` is what an operation of a stream has returned when its step completes or is dropped.
* `received` and `accepted` are ghost data: all bytes that were read, and all that the writer has
  taken.
* `Flushing`: a step that is dropped here has written bytes that it does not count.

A step that is dropped while it flushes leaves `written` behind the writer, and the next step writes
the same bytes again. `run_delivers` says that each direction is a pipe in the runs without such a
round.
-/

namespace Oxiroute.Server

open Lib Http List

/-- What an operation of a stream has returned so far. -/
inductive Answer (α : Type) where
  | ready (value : α)
  | failed
  | pending
  deriving DecidableEq

/-- The answers that one step of a direction meets. -/
structure StepAnswers where
  write : Answer ℕ
  flush : Answer Unit
  read : Answer Bytes
  shutdown : Answer Unit
  deriving DecidableEq

/-- The write takes at least one byte. -/
def StepAnswers.accepts (a : StepAnswers) : Bool :=
  match a.write with
  | .ready n => decide (0 < n)
  | _ => false

def relayBufferSize : ℕ := 16 * 1024

inductive RelayOperation where
  | read
  | write
  | shutdown
  deriving DecidableEq

inductive DirectionProgress where
  | read (bytes : ℕ)
  | written (bytes : ℕ)
  | finished
  deriving DecidableEq

/-- Where a step is when its round ends. -/
inductive StepOutcome where
  | done (progress : DirectionProgress)
  | failed (operation : RelayOperation)
  | suspended
  deriving DecidableEq

/-- `DirectionState`. The buffer is the part that the last read has filled. -/
structure DirectionState where
  buffer : Bytes
  written : ℕ
  finished : Bool
  received : Bytes
  accepted : Bytes
  deriving DecidableEq

namespace DirectionState

def new : DirectionState := ⟨[], 0, false, [], []⟩

/-- The bytes that a `write` which returns `n` has taken. -/
def taken (n : ℕ) (d : DirectionState) : Bytes := (d.buffer.drop d.written).take n

variable (a : StepAnswers) (d : DirectionState)

/-- The writing branch of `step`. -/
def writeStep : DirectionState × StepOutcome :=
  match a.write with
  | .pending => (d, .suspended)
  | .failed => (d, .failed .write)
  | .ready n =>
    if d.taken n = [] then (d, .failed .write)
    else
      -- the writer has the bytes from here on, also when the flush does not return
      let accepting := { d with accepted := d.accepted ++ d.taken n }
      match a.flush with
      | .pending => (accepting, .suspended)
      | .failed => (accepting, .failed .write)
      | .ready () =>
        ({ accepting with written := d.written + (d.taken n).length },
          .done (.written (d.taken n).length))

/-- The reading branch of `step`. -/
def readStep : DirectionState × StepOutcome :=
  match a.read with
  | .pending => (d, .suspended)
  | .failed => (d, .failed .read)
  | .ready bytes =>
    let chunk := bytes.take relayBufferSize
    if chunk ≠ [] then
      ({ d with buffer := chunk, written := 0, received := d.received ++ chunk },
        .done (.read chunk.length))
    else
      match a.shutdown with
      | .pending => (d, .suspended)
      | .failed => (d, .failed .shutdown)
      | .ready () => ({ d with finished := true }, .done .finished)

def step : DirectionState × StepOutcome :=
  if d.written < d.buffer.length then d.writeStep a else d.readStep a

/-- A direction whose step did not complete in a round: it was suspended, or not polled. -/
def dropped : DirectionState :=
  if d.finished = false ∧ (d.step a).2 = .suspended then (d.step a).1 else d

/-- A step with these answers is suspended between a write and its flush. -/
def Flushing : Prop :=
  d.finished = false ∧ d.written < d.buffer.length ∧ a.accepts = true ∧ a.flush = .pending

instance (a : StepAnswers) (d : DirectionState) : Decidable (d.Flushing a) :=
  inferInstanceAs (Decidable (_ ∧ _))

end DirectionState

inductive RelayDirection where
  | clientToUpstream
  | upstreamToClient
  deriving DecidableEq

/-- `RelayFailureKind`, as far as the loop returns it. -/
inductive RelayFailureKind where
  | cancelled
  | lifetimeTimeout
  | idleTimeout
  | io (direction : RelayDirection) (operation : RelayOperation)
  | accounting
  deriving DecidableEq

structure RelayStats where
  bytesReceived : ℕ
  bytesSent : ℕ
  deriving DecidableEq

/-- `account_progress`. The connection's own counters take the bytes, or they overflow. -/
def accountProgress (recorded : Bool) (stats : RelayStats) :
    RelayDirection → DirectionProgress → Option RelayStats
  | .clientToUpstream, .read bytes =>
    if recorded then some { stats with bytesReceived := stats.bytesReceived + bytes } else none
  | .upstreamToClient, .written bytes =>
    if recorded then some { stats with bytesSent := stats.bytesSent + bytes } else none
  | _, _ => some stats

/-- What `relay_streams` has returned. -/
inductive RelayResult where
  | ok
  | failure (kind : RelayFailureKind)
  deriving DecidableEq

/-- The state of `relay_streams`. -/
structure Relay where
  clientToUpstream : DirectionState
  upstreamToClient : DirectionState
  stats : RelayStats
  result : Option RelayResult
  deriving DecidableEq

/-- How a round ends: a direction completes its step, or a deadline or the shutdown comes first. -/
inductive RelayRound where
  | progress (direction : RelayDirection) (step other : StepAnswers) (recorded : Bool)
  | interrupted (kind : RelayFailureKind) (clientToUpstream upstreamToClient : StepAnswers)
  deriving DecidableEq

namespace Relay

/-- `relay_streams` before its first round. -/
def new : Relay := ⟨.new, .new, ⟨0, 0⟩, none⟩

/-- The rest of a round, after the step of `direction` has ended. -/
def settle (direction : RelayDirection) (outcome : StepOutcome) (recorded : Bool) (r : Relay) :
    Relay :=
  match outcome with
  | .suspended => r
  | .failed operation => { r with result := some (.failure (.io direction operation)) }
  | .done progress =>
    match accountProgress recorded r.stats direction progress with
    | none => { r with result := some (.failure .accounting) }
    | some stats =>
      { r with
        stats
        result := if r.clientToUpstream.finished ∧
          r.upstreamToClient.finished then some .ok else none }

/-- One round of the loop. A round in which no step completes is none. -/
def round (r : Relay) (next : RelayRound) : Relay :=
  if r.result.isSome then r
  else
    match next with
    | .progress .clientToUpstream a other recorded =>
      if r.clientToUpstream.finished ∨ (r.clientToUpstream.step a).2 = .suspended then r
      else
        { r with
          clientToUpstream := (r.clientToUpstream.step a).1
          upstreamToClient := r.upstreamToClient.dropped other }.settle
            .clientToUpstream (r.clientToUpstream.step a).2 recorded
    | .progress .upstreamToClient a other recorded =>
      if r.upstreamToClient.finished ∨ (r.upstreamToClient.step a).2 = .suspended then r
      else
        { r with
          upstreamToClient := (r.upstreamToClient.step a).1
          clientToUpstream := r.clientToUpstream.dropped other }.settle
            .upstreamToClient (r.upstreamToClient.step a).2 recorded
    | .interrupted kind client upstream =>
      { r with
        clientToUpstream := r.clientToUpstream.dropped client
        upstreamToClient := r.upstreamToClient.dropped upstream
        result := some (.failure kind) }

def run (rounds : List RelayRound) : Relay := rounds.foldl round new

/-- The step that the round of the other direction drops is not inside a flush. -/
def KeepsFlush (r : Relay) : RelayRound → Prop
  | .progress .clientToUpstream _ other _ => ¬ r.upstreamToClient.Flushing other
  | .progress .upstreamToClient _ other _ => ¬ r.clientToUpstream.Flushing other
  | .interrupted _ _ _ => True

instance (r : Relay) : ∀ next, Decidable (r.KeepsFlush next)
  | .progress .clientToUpstream _ _ _ => inferInstanceAs (Decidable (¬ _))
  | .progress .upstreamToClient _ _ _ => inferInstanceAs (Decidable (¬ _))
  | .interrupted _ _ _ => .isTrue trivial

end Relay

/-! ## One direction -/

def DirectionProgress.bytesRead : DirectionProgress → ℕ
  | .read bytes => bytes
  | _ => 0

def DirectionProgress.bytesWritten : DirectionProgress → ℕ
  | .written bytes => bytes
  | _ => 0

namespace DirectionState

/-- A direction has delivered everything but the rest of its buffer. -/
structure Faithful (d : DirectionState) : Prop where
  received : d.received = d.accepted ++ d.buffer.drop d.written
  finished : d.finished = true → d.buffer.length ≤ d.written

/-- A completed step and its count. -/
structure Completes (progress : DirectionProgress) (d d' : DirectionState) : Prop where
  faithful : d'.Faithful
  received : d'.received.length = d.received.length + progress.bytesRead
  accepted : d'.accepted.length = d.accepted.length + progress.bytesWritten

variable {a : StepAnswers} {d : DirectionState}

theorem faithful_new : new.Faithful := ⟨rfl, nofun⟩

theorem Faithful.prefix_received (h : d.Faithful) : d.accepted <+: d.received :=
  ⟨_, h.received.symm⟩

theorem Faithful.delivered (h : d.Faithful) (hwritten : d.buffer.length ≤ d.written) :
    d.accepted = d.received := by
  rw [h.received, drop_eq_nil_of_le hwritten, append_nil]

theorem Faithful.received_taken (h : d.Faithful) (n : ℕ) :
    d.received = d.accepted ++ d.taken n ++ d.buffer.drop (d.written + (d.taken n).length) := by
  have hrest : d.buffer.drop d.written = d.taken n ++
    d.buffer.drop (d.written + (d.taken n).length) := by
    rw [← drop_drop]
    refine (prefix_iff_eq_append.mp ?_).symm
    exact take_prefix n _
  rw [append_assoc, ← hrest]
  exact h.received

/-- What a step can do: nothing, leave its bytes with the writer, or complete. -/
inductive Stepped (a : StepAnswers) (d : DirectionState) : DirectionState × StepOutcome → Prop where
  | idle {outcome : StepOutcome} (h : ∀ progress, outcome ≠ .done progress) :
      Stepped a d (d, outcome)
  | accepted (n : ℕ) {outcome : StepOutcome} (h : ∀ progress, outcome ≠ .done progress)
    (flushing : outcome = .suspended → d.finished = false → d.Flushing a) :
    Stepped a d ({ d with accepted := d.accepted ++ d.taken n }, outcome)
  | written (n : ℕ) : Stepped a d ({ d with
      accepted := d.accepted ++ d.taken n
      written := d.written + (d.taken n).length }, .done (.written (d.taken n).length))
  | read (chunk : Bytes) (h : d.buffer.length ≤ d.written) :
    Stepped a d ({ d with buffer := chunk, written := 0, received := d.received ++ chunk },
      .done (.read chunk.length))
  | finished (h : d.buffer.length ≤ d.written) :
      Stepped a d ({ d with finished := true }, .done .finished)

theorem step_stepped (a : StepAnswers) (d : DirectionState) : Stepped a d (d.step a) := by
  unfold step
  split
  · rename_i hpending
    unfold writeStep
    split
    · exact .idle nofun
    · exact .idle nofun
    · rename_i n hwrite
      split
      · exact .idle nofun
      rename_i htaken
      split
      · rename_i hflush
        have hn : 0 < n := Nat.pos_of_ne_zero fun hzero => htaken (by rw [taken, hzero, take_zero])
        have haccepts : a.accepts = true := by simp [StepAnswers.accepts, hwrite, hn]
        exact .accepted n nofun fun _ hopen => ⟨hopen, hpending, haccepts, hflush⟩
      · exact .accepted n nofun nofun
      · exact .written n
  · rename_i hwritten
    have hwritten := Nat.le_of_not_lt hwritten
    unfold readStep
    split
    · exact .idle nofun
    · exact .idle nofun
    · dsimp only
      split
      · exact .read _ hwritten
      · split
        · exact .idle nofun
        · exact .idle nofun
        · exact .finished hwritten

/-- What the writer has is a prefix of what was read, wherever a step ends. -/
theorem Faithful.step_prefix (h : d.Faithful) :
    (d.step a).1.accepted <+: (d.step a).1.received := by
  have htaken : ∀ n, d.accepted ++ d.taken n <+: d.received := fun n =>
    ⟨_, (h.received_taken n).symm⟩
  have hstep := step_stepped a d
  generalize d.step a = result at hstep ⊢
  cases hstep with
  | idle | finished => exact h.prefix_received
  | accepted n | written n => exact htaken n
  | read => exact h.prefix_received.trans (prefix_append _ _)

/-- A completed step stays faithful, and its progress counts what it has moved. -/
theorem Faithful.completes (h : d.Faithful) (hopen : d.finished = false)
    {progress : DirectionProgress}
    (hdone : (d.step a).2 = .done progress) : Completes progress d (d.step a).1 := by
  have hstep := step_stepped a d
  generalize d.step a = result at hstep hdone ⊢
  cases hstep with
  | idle hidle => exact absurd hdone (hidle progress)
  | accepted n hout => exact absurd hdone (hout progress)
  | written n =>
    cases hdone
    exact ⟨⟨h.received_taken n, fun hfinished => nomatch hopen.symm.trans hfinished⟩, rfl,
      length_append⟩
  | read chunk hwritten =>
    cases hdone
    refine ⟨⟨?_, fun hfinished => nomatch hopen.symm.trans hfinished⟩, length_append, rfl⟩
    change d.received ++ chunk = d.accepted ++ chunk
    rw [h.delivered hwritten]
  | finished hwritten =>
    cases hdone
    exact ⟨⟨h.received, fun _ => hwritten⟩, rfl, rfl⟩

theorem Faithful.dropped_prefix (h : d.Faithful) :
    (d.dropped a).accepted <+: (d.dropped a).received := by
  unfold dropped
  split
  · exact h.step_prefix
  · exact h.prefix_received

theorem dropped_of_not_flushing (h : ¬ d.Flushing a) : d.dropped a = d := by
  unfold dropped
  split
  · rename_i hdropped
    obtain ⟨hopen, hsuspended⟩ := hdropped
    have hstep := step_stepped a d
    generalize d.step a = result at hstep hsuspended ⊢
    cases hstep with
    | idle => rfl
    | accepted n _ hflushing => exact absurd (hflushing hsuspended hopen) h
    | written | read | finished => cases hsuspended
  · rfl

end DirectionState

/-! ## Both directions -/

namespace Relay

open DirectionState

/-- Both directions are pipes, and the statistics count what went through them. -/
structure Piped (r : Relay) : Prop where
  client : r.clientToUpstream.Faithful
  upstream : r.upstreamToClient.Faithful
  bytesReceived : r.stats.bytesReceived = r.clientToUpstream.received.length
  bytesSent : r.stats.bytesSent = r.upstreamToClient.accepted.length

/-- What each writer has is a prefix of what was read. -/
def Ordered (r : Relay) : Prop :=
  r.clientToUpstream.accepted <+: r.clientToUpstream.received ∧
    r.upstreamToClient.accepted <+: r.upstreamToClient.received

/-- After `Ok` everything that was read has been delivered, and the statistics count it. -/
def Delivered (r : Relay) : Prop :=
  r.clientToUpstream.accepted = r.clientToUpstream.received ∧
    r.upstreamToClient.accepted = r.upstreamToClient.received ∧
    r.stats.bytesReceived = r.clientToUpstream.accepted.length ∧
    r.stats.bytesSent = r.upstreamToClient.accepted.length

/-- The invariant of the loop: a relay that has not failed is piped. -/
structure Sound (r : Relay) : Prop where
  ordered : r.Ordered
  piped : (∀ kind, r.result ≠ some (.failure kind)) → r.Piped
  finished : r.result = some .ok → r.clientToUpstream.finished = true ∧
    r.upstreamToClient.finished = true

variable {r : Relay}

theorem Piped.delivered (h : r.Piped)
    (hfinished : r.clientToUpstream.finished = true ∧ r.upstreamToClient.finished = true) :
    r.Delivered := by
  have hclient := h.client.delivered (h.client.finished hfinished.1)
  have hupstream := h.upstream.delivered (h.upstream.finished hfinished.2)
  exact ⟨hclient, hupstream, hclient ▸ h.bytesReceived, h.bytesSent⟩

variable {recorded : Bool} {direction : RelayDirection}

/-- What is counted: the reads from the client and the writes to it. -/
theorem accountProgress_some {stats stats' : RelayStats} {progress : DirectionProgress}
    (h : accountProgress recorded stats direction progress = some stats') :
    (stats'.bytesReceived = stats.bytesReceived +
        if direction = .clientToUpstream then progress.bytesRead else 0) ∧
      stats'.bytesSent = stats.bytesSent +
        if direction = .upstreamToClient then progress.bytesWritten else 0 := by
  revert h
  cases direction <;> cases progress <;> cases recorded <;> rintro ⟨⟩ <;> exact ⟨rfl, rfl⟩

theorem sound_of_failure {kind : RelayFailureKind} (h : r.Ordered)
    (hresult : r.result = some (.failure kind)) :
    r.Sound :=
  ⟨h, fun hnone => absurd hresult (hnone kind), fun hok => nomatch hresult.symm.trans hok⟩

/-- The end of a round, from the relay with the new directions and the old statistics. -/
theorem sound_settle {outcome : StepOutcome} (hsuspended : outcome ≠ .suspended)
    (hordered : r.Ordered) (hpiped : ∀ progress stats, outcome = .done progress →
      accountProgress recorded r.stats direction progress = some stats → { r with stats }.Piped) :
    (r.settle direction outcome recorded).Sound := by
  unfold settle
  split
  · exact absurd rfl hsuspended
  · exact sound_of_failure hordered rfl
  · split
    · exact sound_of_failure hordered rfl
    · rename_i progress _ stats hstats
      have h := hpiped progress stats rfl hstats
      refine ⟨hordered, fun _ =>
        ⟨h.client, h.upstream, h.bytesReceived, h.bytesSent⟩, fun hok => ?_⟩
      split at hok
      · assumption
      · cases hok

theorem Sound.round (h : r.Sound) {next : RelayRound} (hkeeps : r.KeepsFlush next) :
    (r.round next).Sound := by
  unfold Relay.round
  split
  · exact h
  rename_i hresult
  have hopen : r.result = none := Option.not_isSome_iff_eq_none.mp hresult
  have hpiped : r.Piped := h.piped fun kind hfailure => nomatch hopen.symm.trans hfailure
  split
  · split
    · exact h
    rename_i hends
    rw [not_or, Bool.not_eq_true] at hends
    rw [dropped_of_not_flushing hkeeps]
    refine sound_settle hends.2 ⟨hpiped.client.step_prefix, hpiped.upstream.prefix_received⟩ ?_
    intro progress stats hdone hstats
    have hstep := hpiped.client.completes hends.1 hdone
    refine ⟨hstep.faithful, hpiped.upstream, ?_, ?_⟩
    · rw [(accountProgress_some hstats).1, hpiped.bytesReceived]
      exact hstep.received.symm
    · exact (accountProgress_some hstats).2.trans hpiped.bytesSent
  · split
    · exact h
    rename_i hends
    rw [not_or, Bool.not_eq_true] at hends
    rw [dropped_of_not_flushing hkeeps]
    refine sound_settle hends.2 ⟨hpiped.client.prefix_received, hpiped.upstream.step_prefix⟩ ?_
    intro progress stats hdone hstats
    have hstep := hpiped.upstream.completes hends.1 hdone
    refine ⟨hpiped.client, hstep.faithful, ?_, ?_⟩
    · exact (accountProgress_some hstats).1.trans hpiped.bytesReceived
    · rw [(accountProgress_some hstats).2, hpiped.bytesSent]
      exact hstep.accepted.symm
  · exact sound_of_failure ⟨hpiped.client.dropped_prefix, hpiped.upstream.dropped_prefix⟩ rfl

theorem sound_new : new.Sound where
  ordered := ⟨prefix_rfl, prefix_rfl⟩
  piped _ := ⟨faithful_new, faithful_new, rfl, rfl⟩
  finished := nofun

/-- **The relay is a faithful pipe**: in a run that never drops a step inside a flush, what each
writer has is a prefix of what was read, and after `Ok` it is all of it, as the statistics say. -/
theorem run_delivers (rounds : List RelayRound) (h : EveryStep Relay.round KeepsFlush new rounds) :
    (run rounds).Ordered ∧ ((run rounds).result = some .ok → (run rounds).Delivered) := by
  have hsound : (run rounds).Sound :=
    foldl_induct (fun _ next hs hc => hs.round hc) rounds new sound_new h
  refine ⟨hsound.ordered, fun hok => ?_⟩
  have hpiped := hsound.piped fun kind hfailure => nomatch hok.symm.trans hfailure
  exact hpiped.delivered (hsound.finished hok)

/-- Answers of a step that reads these bytes, or writes as many. -/
def moving (bytes : Bytes) : StepAnswers := ⟨.ready bytes.length, .ready (), .ready bytes, .pending⟩

/-- Answers of a step whose reader is at its end. -/
def ending : StepAnswers := ⟨.pending, .pending, .ready [], .ready ()⟩

/-- Answers of a step that waits, in its read or in its flush. -/
def waiting (accepted : ℕ) : StepAnswers :=
  ⟨if accepted = 0 then .pending else .ready accepted, .pending, .pending, .pending⟩

/-- A byte from the client to the upstream, one back, and the two ends. The parameter is what the
client's step has written when the upstream's byte comes. -/
def exchange (accepted : ℕ) : List RelayRound :=
  [.progress .clientToUpstream (moving [7]) (waiting 0) true,
    .progress .upstreamToClient (moving [9]) (waiting accepted) true,
    .progress .clientToUpstream (moving [7]) (waiting 0) true,
    .progress .upstreamToClient (moving [9]) (waiting 0) true,
    .progress .upstreamToClient ending (waiting 0) true,
    .progress .clientToUpstream ending (waiting 0) true]

theorem run_delivers_exchange :
    (run (exchange 0)).result = some .ok ∧ (run (exchange 0)).Delivered := by
  have hok : (run (exchange 0)).result = some .ok := by decide
  exact ⟨hok, (run_delivers _ (by decide)).2 hok⟩

/-- The client's byte is in the upstream's writer when the round ends, and is written once more. -/
theorem run_duplicates_byte :
    (run (exchange 1)).result = some .ok ∧ (run (exchange 1)).clientToUpstream.received = [7] ∧
      (run (exchange 1)).clientToUpstream.accepted = [7, 7] ∧ ¬ (run (exchange 1)).Ordered ∧
      ¬ (run (exchange 1)).Delivered := by
  have hreceived : (run (exchange 1)).clientToUpstream.received = [7] := by decide
  have haccepted : (run (exchange 1)).clientToUpstream.accepted = [7, 7] := by decide
  refine ⟨by decide, hreceived, haccepted, fun hordered => ?_, fun hdelivered => ?_⟩
  · have hprefix := hordered.1
    rw [hreceived, haccepted] at hprefix
    simp at hprefix
  · have hequal := hdelivered.1
    rw [hreceived, haccepted] at hequal
    simp at hequal

end Relay

end Oxiroute.Server
