import Oxiroute.Rtmp.RegistrySteps

/-!
# The registry over whole runs

`run_consistent`: in every state of every run the indexes are inverse, every stream is occupied, the
counts are those of the live registrations and the snapshot is that of its revision; no step lowers
a revision, and one that fails changes nothing.

A publisher's registration knows its stream and its session, and not which of the session's
publications it was made for. So a registration that is no longer current has no effect in every run
where no session registers again for a stream it still holds an older registration of (`FreshRun`),
and `reregistered_dropped` is a run where it detaches its successor.
-/

namespace Oxiroute.Rtmp

open Lib RegistryWorld

variable {ρ σ : Type}

namespace RegistryWorld

variable {w : RegistryWorld ρ σ}

/-- The operations in order, each with the status the relays have then. -/
def run (w : RegistryWorld ρ σ) : List ((RelayId → σ) × RegistryOp ρ) → RegistryWorld ρ σ
  | [] => w
  | (status, op) :: ops => (w.step status op).2.run ops

/-- Every registration of a publisher in the run is a fresh one. -/
def FreshRun (w : RegistryWorld ρ σ) : List ((RelayId → σ) × RegistryOp ρ) → Prop
  | [] => True
  | (status, op) :: ops => w.FreshStep op ∧ (w.step status op).2.FreshRun ops

variable {capabilities : RtmpCapabilities} {ops : List ((RelayId → σ) × RegistryOp ρ)}

theorem new_consistent [Inhabited σ] : (new capabilities : RegistryWorld ρ σ).Consistent where
  sound := by
    refine ⟨⟨?_, ?_, ?_⟩, ⟨?_, ?_, UInt64.le_refl _⟩, ?_, ?_⟩
    · intro key id h
      cases h
    · intro id stream h
      cases h
    · intro id stream h
      cases h
    · exact fun _ => ⟨fun _ => default, rfl⟩
    · intro h
      cases h
    · intro id stream h
      cases h
    · intro id stream h
      cases h
  counted := fun _ _ => rfl
  handles := fun _ _ h => nomatch h

theorem Consistent.run (hC : w.Consistent) : (w.run ops).Consistent := by
  induction ops generalizing w with
  | nil => exact hC
  | cons op ops ih => exact ih (hC.step op.1 op.2).consistent

theorem Consistent.run_owned (hC : w.Consistent) (hO : w.Owned) (hfresh : w.FreshRun ops) :
    (w.run ops).Owned := by
  induction ops generalizing w with
  | nil => exact hO
  | cons op ops ih =>
    have hstep := hC.step op.1 op.2
    exact ih hstep.consistent (hstep.owned hfresh.1 hO) hfresh.2

/-- The registration is live, and the publisher it was made for is attached still. -/
def Current (w : RegistryWorld ρ σ) (r : PublisherRegistration) : Prop :=
  r.active = true ∧ ∃ stream, w.inner.streams.lookup r.streamId = some stream ∧
    stream.publisher.isSome = true ∧ stream.attachments = r.attachment

/-- The operation is made through the registration: on it, or while it is live with its stream and
session. -/
def Through (w : RegistryWorld ρ σ) (r : PublisherRegistration) : RegistryOp ρ → Prop
  | .releasePublisher handle _ => w.publishers.lookup handle = some r
  | .dropPublisher handle => w.publishers.lookup handle = some r
  | .updateMediaSample id session _ _ _ =>
    (∃ handle, w.publishers.lookup handle = some r) ∧ r.active = true ∧ r.streamId = id ∧
      r.sessionId = session
  | .updateRecorders id session _ _ =>
    (∃ handle, w.publishers.lookup handle = some r) ∧ r.active = true ∧ r.streamId = id ∧
      r.sessionId = session
  | _ => False

variable {r : PublisherRegistration}

/-- The stream of an entitled registration that is not current is not published by its session. -/
theorem Owned.not_publishing (hO : w.Owned) {handle : ℕ} (hr : w.publishers.lookup handle = some r)
    (hactive : r.active = true) (hstale : ¬ w.Current r) {stream : MutableStream ρ}
    (hs : w.inner.streams.lookup r.streamId = some stream) :
    stream.publisherSession ≠ some r.sessionId := by
  intro hsession
  refine hstale ⟨hactive, stream, hs, ?_, (hO handle r hr).same hactive stream hs hsession⟩
  obtain ⟨publisher, hp, -⟩ := Option.map_eq_some_iff.mp hsession
  rw [hp]
  rfl

/-- **Stale registrations**: an operation through a registration that is no longer current does not
touch the registry. -/
theorem Owned.stale (hO : w.Owned) (hC : w.Consistent) (hstale : ¬ w.Current r)
    {status : RelayId → σ} {op : RegistryOp ρ} (hop : w.Through r op) :
    (w.step status op).2.inner = w.inner := by
  have hdetach : ∀ {handle}, w.publishers.lookup handle = some r → r.active = true →
      ∀ atUnixMs, ∃ e, w.inner.detachPublisherInner status r.streamId r.sessionId atUnixMs =
        (.error e, w.inner) := by
    intro handle hr hactive atUnixMs
    rcases hC.sound.indexed.detachPublisherInner_spec status _ atUnixMs _ with
      ⟨e, heq, -⟩ | ⟨stream, -, -, hs, hsession, -⟩
    · exact ⟨e, heq⟩
    · exact absurd hsession (hO.not_publishing hr hactive hstale hs)
  cases op with
  | releasePublisher handle atUnixMs =>
    have hr : w.publishers.lookup handle = some r := hop
    simp only [step, releasePublisher, hr]
    split_ifs with hactive
    · obtain ⟨e, heq⟩ := hdetach hr hactive (max atUnixMs r.lastObservedAtUnixMs)
      simp only [heq]
    · rfl
  | dropPublisher handle =>
    have hr : w.publishers.lookup handle = some r := hop
    simp only [step, dropPublisher, hr]
    split_ifs with hactive
    · obtain ⟨e, heq⟩ := hdetach hr hactive r.lastObservedAtUnixMs
      simp only [heq]
    · rfl
  | updateMediaSample id session sequence media atUnixMs =>
    obtain ⟨⟨handle, hr⟩, hactive, rfl, rfl⟩ := hop
    rcases hC.sound.indexed.updateMediaSample_spec r.sessionId atUnixMs r.streamId sequence
      media with
      ⟨e, heq⟩ | ⟨stream, -, hs, hsession, -⟩
    · simp only [step, heq]
    · exact absurd hsession (hO.not_publishing hr hactive hstale hs)
  | updateRecorders id session change atUnixMs =>
    obtain ⟨⟨handle, hr⟩, hactive, rfl, rfl⟩ := hop
    rcases hC.sound.indexed.updateRecorders_spec r.sessionId atUnixMs r.streamId change with
      heq | ⟨stream, -, hs, hsession, -⟩
    · simp only [step, heq]
    · exact absurd hsession (hO.not_publishing hr hactive hstale hs)
  | _ => exact absurd hop (fun h => h)

theorem new_owned : (new capabilities : RegistryWorld ρ σ).Owned := by
  intro handle r hr
  cases hr

/-- **The registry**: what holds in every state of every run and of every step from it, and for a
run of fresh registrations what holds of those that are no longer current. -/
theorem run_consistent [Inhabited σ] (capabilities : RtmpCapabilities)
    (ops : List ((RelayId → σ) × RegistryOp ρ)) :
    (∀ key id, ((new capabilities).run ops).inner.streamsByKey.lookup key = some id ↔
        ∃ stream, ((new capabilities).run ops).inner.streams.lookup id = some stream ∧
          stream.key = key) ∧
      (∀ id stream, ((new capabilities).run ops).inner.streams.lookup id = some stream →
        stream.publisher.isSome = true ∨ 0 < stream.subscriberCount) ∧
      (∀ id stream, ((new capabilities).run ops).inner.streams.lookup id = some stream →
        ∀ session, (stream.subscribers.lookup session).getD 0 =
          ((new capabilities).run ops).live id session) ∧
      (((new capabilities).run ops).inner.snapshotDirty = false →
        ∃ status, ((new capabilities).run ops).inner.current =
          ((new capabilities).run ops).inner.render status) ∧
      (((new capabilities).run ops).inner.current.revision =
          ((new capabilities).run ops).inner.revision →
        ((new capabilities).run ops).inner.revision.toNat ≠ maxUInt64 →
        ∃ status, ((new capabilities).run ops).inner.current =
          ((new capabilities).run ops).inner.render status) ∧
      (∀ status op, StepSound ((new capabilities).run ops)
        (((new capabilities).run ops).step status op).1
        (((new capabilities).run ops).step status op).2) ∧ ((new capabilities).FreshRun ops →
        ∀ r op, ((new capabilities).run ops).Through r op →
          ¬ ((new capabilities).run ops).Current r →
          ∀ status, (((new capabilities).run ops).step status op).2.inner =
            ((new capabilities).run ops).inner) := by
  have hC : ((new capabilities : RegistryWorld ρ σ).run ops).Consistent :=
    new_consistent.run
  have hI := hC.sound.indexed
  have hS := hC.sound.shown
  refine ⟨?_, hC.sound.occupied, ?_, hS.clean, ?_, ?_, ?_⟩
  · intro key id
    refine ⟨hI.byKey key id, ?_⟩
    rintro ⟨stream, hs, rfl⟩
    exact (hI.byId id stream hs).1
  · intro id stream hs session
    have hcounted := hC.counted id session
    rwa [RegistryInner.multiplicity, hs, Option.bind_some] at hcounted
  · intro hrevision hmax
    refine hS.clean (Bool.eq_false_iff.mpr fun hdirty => ?_)
    rcases hS.dirty hdirty with hlt | hsaturated
    · rw [hrevision] at hlt
      exact UInt64.lt_irrefl _ hlt
    · exact hmax hsaturated
  · intro status op
    exact (hC.step status op).stepSound hC
  · intro hfresh r op hop hstale status
    exact (new_consistent.run_owned new_owned hfresh).stale hC hstale hop

/-- A viewer keeps the stream, its publisher is replaced as a stale one by the same session, and the
registration of the first publication is dropped: it takes the second one away. -/
theorem reregistered_dropped : let key : StreamKey := ⟨"server", "live", "camera"⟩
    let status : RelayId → Unit := fun _ => ()
    let first : RegistryWorld Unit Unit :=
      (new ⟨true, true⟩).run
        [(status, .registerSubscriber key 9 0), (status, .registerPublisher key 1 [] 0)]
    let second := first.run
      [(status, .detachPublisher 0 1 60000), (status, .registerPublisher key 1 [] 60000)]
    let old : PublisherRegistration := ⟨0, 1, 0, true, 1⟩
    first.inner.stalePublisherOwner key 60000 30000 = some (0, 1) ∧
      second.Through old (.dropPublisher 1) ∧ ¬ second.Current old ∧
      (second.inner.streams.lookup 0).bind MutableStream.publisherSession = some 1 ∧
      ((second.step status (.dropPublisher 1)).2.inner.streams.lookup 0).map
        MutableStream.publisherSession = some none := by
  refine ⟨rfl, rfl, ?_, rfl, rfl⟩
  rintro ⟨-, stream, hs, -, hattachment⟩
  cases hs
  cases hattachment

end RegistryWorld

end Oxiroute.Rtmp
