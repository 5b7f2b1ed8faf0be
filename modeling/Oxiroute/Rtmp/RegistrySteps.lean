import Oxiroute.Rtmp.RegistryRoles

/-!
# The registry and its registrations

* `Consistent`: the registry is sound, and the counts of the subscribers are those of the live
  registrations.
* `Owned`: a publisher's registration that could detach a publisher was made for that one. Only a
  registration of a session that holds an older one of the same stream can break it (`Fresh`).
* `Consistent.step` says once what an operation does (`Advance`); `StepSound` follows from it.
-/

namespace Oxiroute.Rtmp

open Lib SubscriberRegistration Table Option

open MutableStream (SameRoles)

variable {ρ σ : Type}

/-! ## Registrations -/

open RegistryInner (Edits Refreshes)

/-- What a registration counts for. -/
def SubscriberRegistration.weight (id : StreamId) (session : SessionId)
    (r : SubscriberRegistration) : ℕ :=
  if r.active = true ∧ r.streamId = id ∧ r.sessionId = session then 1 else 0

theorem SubscriberRegistration.weight_of_inactive {r : SubscriberRegistration}
    (h : r.active = false) {id : StreamId} {session : SessionId} : r.weight id session = 0 := by
  unfold weight
  rw [h]
  simp

/-- The publisher of the stream, if it is of the registration's session, is the one the registration
was made for. -/
structure PublisherRegistration.Entitled (r : PublisherRegistration) (inner : RegistryInner ρ σ) :
    Prop where
  known : r.streamId < inner.nextStreamId
  same : r.active = true → ∀ stream, inner.streams.lookup r.streamId = some stream →
    stream.publisherSession = some r.sessionId → stream.attachments = r.attachment

namespace PublisherRegistration.Entitled

variable {r : PublisherRegistration} {inner inner' : RegistryInner ρ σ}

theorem refreshes (h : r.Entitled inner) (hR : Refreshes inner inner') : r.Entitled inner' := by
  refine ⟨hR.next ▸ h.known, ?_⟩
  intro hactive stream hs hsession
  obtain ⟨was, hwas, hroles⟩ := hR.lookup hs
  rw [hroles.attachments]
  exact h.same hactive was hwas (hroles.publisherSession ▸ hsession)

theorem edits {id : StreamId} {stream : MutableStream ρ} {now : Option (MutableStream ρ)}
    (h : r.Entitled inner) (hE : Edits inner inner' id stream now)
    (hnow : ∀ stream', now = some stream' → r.streamId = id → r.active = true →
      stream'.publisherSession = some r.sessionId → stream'.attachments = r.attachment) :
    r.Entitled inner' := by
  refine ⟨lt_of_lt_of_le h.known hE.next, ?_⟩
  intro hactive stream' hs hsession
  rw [hE.streams] at hs
  split_ifs at hs with hi
  · exact hnow stream' hs hi hactive hsession
  · exact h.same hactive stream' hs hsession

theorem edits_keeping {id : StreamId} {stream stream' : MutableStream ρ} (h : r.Entitled inner)
    (hI : inner.Indexed) (hE : Edits inner inner' id stream (some stream'))
    (hpub : stream'.publisher = stream.publisher)
    (hatt : stream'.attachments = stream.attachments) : r.Entitled inner' := by
  refine h.edits hE ?_
  intro s hs hid hactive hsession
  cases hs
  have hstream : stream.publisherSession = some r.sessionId := by
    unfold MutableStream.publisherSession at hsession ⊢
    rwa [hpub] at hsession
  rcases hE.lookup_eq hI with hold | ⟨-, _, hnew⟩
  · rw [hatt]
    exact h.same hactive stream (hid ▸ hold) hstream
  · rw [hnew] at hstream
    cases hstream

end PublisherRegistration.Entitled

namespace RegistryWorld

variable (w : RegistryWorld ρ σ)

/-- The number of live registrations of the session for the stream. -/
def live (id : StreamId) (session : SessionId) : ℕ :=
  Table.total (weight id session) w.subscribers

/-- What holds in every state of every run. -/
structure Consistent (w : RegistryWorld ρ σ) : Prop where
  sound : w.inner.Sound
  counted : ∀ id session, w.inner.multiplicity id session = w.live id session
  handles : ∀ handle r, w.subscribers.lookup handle = some r → handle < w.nextHandle

/-- Every registration is entitled to what it detaches. -/
def Owned : Prop :=
  ∀ handle r, w.publishers.lookup handle = some r → r.Entitled w.inner

/-- A session registers for a stream that it publishes already, or that no registration it still
holds is for. -/
def Fresh (key : StreamKey) (session : SessionId) : Prop :=
  ∀ id, w.inner.streamsByKey.lookup key = some id →
    (∃ stream, w.inner.streams.lookup id = some stream ∧ stream.publisherSession = some session) ∨
      ∀ handle r, w.publishers.lookup handle = some r → r.active = true → r.streamId = id →
        r.sessionId ≠ session

/-- The condition on a step: only the registration of a publisher has one. -/
def FreshStep : RegistryOp ρ → Prop
  | .registerPublisher key session _ _ => w.Fresh key session
  | .registerManagedPublisher key session _ _ _ => w.Fresh key session
  | _ => True

structure Advance (w : RegistryWorld ρ σ) (fresh : Prop) (answer : Except CatalogError Unit)
    (w' : RegistryWorld ρ σ) : Prop where
  consistent : w'.Consistent
  failed : ∀ e, answer = .error e → w' = w
  inner : Refreshes w.inner w'.inner ∨ ∃ id stream now, Edits w.inner w'.inner id stream now
  owned : fresh → w.Owned → w'.Owned

/-- What one operation does, by its answer and the state after it. -/
abbrev Advances (fresh : Prop) (out : Except CatalogError Unit × RegistryWorld ρ σ) : Prop :=
  Advance w fresh out.1 out.2

variable {w : RegistryWorld ρ σ} {fresh : Prop} {inner : RegistryInner ρ σ}
  {stream : MutableStream ρ} {id : StreamId} {session : SessionId}
    {publishers : Table ℕ PublisherRegistration} {handle : ℕ}
  {r : SubscriberRegistration} {status : RelayId → σ} {key : StreamKey} {atUnixMs : UInt64}
  {recorders : List ρ} {relays : List RelayId}

theorem admitPublisher_ok
    (h : inner.streams.lookup id = some stream)
      (hsession : stream.publisherSession = some session) :
    w.admitPublisher session atUnixMs (.ok id, inner) = (.ok (), { w with
          inner := inner
          publishers :=
            w.publishers.insert w.nextHandle ⟨id, session, atUnixMs, true, stream.attachments⟩
          nextHandle := w.nextHandle + 1 }) := by
  simp only [admitPublisher, h, if_pos hsession]

/-- Every registration left is one there was, and no more active than it was. -/
def Fewer (publishers publishers' : Table ℕ PublisherRegistration) : Prop :=
  ∀ handle r, publishers'.lookup handle = some r → ∃ was, publishers.lookup handle = some was ∧
    r.streamId = was.streamId ∧ r.sessionId = was.sessionId ∧ r.attachment = was.attachment ∧
    (r.active = true → was.active = true)

theorem Fewer.refl : Fewer publishers publishers :=
  fun _ r hr => ⟨r, hr, rfl, rfl, rfl, fun h => h⟩

theorem Fewer.erase : Fewer publishers (publishers.erase handle) := by
  intro handle' r hr
  obtain ⟨-, hr⟩ := of_lookup_erase hr
  exact ⟨r, hr, rfl, rfl, rfl, fun h => h⟩

theorem Fewer.deactivate {was : PublisherRegistration} (h : publishers.lookup handle = some was) :
    Fewer publishers (publishers.insert handle { was with active := false }) := by
  intro handle' r hr
  obtain ⟨hh, rfl⟩ | ⟨-, hr⟩ := of_lookup_insert hr
  · exact ⟨was, hh ▸ h, rfl, rfl, rfl, fun h => nomatch h⟩
  · exact ⟨r, hr, rfl, rfl, rfl, fun h => h⟩

theorem Fewer.owned (h : Fewer w.publishers publishers) (hO : w.Owned) :
    Owned { w with publishers := publishers } := by
  intro handle r hr
  obtain ⟨was, hwas, hid, hsession, hatt, hactive⟩ := h handle r hr
  obtain ⟨hknown, hsame⟩ := hO handle was hwas
  refine ⟨hid ▸ hknown, fun ha stream hs hp => ?_⟩
  rw [hatt]
  exact hsame (hactive ha) stream (hid ▸ hs) (hsession ▸ hp)

theorem weight_active (hactive : r.active = true) :
    r.weight id session = if id = r.streamId ∧ session = r.sessionId then 1 else 0 := by
  unfold weight
  rw [hactive]
  simp [eq_comm]

theorem total_deactivate (hr : w.subscribers.lookup handle = some r) :
    Table.total (weight id session)
        (w.subscribers.insert handle { r with active := false }) + r.weight id session =
      w.live id session := by
  have h := total_insert_add (weight id session) w.subscribers handle { r with active := false }
  rw [hr, weight_of_inactive rfl] at h
  exact h

theorem closeAdmission_refreshes : Refreshes inner { inner with admissionOpen := false } where
  streams := ⟨fun _ stream => stream, fun _ => by simp, fun _ stream _ => .refl⟩
  byKey := rfl
  next := rfl
  revision := .inl ⟨rfl, fun _ => rfl⟩
  asOf := UInt64.le_refl _
  shown := fun h => ⟨h.clean, h.dirty, h.older⟩
  published := .inl rfl

variable (hC : w.Consistent)

include hC

theorem Consistent.fail {e : CatalogError} : Advance w fresh (.error e) w :=
  ⟨hC, fun _ _ => rfl, .inl .refl, fun _ h => h⟩

theorem Consistent.refresh (hR : Refreshes w.inner inner) :
    Advance w fresh (.ok ()) { w with inner := inner } where
  consistent :=
    ⟨hR.sound hC.sound, fun id session => hR.multiplicity.trans (hC.counted id session), hC.handles⟩
  failed := fun _ h => nomatch h
  inner := .inl hR
  owned := fun _ hO handle r hr => (hO handle r hr).refreshes hR

theorem Consistent.edit
    {stream' : MutableStream ρ} (hE : Edits w.inner inner id stream (some stream'))
    (hold : w.inner.streams.lookup id = some stream) (hroles : SameRoles stream stream') :
    Advance w fresh (.ok ()) { w with inner := inner } where
  consistent := by
    refine ⟨hE.sound hC.sound ?_, fun i session => ?_, hC.handles⟩
    · intro s hs
      cases hs
      exact ⟨hroles.occupied (hC.sound.occupied id stream hold),
        hroles.positive (hC.sound.positive id stream hold)⟩
    · refine (hE.multiplicity_same hC.sound.indexed ?_).trans (hC.counted i session)
      intro session'
      rw [bind_some, hroles.subscribers]
  failed := fun _ h => nomatch h
  inner := .inr ⟨id, stream, _, hE⟩
  owned := fun _ hO handle r hr =>
    (hO handle r hr).edits_keeping hC.sound.indexed hE hroles.publisher hroles.attachments

/-! ## Publishers -/

theorem Consistent.known (hold : w.inner.streams.lookup id = some stream)
    (hsession : stream.publisherSession = some session) :
    Advances w fresh (w.admitPublisher session atUnixMs (.ok id, w.inner)) := by
  rw [admitPublisher_ok hold hsession]
  refine ⟨⟨hC.sound, hC.counted, fun handle r hr => Nat.lt_succ_of_lt (hC.handles handle r hr)⟩,
    (fun _ h => nomatch h), .inl .refl, ?_⟩
  intro _ hO handle r hr
  obtain ⟨-, rfl⟩ | ⟨-, hr⟩ := of_lookup_insert hr
  · refine ⟨hC.sound.indexed.fresh id stream hold, fun _ s hs _ => ?_⟩
    rw [hold] at hs
    cases hs
    rfl
  · exact hO handle r hr

theorem Consistent.attached (hpub : stream.publisher = none)
    (hE : Edits w.inner inner id stream
      (some (stream.attached session recorders relays atUnixMs))) :
    Advances w (w.Fresh stream.key session)
      (w.admitPublisher session atUnixMs (.ok id, inner)) := by
  have hnow : inner.streams.lookup id =
    some (stream.attached session recorders relays atUnixMs) := by
    rw [hE.streams, if_pos rfl]
  rw [admitPublisher_ok hnow rfl]
  refine ⟨⟨hE.sound hC.sound ?_, ?_, ?_⟩, (fun _ h => nomatch h), .inr ⟨id, stream, _, hE⟩, ?_⟩
  · intro s hs
    cases hs
    exact ⟨.inl rfl, hE.positive hC.sound⟩
  · intro i session'
    refine (hE.multiplicity_same hC.sound.indexed ?_).trans (hC.counted i session')
    intro _
    rfl
  · exact fun handle r hr => Nat.lt_succ_of_lt (hC.handles handle r hr)
  · intro hfresh hO handle r hr
    obtain ⟨-, rfl⟩ | ⟨-, hr⟩ := of_lookup_insert hr
    · refine ⟨(hE.indexed hC.sound.indexed).fresh id _ hnow, fun _ s hs _ => ?_⟩
      rw [hnow] at hs
      cases hs
      rfl
    · refine (hO handle r hr).edits hE ?_
      -- The session that was attached has no older registration for this stream.
      intro s hs hid hactive hsession
      cases hs
      exfalso
      rcases hE.target with hold | ⟨-, hnew, -⟩
      · rcases hfresh id (hC.sound.indexed.byId id stream hold).1 with ⟨s, hs, hpublishing⟩ | hnone
        · rw [hold] at hs
          cases hs
          unfold MutableStream.publisherSession at hpublishing
          rw [hpub] at hpublishing
          cases hpublishing
        · exact hnone handle r hr hactive hid (Option.some.inj hsession).symm
      · have hlt := (hO handle r hr).known
        rw [hid, hnew] at hlt
        exact lt_irrefl _ hlt

theorem Consistent.registerManagedPublisher : Advances w (w.Fresh key session)
    (w.admitPublisher session atUnixMs
      (w.inner.attachPublisherInner status key session recorders relays atUnixMs)) := by
  rcases hC.sound.indexed.attachPublisherInner_spec status key session atUnixMs recorders
    relays with
    ⟨e, heq⟩ | ⟨id, stream, heq, hold, hsession⟩ | ⟨id, stream, inner', heq, rfl, hpub, hE⟩
  · rw [heq]
    exact hC.fail
  · rw [heq]
    exact hC.known hold hsession
  · rw [heq]
    exact hC.attached hpub hE

/-- An operation on registrations of publishers alone. -/
theorem Consistent.fewer (h : Fewer w.publishers publishers) :
    Advance w fresh (.ok ()) { w with publishers := publishers } :=
  ⟨⟨hC.sound, hC.counted, hC.handles⟩, (fun _ h => nomatch h), .inl .refl, fun _ hO => h.owned hO⟩

/-- A publisher was detached, and perhaps registrations were given up. -/
theorem Consistent.detached (hE : Edits w.inner inner id stream
      (if stream.subscribers.entries.isEmpty then none else some stream.detached))
    (h : Fewer w.publishers publishers) :
    Advance w fresh (.ok ()) { w with inner := inner, publishers := publishers } where
  consistent := by
    refine ⟨hE.sound hC.sound ?_, fun i session => ?_, hC.handles⟩
    · intro s hs
      have hpos := hE.positive hC.sound
      split_ifs at hs with hempty
      cases hs
      exact ⟨.inr (hpos.viewed (Bool.eq_false_iff.mpr hempty)), hpos⟩
    · refine (hE.multiplicity_same hC.sound.indexed ?_).trans (hC.counted i session)
      intro session'
      split_ifs with hempty
      · have hnone : stream.subscribers.lookup session' = none := by
          rw [AList.lookup_eq_none, AList.mem_keys, AList.keys, List.isEmpty_iff.mp hempty]
          exact List.not_mem_nil
        rw [hnone]
        rfl
      · rfl
  failed := fun _ h => nomatch h
  inner := .inr ⟨id, stream, _, hE⟩
  owned := by
    intro _ hO handle r hr
    refine PublisherRegistration.Entitled.edits (h.owned hO handle r hr) hE ?_
    intro s hs _ _ hsession
    split_ifs at hs
    cases hs
    cases hsession

theorem Consistent.detachPublisher :
    Advance w fresh (w.inner.detachPublisherInner status id session atUnixMs).1
      { w with inner := (w.inner.detachPublisherInner status id session atUnixMs).2 } := by
  rcases hC.sound.indexed.detachPublisherInner_spec status session atUnixMs id with
    ⟨e, heq, -⟩ | ⟨stream, inner', heq, -, -, hE⟩
  · rw [heq]
    exact hC.fail
  · rw [heq]
    exact hC.detached hE .refl

theorem Consistent.releasePublisher :
    Advances w fresh (w.releasePublisher status handle atUnixMs) := by
  unfold RegistryWorld.releasePublisher
  cases hr : w.publishers.lookup handle with
  | none => exact hC.refresh .refl
  | some r =>
    dsimp only
    split_ifs with hactive
    · rcases hC.sound.indexed.detachPublisherInner_spec status _ _ _ with
        ⟨e, heq, -⟩ | ⟨stream, inner', heq, -, -, hE⟩
      · rw [heq]
        exact hC.fail
      · rw [heq]
        exact hC.detached hE (.deactivate hr)
    · exact hC.refresh .refl

theorem Consistent.dropPublisher : Advance w fresh (.ok ()) (w.dropPublisher status handle) := by
  unfold RegistryWorld.dropPublisher
  cases hr : w.publishers.lookup handle with
  | none => exact hC.refresh .refl
  | some r =>
    dsimp only
    split_ifs with hactive
    · rcases hC.sound.indexed.detachPublisherInner_spec status _ _
        _ with ⟨e, heq, -⟩ | ⟨stream, inner', heq, -, -, hE⟩
      · rw [heq]
        exact hC.fewer .erase
      · rw [heq]
        exact hC.detached hE .erase
    · exact hC.fewer .erase

/-! ## Subscribers -/

theorem Consistent.registerSubscriber : Advances w fresh (w.admitSubscriber session atUnixMs
      (w.inner.attachSubscriber status key session atUnixMs)) := by
  rcases hC.sound.indexed.attachSubscriber_spec status key session atUnixMs with
    ⟨e, heq⟩ | ⟨id, stream, inner', heq, hE⟩
  · rw [heq]
    exact hC.fail
  · rw [heq]
    have hnotMem : w.nextHandle ∉ w.subscribers := by
      intro hmem
      obtain ⟨r, hr⟩ := exists_of_mem hmem
      exact lt_irrefl _ (hC.handles _ r hr)
    refine ⟨⟨hE.sound hC.sound ?_, ?_, ?_⟩, (fun _ h => nomatch h), .inr ⟨id, stream, _, hE⟩, ?_⟩
    · intro s hs
      cases hs
      exact ⟨stream.subscribed_occupied, (hE.positive hC.sound).subscribed⟩
    · intro i session'
      change inner'.multiplicity i session' =
        Table.total _ (w.subscribers.insert w.nextHandle ⟨id, session, atUnixMs, true⟩)
      have hcounted := hC.counted i session'
      rw [hE.multiplicity, total_insert hnotMem, weight_active rfl]
      change _ = _ + w.live i session'
      rw [← hcounted]
      by_cases hi : i = id
      · subst hi
        rw [if_pos rfl, hE.multiplicity_id hC.sound.indexed, bind_some]
        change ((stream.subscribers.insert session _).lookup session').getD 0 = _
        rw [lookup_insert]
        by_cases hs : session' = session
        · subst hs
          simp only [if_true, getD_some, true_and]
          omega
        · simp [hs]
      · simp [hi]
    · intro handle r hr
      obtain ⟨rfl, -⟩ | ⟨-, hr⟩ := of_lookup_insert hr
      · exact Nat.lt_succ_self _
      · exact Nat.lt_succ_of_lt (hC.handles handle r hr)
    · intro _ hO handle r hr
      exact (hO handle r hr).edits_keeping hC.sound.indexed hE rfl rfl

theorem Consistent.unsubscribed {count : ℕ} {subscribers : Table ℕ SubscriberRegistration}
    (hactive : r.active = true) (hcount : stream.subscribers.lookup r.sessionId = some count)
    (hE : Edits w.inner inner r.streamId stream (if (stream.publisher.isNone &&
          (stream.unsubscribed r.sessionId count).subscribers.entries.isEmpty) then none
        else some (stream.unsubscribed r.sessionId count)))
    (htotal : ∀ {id session}, Table.total (weight id session) subscribers +
      r.weight id session = w.live id session)
    (hhandles : ∀ handle r, subscribers.lookup handle = some r → handle < w.nextHandle) :
    Advance w fresh (.ok ()) { w with inner := inner, subscribers := subscribers } where
  consistent := by
    have hpos := hE.positive hC.sound
    refine ⟨hE.sound hC.sound ?_, fun i session => ?_, hhandles⟩
    · intro s hs
      split_ifs at hs with hleft
      cases hs
      refine ⟨?_, hpos.unsubscribed⟩
      -- Somebody publishes, or the table of the viewers is not empty.
      cases hp : stream.publisher with
      | some publisher => exact .inl (by change stream.publisher.isSome = true; rw [hp]; rfl)
      | none =>
        rw [hp] at hleft
        exact .inr (hpos.unsubscribed.viewed (by simpa using hleft))
    · change _ = Table.total _ subscribers
      have hlive := @htotal i session
      rw [← hC.counted, weight_active hactive] at hlive
      rw [hE.multiplicity]
      by_cases hi : i = r.streamId
      · subst hi
        rw [hE.multiplicity_id hC.sound.indexed] at hlive
        -- A removed stream has no entry, so it reads the same as an empty table.
        have hnow : ((if (stream.publisher.isNone &&
              (stream.unsubscribed r.sessionId count).subscribers.entries.isEmpty) then none
            else some (stream.unsubscribed r.sessionId count)).bind fun stream' =>
              stream'.subscribers.lookup session) =
            (stream.unsubscribed r.sessionId count).subscribers.lookup session := by
          split_ifs with hleft
          · have hempty := List.isEmpty_iff.mp (Bool.and_eq_true_iff.mp hleft).2
            have hnone : (stream.unsubscribed r.sessionId count).subscribers.lookup session =
              none := by
              rw [AList.lookup_eq_none, AList.mem_keys, AList.keys, hempty]
              exact List.not_mem_nil
            rw [hnone]
            rfl
          · rfl
        rw [if_pos rfl, hnow, MutableStream.lookup_unsubscribed]
        by_cases hs : session = r.sessionId
        · subst hs
          simp only [hcount, getD_some, and_self, if_true] at hlive ⊢
          split_ifs
          · simp only [getD_some]
            omega
          · simp only [getD_none]
            omega
        · simp only [hs, and_false, if_false, add_zero] at hlive ⊢
          exact hlive.symm
      · simp only [hi, false_and, if_false, add_zero] at hlive ⊢
        exact hlive.symm
  failed := fun _ h => nomatch h
  inner := .inr ⟨_, stream, _, hE⟩
  owned := by
    intro _ hO handle' r' hr'
    refine (hO handle' r' hr').edits hE ?_
    intro s hs hid hact hsession
    split_ifs at hs
    cases hs
    rcases hE.lookup_eq hC.sound.indexed with hold | ⟨-, _, hnew⟩
    · exact (hO handle' r' hr').same hact stream (hid ▸ hold) hsession
    · rw [hnew] at hcount
      cases hcount

/-- A live registration is one the registry counts, so that detaching it does not fail. -/
theorem Consistent.detachSubscriber_ok (hr : w.subscribers.lookup handle = some r)
    (hactive : r.active = true) : ∃ stream count inner',
      w.inner.detachSubscriber status r.streamId r.sessionId atUnixMs = (.ok (), inner') ∧
        stream.subscribers.lookup r.sessionId = some count ∧ Edits w.inner inner' r.streamId stream
          (if (stream.publisher.isNone &&
              (stream.unsubscribed r.sessionId count).subscribers.entries.isEmpty) then none
            else some (stream.unsubscribed r.sessionId count)) := by
  rcases hC.sound.indexed.detachSubscriber_spec status _ atUnixMs with
    ⟨e, -, hnone⟩ | ⟨stream, count, inner', heq, -, hcount, hE⟩
  · have hweight : r.weight r.streamId r.sessionId = 1 := by
      rw [weight_active hactive, if_pos ⟨rfl, rfl⟩]
    have hle : 1 ≤ w.live r.streamId r.sessionId := hweight ▸ le_total hr
    rw [← hC.counted, RegistryInner.multiplicity] at hle
    cases hs : w.inner.streams.lookup _ with
    | none =>
      rw [hs] at hle
      cases hle
    | some stream =>
      rw [hs, bind_some, hnone stream hs] at hle
      cases hle
  · exact ⟨stream, count, inner', heq, hcount, hE⟩

theorem Consistent.handles_insert (hr : w.subscribers.lookup handle = some r)
    {r' : SubscriberRegistration} :
    ∀ handle' r'', (w.subscribers.insert handle r').lookup handle' = some r'' →
      handle' < w.nextHandle := by
  intro handle' r'' h
  obtain ⟨rfl, -⟩ | ⟨-, h⟩ := of_lookup_insert h
  · exact hC.handles _ r hr
  · exact hC.handles handle' r'' h

theorem Consistent.handles_erase :
    ∀ handle' r, (w.subscribers.erase handle).lookup handle' = some r → handle' < w.nextHandle := by
  intro handle' r h
  obtain ⟨-, h⟩ := of_lookup_erase h
  exact hC.handles handle' r h

theorem Consistent.releaseSubscriber :
    Advances w fresh (w.releaseSubscriber status handle atUnixMs) := by
  unfold RegistryWorld.releaseSubscriber
  cases hr : w.subscribers.lookup handle with
  | none => exact hC.refresh .refl
  | some r =>
    dsimp only
    split_ifs with hactive
    · obtain ⟨stream, count, inner', heq, hcount, hE⟩ :=
        hC.detachSubscriber_ok hr hactive
      rw [heq]
      exact hC.unsubscribed hactive hcount hE (total_deactivate hr) (hC.handles_insert hr)
    · exact hC.refresh .refl

theorem Consistent.dropSubscriber : Advance w fresh (.ok ()) (w.dropSubscriber status handle) := by
  unfold RegistryWorld.dropSubscriber
  cases hr : w.subscribers.lookup handle with
  | none => exact hC.refresh .refl
  | some r =>
    have htotal : ∀ {id session}, Table.total (weight id session) (w.subscribers.erase handle) +
          r.weight id session = w.live id session := total_erase hr
    dsimp only
    split_ifs with hactive
    · obtain ⟨stream, count, inner', heq, hcount, hE⟩ :=
        hC.detachSubscriber_ok hr hactive
      rw [heq]
      exact hC.unsubscribed hactive hcount hE htotal hC.handles_erase
    · refine ⟨⟨hC.sound, fun id session => ?_, hC.handles_erase⟩, (fun _ h => nomatch h),
        .inl .refl, fun _ hO => hO⟩
      have h := @htotal id session
      rw [weight_of_inactive (Bool.eq_false_iff.mpr hactive)] at h
      exact (hC.counted id session).trans h.symm

/-! ## Steps -/

theorem Consistent.updateMediaSample {sequence : UInt64} {media : MediaSnapshot} : Advance w fresh
      ((w.inner.updateMediaSample id session sequence media atUnixMs).1.map fun _ => ())
      { w with inner := (w.inner.updateMediaSample id session sequence media atUnixMs).2 } := by
  rcases hC.sound.indexed.updateMediaSample_spec session atUnixMs id sequence media with
    ⟨e, heq⟩ | ⟨stream, activity, hold, -, heq | ⟨inner', heq, hE⟩⟩
  · rw [heq]
    exact hC.fail
  · rw [heq]
    exact hC.refresh (RegistryInner.setStream_refreshes hold
      ⟨rfl, rfl, rfl, rfl, rfl, UInt64.le_refl _⟩ fun _ => rfl)
  · rw [heq]
    exact hC.edit hE hold ⟨rfl, rfl, rfl, rfl, rfl, le_saturatingAdd⟩

theorem Consistent.updateRecorders {change : List ρ → Option (List ρ)} : Advance w fresh (.ok ())
      { w with inner := w.inner.updateRecorders id session change atUnixMs } := by
  rcases hC.sound.indexed.updateRecorders_spec session atUnixMs id change with
    heq | ⟨stream, recorders, hold, -, hE⟩
  · rw [heq]
    exact hC.refresh .refl
  · exact hC.edit hE hold ⟨rfl, rfl, rfl, rfl, rfl, le_saturatingAdd⟩

theorem Consistent.observePublisher : Advance w fresh (.ok ()) { w with
        publishers :=
          update handle
            (fun r => { r with lastObservedAtUnixMs := max r.lastObservedAtUnixMs atUnixMs })
            w.publishers } := by
  refine hC.fewer ?_
  intro handle' r hr
  rw [update, lookup_mapVals] at hr
  obtain ⟨was, hwas, rfl⟩ := map_eq_some_iff.mp hr
  refine ⟨was, hwas, ?_⟩
  split_ifs <;> exact ⟨rfl, rfl, rfl, fun h => h⟩

theorem Consistent.observeSubscriber : Advance w fresh (.ok ()) { w with
        subscribers :=
          update handle
            (fun r => { r with lastObservedAtUnixMs := max r.lastObservedAtUnixMs atUnixMs })
            w.subscribers } := by
  refine ⟨⟨hC.sound, fun id session => ?_, ?_⟩, (fun _ h => nomatch h), .inl .refl, fun _ hO => hO⟩
  · refine (hC.counted id session).trans (total_update ?_ _).symm
    intro r
    rfl
  · intro handle' r hr
    rw [update, lookup_mapVals] at hr
    obtain ⟨was, hwas, -⟩ := map_eq_some_iff.mp hr
    exact hC.handles handle' was hwas

/-- **One step**: it keeps the world consistent, changes nothing when it fails, and keeps every
registration entitled when the step is a fresh one. -/
theorem Consistent.step (status : RelayId → σ) (op : RegistryOp ρ) :
    Advances w (w.FreshStep op) (w.step status op) := by
  cases op with
  | registerPublisher key session recorders atUnixMs =>
    simp only [RegistryWorld.step, RegistryInner.attachPublisher]
    split_ifs
    · exact hC.registerManagedPublisher
    · exact hC.fail
  | registerManagedPublisher => exact hC.registerManagedPublisher
  | registerSubscriber => exact hC.registerSubscriber
  | detachPublisher => exact hC.detachPublisher
  | updateMediaSample => exact hC.updateMediaSample
  | updateRecorders => exact hC.updateRecorders
  | snapshot change observedAtUnixMs =>
    exact hC.refresh RegistryInner.snapshot_refreshes
  | observePublisher => exact hC.observePublisher
  | releasePublisher => exact hC.releasePublisher
  | dropPublisher => exact hC.dropPublisher
  | observeSubscriber => exact hC.observeSubscriber
  | releaseSubscriber => exact hC.releaseSubscriber
  | dropSubscriber => exact hC.dropSubscriber
  | closeAdmission => exact hC.refresh closeAdmission_refreshes

/-- What a step never does to the revisions, the snapshots and, when it fails, to anything. -/
structure StepSound (w : RegistryWorld ρ σ) (answer : Except CatalogError Unit)
    (w' : RegistryWorld ρ σ) : Prop where
  revision : w.inner.revision ≤ w'.inner.revision
  asOf : w.inner.asOfUnixMs ≤ w'.inner.asOfUnixMs
  streamRevision : ∀ id stream stream', w.inner.streams.lookup id = some stream →
    w'.inner.streams.lookup id = some stream' → stream.revision ≤ stream'.revision
  failed : ∀ e, answer = .error e → w' = w
  published : w'.inner.current = w.inner.current ∨
    ∃ status : RelayId → σ, w'.inner.current = w'.inner.render status
  unrevised : w'.inner.revision = w.inner.revision → w.inner.revision.toNat ≠ maxUInt64 →
    ∀ status : RelayId → σ, w'.inner.render status = w.inner.render status

theorem Advance.stepSound {answer : Except CatalogError Unit}
    {w' : RegistryWorld ρ σ} (h : Advance w fresh answer w') : StepSound w answer w' := by
  have hup : ∀ {revision : UInt64}, revision = saturatingAdd w.inner.revision 1 →
      w.inner.revision ≤ revision ∧
        (revision = w.inner.revision → w.inner.revision.toNat = maxUInt64) := by
    rintro revision rfl
    refine ⟨le_saturatingAdd, fun hsame => ?_⟩
    rcases lt_saturatingAdd_one with hlt | hmax
    · rw [hsame] at hlt
      exact absurd hlt (UInt64.lt_irrefl _)
    · rwa [hsame] at hmax
  rcases h.inner with hR | ⟨id, stream, now, hE⟩
  · refine ⟨?_, hR.asOf, ?_, h.failed, hR.published, ?_⟩
    · rcases hR.revision with ⟨heq, -⟩ | heq
      · rw [heq]
        exact UInt64.le_refl _
      · exact (hup heq).1
    · intro i s s' hs hs'
      obtain ⟨was, hwas, hroles⟩ := hR.lookup hs'
      rw [hs] at hwas
      exact Option.some.inj hwas ▸ hroles.revision
    · intro hsame hmax
      rcases hR.revision with ⟨-, hrender⟩ | heq
      · exact hrender
      · exact absurd ((hup heq).2 hsame) hmax
  · refine ⟨(hup hE.revision).1, hE.asOf, ?_, h.failed, ?_, ?_⟩
    · intro i s s' hs hs'
      rw [hE.streams] at hs'
      split_ifs at hs' with hi
      · rcases hE.lookup_eq hC.sound.indexed with hold | ⟨hnone, -⟩
        · rw [hi, hold] at hs
          exact Option.some.inj hs ▸ (hE.kept s' hs').2.2
        · rw [hi, hnone] at hs
          cases hs
      · rw [hs] at hs'
        exact Option.some.inj hs' ▸ UInt64.le_refl _
    · exact hE.snapshot.elim (fun h => .inr h.2) (fun h => .inl h.2)
    · intro hsame hmax
      exact absurd ((hup hE.revision).2 hsame) hmax

end RegistryWorld

end Oxiroute.Rtmp
