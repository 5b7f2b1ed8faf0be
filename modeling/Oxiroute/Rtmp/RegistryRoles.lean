import Oxiroute.Rtmp.RegistryEffects

/-!
# What the registry keeps

* `Sound` is what holds of the registry alone: its indexes are inverse, every stream is published or
  viewed, and the snapshot is the registry's or of an older revision.
* An operation edits one stream (`Edits`) or keeps all their roles (`Refreshes`). Both keep it
  sound, and say what becomes of the subscribers' counts.
-/

namespace Oxiroute.Rtmp

open Lib Table

variable {ρ σ : Type}

/-! ## Keeping the roles -/

namespace MutableStream

/-- Somebody publishes or views the stream. -/
def Occupied (stream : MutableStream ρ) : Prop :=
  stream.publisher.isSome = true ∨ 0 < stream.subscriberCount

/-- Nobody is counted zero times. -/
def Positive (stream : MutableStream ρ) : Prop :=
  ∀ session count, stream.subscribers.lookup session = some count → 0 < count

/-- The stream is still the same one, published and viewed by the same sessions. -/
structure SameRoles (stream stream' : MutableStream ρ) : Prop where
  key : stream'.key = stream.key
  id : stream'.id = stream.id
  publisher : stream'.publisher = stream.publisher
  attachments : stream'.attachments = stream.attachments
  subscribers : stream'.subscribers = stream.subscribers
  revision : stream.revision ≤ stream'.revision

theorem SameRoles.refl {stream : MutableStream ρ} : SameRoles stream stream :=
  ⟨rfl, rfl, rfl, rfl, rfl, UInt64.le_refl _⟩

variable {stream stream' : MutableStream ρ}

theorem SameRoles.occupied (h : SameRoles stream stream') (ho : stream.Occupied) :
    stream'.Occupied := by
  unfold Occupied subscriberCount at *
  rw [h.publisher, h.subscribers]
  exact ho

theorem SameRoles.positive (h : SameRoles stream stream') (hp : stream.Positive) :
    stream'.Positive := by
  unfold Positive
  rw [h.subscribers]
  exact hp

theorem SameRoles.publisherSession (h : SameRoles stream stream') :
    stream'.publisherSession = stream.publisherSession := by
  unfold MutableStream.publisherSession
  rw [h.publisher]

theorem Positive.viewed (h : stream.Positive) (hne : stream.subscribers.entries.isEmpty = false) :
    0 < stream.subscriberCount := by
  obtain ⟨entry, hmem⟩ := List.exists_mem_of_ne_nil stream.subscribers.entries (by
    intro hnil
    rw [hnil] at hne
    cases hne)
  have hlookup := mem_entries_iff.mp hmem
  exact lt_of_lt_of_le (h _ _ hlookup) (le_total (w := fun count => count) hlookup)

variable {session : SessionId}

theorem Positive.subscribed (h : stream.Positive) : (stream.subscribed session).Positive := by
  intro session' count hcount
  obtain ⟨-, rfl⟩ | ⟨-, hcount⟩ := of_lookup_insert hcount
  · exact Nat.succ_pos _
  · exact h session' count hcount

theorem lookup_unsubscribed {session' : SessionId} {count : ℕ} :
    (stream.unsubscribed session count).subscribers.lookup session' =
      if session' = session then (if 1 < count then some (count - 1) else none)
      else stream.subscribers.lookup session' := by
  change (if 1 < count then stream.subscribers.insert session (count - 1)
    else stream.subscribers.erase session).lookup session' = _
  by_cases hcount : 1 < count
  · rw [if_pos hcount, if_pos hcount, lookup_insert]
  · rw [if_neg hcount, if_neg hcount, lookup_erase]

theorem Positive.unsubscribed (h : stream.Positive) {n : ℕ} :
    (stream.unsubscribed session n).Positive := by
  intro session' count hcount
  rw [lookup_unsubscribed] at hcount
  split_ifs at hcount with hs hn
  · cases hcount
    omega
  · exact h session' count hcount

theorem subscribed_occupied (stream : MutableStream ρ) : (stream.subscribed session).Occupied := by
  have hlookup : (stream.subscribed session).subscribers.lookup session =
      some ((stream.subscribers.lookup session).getD 0 + 1) := AList.lookup_insert _
  exact .inr (lt_of_lt_of_le (Nat.succ_pos _)
    (le_total (w := fun count => count) hlookup))

end MutableStream

open MutableStream (SameRoles)

namespace RegistryInner

/-- What holds of the registry alone. -/
structure Sound (inner : RegistryInner ρ σ) : Prop where
  indexed : inner.Indexed
  shown : inner.Shown
  occupied : ∀ id stream, inner.streams.lookup id = some stream → stream.Occupied
  positive : ∀ id stream, inner.streams.lookup id = some stream → stream.Positive

/-- The effect of an operation that attaches and detaches nobody, on any number of streams. -/
structure Refreshes (inner inner' : RegistryInner ρ σ) : Prop where
  streams : ∃ f : StreamId → MutableStream ρ → MutableStream ρ,
    (∀ id, inner'.streams.lookup id = (inner.streams.lookup id).map (f id)) ∧
      ∀ id stream, inner.streams.lookup id = some stream → SameRoles stream (f id stream)
  byKey : inner'.streamsByKey = inner.streamsByKey
  next : inner'.nextStreamId = inner.nextStreamId
  revision : (inner'.revision = inner.revision ∧
      ∀ status : RelayId → σ, inner'.render status = inner.render status) ∨
    inner'.revision = saturatingAdd inner.revision 1
  asOf : inner.asOfUnixMs ≤ inner'.asOfUnixMs
  shown : inner.Shown → inner'.Shown
  published : inner'.current = inner.current ∨
    ∃ status : RelayId → σ, inner'.current = inner'.render status

/-- How often the session is counted as a subscriber of the stream. -/
def multiplicity (inner : RegistryInner ρ σ) (id : StreamId) (session : SessionId) : ℕ :=
  ((inner.streams.lookup id).bind fun stream => stream.subscribers.lookup session).getD 0

namespace Refreshes

variable {inner inner' : RegistryInner ρ σ}

theorem refl : Refreshes inner inner where
  streams := ⟨fun _ stream => stream, fun _ => by simp, fun _ stream _ => .refl⟩
  byKey := rfl
  next := rfl
  revision := .inl ⟨rfl, fun _ => rfl⟩
  asOf := UInt64.le_refl _
  shown := fun h => h
  published := .inl rfl

variable (h : Refreshes inner inner')
include h

theorem lookup {id : StreamId} {stream : MutableStream ρ}
    (hs : inner'.streams.lookup id = some stream) :
    ∃ was, inner.streams.lookup id = some was ∧ SameRoles was stream := by
  obtain ⟨f, hf, hroles⟩ := h.streams
  rw [hf] at hs
  obtain ⟨was, hwas, rfl⟩ := Option.map_eq_some_iff.mp hs
  exact ⟨was, hwas, hroles id was hwas⟩

theorem lookup_of {id : StreamId} {was : MutableStream ρ}
    (hs : inner.streams.lookup id = some was) :
    ∃ stream, inner'.streams.lookup id = some stream ∧ SameRoles was stream := by
  obtain ⟨f, hf, hroles⟩ := h.streams
  exact ⟨f id was, by rw [hf, hs, Option.map_some], hroles id was hs⟩

theorem sound (hS : inner.Sound) : inner'.Sound := by
  refine ⟨⟨?_, ?_, ?_⟩, h.shown hS.shown, ?_, ?_⟩
  · intro key id hkey
    rw [h.byKey] at hkey
    obtain ⟨was, hwas, hk⟩ := hS.indexed.byKey key id hkey
    obtain ⟨stream, hs, hroles⟩ := h.lookup_of hwas
    exact ⟨stream, hs, hroles.key.trans hk⟩
  · intro id stream hs
    obtain ⟨was, hwas, hroles⟩ := h.lookup hs
    obtain ⟨hby, hid⟩ := hS.indexed.byId id was hwas
    rw [h.byKey, hroles.key, hroles.id]
    exact ⟨hby, hid⟩
  · intro id stream hs
    obtain ⟨was, hwas, -⟩ := h.lookup hs
    rw [h.next]
    exact hS.indexed.fresh id was hwas
  · intro id stream hs
    obtain ⟨was, hwas, hroles⟩ := h.lookup hs
    exact hroles.occupied (hS.occupied id was hwas)
  · intro id stream hs
    obtain ⟨was, hwas, hroles⟩ := h.lookup hs
    exact hroles.positive (hS.positive id was hwas)

theorem multiplicity {id : StreamId} {session : SessionId} :
    inner'.multiplicity id session = inner.multiplicity id session := by
  unfold RegistryInner.multiplicity
  cases hs : inner.streams.lookup id with
  | none =>
    obtain ⟨f, hf, -⟩ := h.streams
    rw [hf, hs]
    rfl
  | some was =>
    obtain ⟨stream, hs', hroles⟩ := h.lookup_of hs
    rw [hs', Option.bind_some, Option.bind_some, hroles.subscribers]

end Refreshes

namespace Edits

variable {inner inner' : RegistryInner ρ σ} {id : StreamId} {stream : MutableStream ρ}
  {now : Option (MutableStream ρ)}

theorem positive (h : Edits inner inner' id stream now) (hS : inner.Sound) : stream.Positive := by
  rcases h.lookup_eq hS.indexed with hold | ⟨-, _, hnew⟩
  · exact hS.positive id stream hold
  · rw [hnew]
    intro session count hcount
    cases hcount

theorem sound (h : Edits inner inner' id stream now) (hS : inner.Sound)
    (hnow : ∀ stream', now = some stream' → stream'.Occupied ∧ stream'.Positive) :
    inner'.Sound := by
  have hstream : ∀ i s, inner'.streams.lookup i = some s → s.Occupied ∧ s.Positive := by
    intro i s hs
    rw [h.streams] at hs
    split_ifs at hs
    · exact hnow s hs
    · exact ⟨hS.occupied i s hs, hS.positive i s hs⟩
  exact ⟨h.indexed hS.indexed, h.shown hS.shown, fun i s hs => (hstream i s hs).1,
    fun i s hs => (hstream i s hs).2⟩

variable {session : SessionId} {i : StreamId}

variable (h : Edits inner inner' id stream now)
include h

theorem multiplicity_id (hI : inner.Indexed) :
    inner.multiplicity id session = (stream.subscribers.lookup session).getD 0 := by
  unfold RegistryInner.multiplicity
  rcases h.lookup_eq hI with hold | ⟨hnone, _, hnew⟩
  · rw [hold, Option.bind_some]
  · rw [hnone, hnew]
    rfl

theorem multiplicity : inner'.multiplicity i session =
      if i = id then (now.bind fun stream' => stream'.subscribers.lookup session).getD 0
      else inner.multiplicity i session := by
  unfold RegistryInner.multiplicity
  rw [h.streams]
  split_ifs <;> rfl

theorem multiplicity_same (hI : inner.Indexed)
    (hnow : ∀ session, (now.bind fun stream' => stream'.subscribers.lookup session).getD 0 =
      (stream.subscribers.lookup session).getD 0) :
    inner'.multiplicity i session = inner.multiplicity i session := by
  rw [h.multiplicity]
  split_ifs with hi
  · rw [hi, h.multiplicity_id hI, hnow]
  · rfl

end Edits

/-! ## `snapshot` -/

variable {stream : MutableStream ρ} {force : Bool} {inner : RegistryInner ρ σ}
  {status : RelayId → σ}

theorem refreshed_sameRoles {change : List ρ → Option (List ρ)} :
    SameRoles stream (refreshed change stream) := by
  unfold refreshed
  split
  · exact .refl
  · exact ⟨rfl, rfl, rfl, rfl, rfl, le_saturatingAdd⟩

theorem refreshRecorderStatuses_refreshes (change : StreamId → List ρ → Option (List ρ))
    (observedAtUnixMs : UInt64) (inner : RegistryInner ρ σ) :
    Refreshes inner (inner.refreshRecorderStatuses change observedAtUnixMs) := by
  unfold refreshRecorderStatuses
  split_ifs
  · exact {
      streams := ⟨fun id => refreshed _, fun id => lookup_mapVals,
        fun id stream _ => refreshed_sameRoles⟩
      byKey := rfl
      next := rfl
      revision := .inr rfl
      asOf := UInt64.le_iff_toNat_le.mpr (by
        rw [markMutation, toNat_max]
        exact le_max_left _ _)
      shown := fun hS => ⟨(fun h => nomatch h),
        fun _ => lt_saturatingAdd_one.imp_left (UInt64.lt_of_le_of_lt hS.older),
        UInt64.le_trans hS.older le_saturatingAdd⟩
      published := .inl rfl }
  · exact .refl

/-- The registry right before `snapshot` publishes, when it is forced to and when it is not. -/
def forced (force : Bool) (inner : RegistryInner ρ σ) : RegistryInner ρ σ :=
  if force then { inner with snapshotDirty := true } else inner

theorem snapshot_refreshes {change : StreamId → List ρ → Option (List ρ)}
    {observedAtUnixMs : UInt64} :
    Refreshes inner (inner.snapshot status change observedAtUnixMs) := by
  have h := refreshRecorderStatuses_refreshes change observedAtUnixMs inner
  change Refreshes inner (((inner.refreshRecorderStatuses change observedAtUnixMs).forced
    _).publishSnapshotIfDirty status)
  generalize inner.refreshRecorderStatuses change _ = base at h
  -- a registry that is dirty shows what it holds once it has published
  have hpublish : Refreshes inner
      ({ base with snapshotDirty := true }.publishSnapshotIfDirty status) := { h with
    shown := fun _ => ⟨fun _ => ⟨status, rfl⟩, (fun hd => nomatch hd), UInt64.le_refl _⟩
    published := .inr ⟨status, rfl⟩ }
  rw [forced]
  split_ifs
  · exact hpublish
  · by_cases hd : base.snapshotDirty = true
    · rwa [← hd] at hpublish
    · rwa [publishSnapshotIfDirty, if_neg hd]

theorem setStream_refreshes {id : StreamId} {stream' : MutableStream ρ}
    (h : inner.streams.lookup id = some stream) (hroles : SameRoles stream stream')
    (hsame : ∀ status : RelayId → σ, stream'.snapshot status = stream.snapshot status) :
    Refreshes inner (inner.setStream id stream') where
  streams := by
    refine ⟨fun i s => if i = id then stream' else s, fun i => ?_, fun i s hs => ?_⟩
    · rw [lookup_setStream h]
      split_ifs with hi
      · subst hi
        simp [h]
      · simp [hi]
    · beta_reduce
      split_ifs with hi
      · rw [hi, h] at hs
        exact Option.some.inj hs ▸ hroles
      · exact .refl
  byKey := rfl
  next := rfl
  revision := .inl ⟨rfl, fun _ => render_setStream h hsame⟩
  asOf := UInt64.le_refl _
  shown hS := ⟨fun hd => by
      obtain ⟨status, hstatus⟩ := hS.clean hd
      exact ⟨status, hstatus.trans (render_setStream h hsame).symm⟩, hS.dirty, hS.older⟩
  published := .inl rfl

end RegistryInner

end Oxiroute.Rtmp
