import Oxiroute.Rtmp.Registry

/-!
# What an operation does to the registry

* `Edits` is the effect of an operation on one stream: the stream was there or is new, it is written
  or removed, in both indexes, the revisions go up and the snapshot is published or left behind.
* One `_spec` lemma for each operation says that it fails and changes nothing, or edits a stream,
  and how.
-/

namespace Oxiroute.Rtmp

open Lib Table

variable {ρ σ : Type}

namespace RegistryInner

/-- The two indexes are inverse to each other, and an id is not used twice. -/
structure Indexed (inner : RegistryInner ρ σ) : Prop where
  byKey : ∀ key id, inner.streamsByKey.lookup key = some id →
    ∃ stream, inner.streams.lookup id = some stream ∧ stream.key = key
  byId : ∀ id stream, inner.streams.lookup id = some stream →
    inner.streamsByKey.lookup stream.key = some id ∧ stream.id = id
  fresh : ∀ id stream, inner.streams.lookup id = some stream → id < inner.nextStreamId

/-- The snapshot shows the registry when it is not dirty, and it is of an older revision when it is.
-/
structure Shown (inner : RegistryInner ρ σ) : Prop where
  clean : inner.snapshotDirty = false → ∃ status, inner.current = inner.render status
  dirty : inner.snapshotDirty = true →
    inner.current.revision < inner.revision ∨ inner.revision.toNat = maxUInt64
  older : inner.current.revision ≤ inner.revision

/-- The effect of an operation on the stream of `id`, which was `stream` or did not exist and was
created as `stream`, and is `now` afterwards. -/
structure Edits (inner inner' : RegistryInner ρ σ) (id : StreamId) (stream : MutableStream ρ)
    (now : Option (MutableStream ρ)) : Prop where
  streams : ∀ i, inner'.streams.lookup i = if i = id then now else inner.streams.lookup i
  byKey : ∀ key, inner'.streamsByKey.lookup key =
    if key = stream.key then now.map fun _ => id else inner.streamsByKey.lookup key
  target : inner.streams.lookup id = some stream ∨
    (inner.streamsByKey.lookup stream.key = none ∧ id = inner.nextStreamId ∧
      inner'.nextStreamId = id + 1 ∧ ∃ atUnixMs, stream = .new id stream.key atUnixMs)
  next : inner.nextStreamId ≤ inner'.nextStreamId
  kept : ∀ stream', now = some stream' →
    stream'.key = stream.key ∧ stream'.id = stream.id ∧ stream.revision ≤ stream'.revision
  revision : inner'.revision = saturatingAdd inner.revision 1
  asOf : inner.asOfUnixMs ≤ inner'.asOfUnixMs
  snapshot : (inner'.snapshotDirty = false ∧ ∃ status, inner'.current = inner'.render status) ∨
    (inner'.snapshotDirty = true ∧ inner'.current = inner.current)

/-! ## Helpers -/

section Helpers

variable {inner : RegistryInner ρ σ}

theorem lookup_setStream {id : StreamId} {was : MutableStream ρ}
    (h : inner.streams.lookup id = some was) {stream : MutableStream ρ} {i : StreamId} :
    (inner.setStream id stream).streams.lookup i =
      if i = id then some stream else inner.streams.lookup i := by
  unfold setStream
  split_ifs with hi
  · rw [hi, lookup_update_self, h, Option.map_some]
  · exact lookup_update_ne hi

end Helpers

/-- The tables of a registry in the middle of an operation, before the mutation is marked. -/
structure Rewritten (inner base : RegistryInner ρ σ) (id : StreamId) (stream : MutableStream ρ)
    (now : Option (MutableStream ρ)) : Prop where
  streams : ∀ i, base.streams.lookup i = if i = id then now else inner.streams.lookup i
  byKey : ∀ key, base.streamsByKey.lookup key =
    if key = stream.key then now.map fun _ => id else inner.streamsByKey.lookup key
  target : inner.streams.lookup id = some stream ∨
    (inner.streamsByKey.lookup stream.key = none ∧ id = inner.nextStreamId ∧
      base.nextStreamId = id + 1 ∧ ∃ atUnixMs, stream = .new id stream.key atUnixMs)
  next : inner.nextStreamId ≤ base.nextStreamId
  kept : ∀ stream', now = some stream' →
    stream'.key = stream.key ∧ stream'.id = stream.id ∧ stream.revision ≤ stream'.revision
  revision : base.revision = inner.revision
  asOf : base.asOfUnixMs = inner.asOfUnixMs
  current : base.current = inner.current

namespace Rewritten

variable {inner base : RegistryInner ρ σ} {id : StreamId} {stream : MutableStream ρ}
  {now : Option (MutableStream ρ)}

theorem marked (h : Rewritten inner base id stream now) (atUnixMs : UInt64) :
    Edits inner (base.markMutation atUnixMs) id stream now where
  streams := h.streams
  byKey := h.byKey
  target := h.target
  next := h.next
  kept := h.kept
  revision := congrArg (saturatingAdd · 1) h.revision
  asOf := by
    rw [← h.asOf]
    exact UInt64.le_iff_toNat_le.mpr (by
      rw [markMutation, toNat_max]
      exact le_max_left _ _)
  snapshot := .inr ⟨rfl, h.current⟩

theorem published (h : Rewritten inner base id stream now) {status : RelayId → σ}
    {atUnixMs : UInt64} :
    Edits inner ((base.markMutation atUnixMs).publishSnapshotIfDirty status) id stream now :=
  { h.marked atUnixMs with snapshot := .inl ⟨rfl, status, rfl⟩ }

end Rewritten

variable {inner : RegistryInner ρ σ}

theorem Indexed.setStream (hI : inner.Indexed) {id : StreamId} {stream : MutableStream ρ}
    (h : inner.streams.lookup id = some stream) (stream' : MutableStream ρ)
    (hkey : stream'.key = stream.key) (hid : stream'.id = stream.id)
    (hrev : stream.revision ≤ stream'.revision) :
    Rewritten inner (inner.setStream id stream') id stream (some stream') where
  streams _ := lookup_setStream h
  byKey key := by
    split_ifs with hk
    · rw [hk]
      exact (hI.byId id stream h).1
    · rfl
  target := .inl h
  next := le_rfl
  kept stream'' h'' := by
    cases h''
    exact ⟨hkey, hid, hrev⟩
  revision := rfl
  asOf := rfl
  current := rfl

theorem Rewritten.removeStream {base : RegistryInner ρ σ} {id : StreamId}
    {stream stream' : MutableStream ρ} (h : Rewritten inner base id stream (some stream')) :
    Rewritten inner (base.removeStream id) id stream none := by
  have hbase : base.streams.lookup id = some stream' := by rw [h.streams, if_pos rfl]
  have hkey := (h.kept stream' rfl).1
  rw [RegistryInner.removeStream, hbase]
  exact {
    streams := fun i => by
      rw [lookup_erase, h.streams]
      split_ifs <;> rfl
    byKey := fun key => by
      rw [lookup_erase, h.byKey, hkey]
      split_ifs <;> rfl
    target := h.target
    next := h.next
    kept := fun _ h' => nomatch h'
    revision := h.revision
    asOf := h.asOf
    current := h.current }

theorem Indexed.ensureStream (hI : inner.Indexed) {key : StreamKey} {atUnixMs : UInt64} :
    ∃ id stream base, inner.ensureStream key atUnixMs = (id, base) ∧
      base.streams.lookup id = some stream ∧ stream.key = key ∧
      (stream.publisher.isSome → base = inner) ∧
      ∀ stream' : MutableStream ρ, stream'.key = stream.key → stream'.id = stream.id →
        stream.revision ≤ stream'.revision →
        Rewritten inner (base.setStream id stream') id stream (some stream') := by
  unfold RegistryInner.ensureStream
  cases hkey : inner.streamsByKey.lookup key with
  | some id =>
    obtain ⟨stream, hs, hk⟩ := hI.byKey key id hkey
    exact ⟨id, stream, inner, rfl, hs, hk, fun _ => rfl, hI.setStream hs⟩
  | none =>
    refine ⟨inner.nextStreamId, .new _ key atUnixMs, _, rfl, AList.lookup_insert _,
      rfl, (fun h => nomatch h), ?_⟩
    intro stream' hk hid hrev
    exact {
      streams := fun i => by
        rw [lookup_setStream (AList.lookup_insert _)]
        split_ifs with hi
        · rfl
        · exact AList.lookup_insert_ne hi
      byKey := fun key' => by
        change (inner.streamsByKey.insert key inner.nextStreamId).lookup key' = _
        rw [lookup_insert]
        rfl
      target := .inr ⟨hkey, rfl, rfl, atUnixMs, rfl⟩
      next := Nat.le_succ _
      kept := fun _ h => by
        cases h
        exact ⟨hk, hid, hrev⟩
      revision := rfl
      asOf := rfl
      current := rfl }

/-! ## Operations -/

section Operations

variable {inner : RegistryInner ρ σ} (status : RelayId → σ) (key : StreamKey) (session : SessionId)
  (atUnixMs : UInt64)

/-- `attach_publisher_inner` fails, finds the session publishing, or attaches it. -/
theorem Indexed.attachPublisherInner_spec (hI : inner.Indexed) (recorders : List ρ)
    (relays : List RelayId) :
    (∃ e, inner.attachPublisherInner status key session recorders relays atUnixMs =
        (.error e, inner)) ∨
      (∃ id stream, inner.attachPublisherInner status key session recorders relays atUnixMs =
          (.ok id, inner) ∧ inner.streams.lookup id = some stream ∧
        stream.publisherSession = some session) ∨
      ∃ id stream inner', inner.attachPublisherInner status key session recorders relays atUnixMs =
          (.ok id, inner') ∧ stream.key = key ∧ stream.publisher = none ∧
        Edits inner inner' id stream
          (some (stream.attached session recorders relays atUnixMs)) := by
  obtain ⟨id, stream, base, heq, hs, hk, hpub, hwrite⟩ := hI.ensureStream
  unfold attachPublisherInner
  by_cases hopen : inner.admissionOpen = true
  · rw [if_pos hopen]
    rw [heq]
    dsimp only
    rw [hs]
    dsimp only
    cases hp : stream.publisher with
    | some publisher =>
      obtain rfl := hpub (by rw [hp]; rfl)
      by_cases hsession : publisher.sessionId = session
      · simp only [if_pos hsession]
        exact .inr (.inl ⟨id, stream, rfl, hs, by
          rw [MutableStream.publisherSession, hp, Option.map_some, hsession]⟩)
      · simp only [if_neg hsession]
        exact .inl ⟨_, rfl⟩
    | none =>
      exact .inr (.inr ⟨id, stream, _, rfl, hk, hp,
        (hwrite (stream.attached session recorders relays atUnixMs) rfl rfl
          le_saturatingAdd).published⟩)
  · rw [if_neg hopen]
    exact .inl ⟨_, rfl⟩

theorem Indexed.attachSubscriber_spec (hI : inner.Indexed) :
    (∃ e, inner.attachSubscriber status key session atUnixMs = (.error e, inner)) ∨
      ∃ id stream inner', inner.attachSubscriber status key session atUnixMs = (.ok id, inner') ∧
        Edits inner inner' id stream (some (stream.subscribed session)) := by
  obtain ⟨id, stream, base, heq, hs, -, -, hwrite⟩ := hI.ensureStream
  unfold attachSubscriber
  by_cases hopen : inner.admissionOpen = true
  · rw [if_pos hopen]
    rw [heq]
    dsimp only
    rw [hs]
    exact .inr ⟨id, stream, _, rfl,
      (hwrite (stream.subscribed session) rfl rfl le_saturatingAdd).published⟩
  · rw [if_neg hopen]
    exact .inl ⟨_, rfl⟩

/-- `detach_publisher_inner` fails, or takes the publisher of that session away, and the stream with
it when nobody views it. -/
theorem Indexed.detachPublisherInner_spec (hI : inner.Indexed) (id : StreamId) :
    (∃ e, inner.detachPublisherInner status id session atUnixMs = (.error e, inner) ∧
        ∀ stream, inner.streams.lookup id = some stream → stream.publisherSession ≠ some session) ∨
      ∃ stream inner', inner.detachPublisherInner status id session atUnixMs = (.ok (), inner') ∧
        inner.streams.lookup id = some stream ∧ stream.publisherSession = some session ∧
        Edits inner inner' id stream
          (if stream.subscribers.entries.isEmpty then none else some stream.detached) := by
  unfold detachPublisherInner
  cases hs : inner.streams.lookup id with
  | none => exact .inl ⟨_, rfl, fun _ h => nomatch h⟩
  | some stream =>
    by_cases hsession : stream.publisherSession = some session
    · simp only [if_pos hsession]
      refine .inr ⟨stream, _, rfl, rfl, hsession, ?_⟩
      have hwrite := hI.setStream hs stream.detached rfl rfl le_saturatingAdd
      split_ifs
      · exact hwrite.removeStream.published
      · exact hwrite.published
    · simp only [if_neg hsession]
      refine .inl ⟨_, rfl, ?_⟩
      intro stream' h'
      cases h'
      exact hsession

/-- `detach_subscriber` fails, or counts the session once less, and removes the stream when nobody
is left. -/
theorem Indexed.detachSubscriber_spec (hI : inner.Indexed) {id : StreamId} :
    (∃ e, inner.detachSubscriber status id session atUnixMs = (.error e, inner) ∧
        ∀ stream, inner.streams.lookup id = some stream →
          stream.subscribers.lookup session = none) ∨
      ∃ stream count inner', inner.detachSubscriber status id session atUnixMs = (.ok (), inner') ∧
        inner.streams.lookup id = some stream ∧ stream.subscribers.lookup session = some count ∧
        Edits inner inner' id stream (if (stream.publisher.isNone &&
              (stream.unsubscribed session count).subscribers.entries.isEmpty) then none
            else some (stream.unsubscribed session count)) := by
  unfold detachSubscriber
  cases hs : inner.streams.lookup id with
  | none => exact .inl ⟨_, rfl, fun _ h => nomatch h⟩
  | some stream =>
    cases hcount : stream.subscribers.lookup session with
    | none =>
      simp only [hcount]
      refine .inl ⟨_, rfl, ?_⟩
      intro stream' h'
      cases h'
      exact hcount
    | some count =>
      simp only [hcount]
      refine .inr ⟨stream, count, _, rfl, rfl, hcount, ?_⟩
      have hwrite := hI.setStream hs (stream.unsubscribed session count) rfl rfl le_saturatingAdd
      have hpub : (stream.unsubscribed session count).publisher = stream.publisher := rfl
      rw [hpub]
      split_ifs
      · exact hwrite.removeStream.published
      · exact hwrite.published

theorem render_setStream {id : StreamId} {stream stream' : MutableStream ρ}
    (h : inner.streams.lookup id = some stream)
    (hsame : ∀ status : RelayId → σ, stream'.snapshot status = stream.snapshot status)
    {status : RelayId → σ} : (inner.setStream id stream').render status = inner.render status := by
  have hstreams : (inner.setStream id stream').streams.entries.map
        (fun entry => entry.2.snapshot status) =
      inner.streams.entries.map (fun entry => entry.2.snapshot status) := by
    simp only [RegistryInner.setStream, Table.update, Table.mapVals, List.map_map]
    refine List.map_congr_left ?_
    intro entry hentry
    simp only [Function.comp_apply]
    split_ifs with hi
    · have hmem := mem_entries_iff.mp hentry
      rw [hi, h] at hmem
      rw [← Option.some.inj hmem, hsame]
    · rfl
  unfold render
  rw [hstreams]
  rfl

/-- `update_media_sample` fails, notes the activity only, or writes the sample. -/
theorem Indexed.updateMediaSample_spec (hI : inner.Indexed) (id : StreamId) (sequence : UInt64)
    (media : MediaSnapshot) :
    (∃ e, inner.updateMediaSample id session sequence media atUnixMs = (.error e, inner)) ∨
      ∃ stream activity, inner.streams.lookup id = some stream ∧
        stream.publisherSession = some session ∧
        (inner.updateMediaSample id session sequence media atUnixMs =
            (.ok false, inner.setStream id { stream with publisherActivityAtUnixMs := activity }) ∨
          ∃ inner', inner.updateMediaSample id session sequence media atUnixMs =
              (.ok true, inner') ∧ Edits inner inner' id stream (some { stream with
                publisherActivityAtUnixMs := activity
                mediaSampleSequence := sequence
                media := media }.revised)) := by
  unfold updateMediaSample
  cases hs : inner.streams.lookup id with
  | none => exact .inl ⟨_, rfl⟩
  | some stream =>
    by_cases hsession : stream.publisherSession = some session
    · simp only [if_pos hsession]
      refine .inr ⟨stream, max stream.publisherActivityAtUnixMs atUnixMs, rfl, hsession, ?_⟩
      split_ifs
      · exact .inl rfl
      · refine .inr ⟨_, rfl, ?_⟩
        have hwrite := hI.setStream hs { stream with
            publisherActivityAtUnixMs := max stream.publisherActivityAtUnixMs atUnixMs
            mediaSampleSequence := sequence
            media := media }.revised rfl rfl le_saturatingAdd
        -- The counters of the work done are outside of every table.
        have hstats : ∀ stats, Rewritten inner
            { inner.setStream id _ with workStats := stats } id stream (some _) := fun stats =>
          ⟨hwrite.streams, hwrite.byKey, hwrite.target, hwrite.next, hwrite.kept, hwrite.revision,
            hwrite.asOf, hwrite.current⟩
        exact (hstats _).marked atUnixMs
    · simp only [if_neg hsession]
      exact .inl ⟨_, rfl⟩

theorem Indexed.updateRecorders_spec (hI : inner.Indexed) (id : StreamId)
    (change : List ρ → Option (List ρ)) : inner.updateRecorders id session change atUnixMs = inner ∨
      ∃ stream recorders, inner.streams.lookup id = some stream ∧
        stream.publisherSession = some session ∧
        Edits inner (inner.updateRecorders id session change atUnixMs) id stream
          (some { stream with recorders := recorders }.revised) := by
  unfold updateRecorders
  cases hs : inner.streams.lookup id with
  | none => exact .inl rfl
  | some stream =>
    by_cases hsession : stream.publisherSession = some session
    · simp only [if_pos hsession]
      cases change _ with
      | none => exact .inl rfl
      | some recorders =>
        exact .inr ⟨stream, recorders, rfl, hsession,
          (hI.setStream hs { stream with recorders := recorders }.revised rfl rfl
            le_saturatingAdd).marked atUnixMs⟩
    · simp only [if_neg hsession]
      exact .inl trivial

end Operations

/-! ## What an edit keeps -/

namespace Edits

variable {inner inner' : RegistryInner ρ σ} {id : StreamId} {stream : MutableStream ρ}
  {now : Option (MutableStream ρ)}

variable (h : Edits inner inner' id stream now)
include h

theorem lookup_eq (hI : inner.Indexed) : inner.streams.lookup id = some stream ∨
      inner.streams.lookup id = none ∧ ∃ atUnixMs, stream = .new id stream.key atUnixMs := by
  refine h.target.imp_right ?_
  rintro ⟨-, hid, -, hnew⟩
  refine ⟨?_, hnew⟩
  cases hs : inner.streams.lookup id with
  | none => rfl
  | some s =>
    exact absurd (hid ▸ hI.fresh id s hs) (lt_irrefl _)

theorem indexed (hI : inner.Indexed) : inner'.Indexed := by
  -- Only the stream of this id has this key.
  have hunique : ∀ i s, inner.streams.lookup i = some s → s.key = stream.key → i = id := by
    intro i s hs hkey
    have hby := (hI.byId i s hs).1
    rw [hkey] at hby
    rcases h.target with hold | ⟨hnone, -⟩
    · exact Option.some.inj (hby.symm.trans (hI.byId id stream hold).1)
    · rw [hnone] at hby
      cases hby
  have hid : stream.id = id := by
    rcases h.target with hold | ⟨-, -, -, _, hnew⟩
    · exact (hI.byId id stream hold).2
    · rw [hnew]
      rfl
  have hlt : ∀ s, now = some s → id < inner'.nextStreamId := by
    intro s _
    rcases h.target with hold | ⟨-, -, hn, -⟩
    · exact lt_of_lt_of_le (hI.fresh id stream hold) h.next
    · rw [hn]
      exact Nat.lt_succ_self id
  constructor
  · intro key i hkey
    rw [h.byKey] at hkey
    split_ifs at hkey with hk
    · obtain ⟨stream', hnow, rfl⟩ := Option.map_eq_some_iff.mp hkey
      exact ⟨stream', by rw [h.streams, if_pos rfl, hnow], ((h.kept stream' hnow).1).trans hk.symm⟩
    · obtain ⟨s, hs, hskey⟩ := hI.byKey key i hkey
      refine ⟨s, ?_, hskey⟩
      rw [h.streams, if_neg, hs]
      rintro rfl
      rcases h.lookup_eq hI with hold | ⟨hnone, -⟩
      · rw [hold] at hs
        cases hs
        exact hk hskey.symm
      · rw [hnone] at hs
        cases hs
  · intro i s hs
    rw [h.streams] at hs
    split_ifs at hs with hi
    · obtain ⟨hkey, hsid, -⟩ := h.kept s hs
      exact ⟨by rw [h.byKey, if_pos hkey, hs, hi]; rfl, by rw [hsid, hid, hi]⟩
    · obtain ⟨hby, hsid⟩ := hI.byId i s hs
      refine ⟨?_, hsid⟩
      rw [h.byKey, if_neg, hby]
      intro hkey
      exact hi (hunique i s hs hkey)
  · intro i s hs
    rw [h.streams] at hs
    split_ifs at hs with hi
    · rw [hi]
      exact hlt s hs
    · exact lt_of_lt_of_le (hI.fresh i s hs) h.next

theorem shown (hS : inner.Shown) : inner'.Shown := by
  rcases h.snapshot with ⟨hclean, status, hcurrent⟩ | ⟨hdirty, hcurrent⟩
  · refine ⟨fun _ => ⟨status, hcurrent⟩, fun hd => ?_, ?_⟩
    · rw [hclean] at hd
      cases hd
    · rw [hcurrent]
      exact UInt64.le_refl _
  · refine ⟨fun hd => ?_, fun _ => ?_, ?_⟩
    · rw [hdirty] at hd
      cases hd
    · rw [hcurrent, h.revision]
      refine lt_saturatingAdd_one.imp_left ?_
      intro hlt
      exact UInt64.lt_of_le_of_lt hS.older hlt
    · rw [hcurrent, h.revision]
      exact UInt64.le_trans hS.older le_saturatingAdd

end Edits

end RegistryInner

end Oxiroute.Rtmp
