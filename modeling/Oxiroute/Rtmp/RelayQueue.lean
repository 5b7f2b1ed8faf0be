import Oxiroute.Rtmp.LiveDecodable

/-!
# The queue of an upstream relay

Model of `RtmpRelayController::try_enqueue`, `RelayCache` and the sending loop of
`crates/oxiroute-rtmp/src/relay.rs`.

* `queue_bytes` and `queue_started_at` follow from the queue: its size, and whether it holds
  anything.
* `accepted`, `bootstrap` and `sent` are ghost data: what was accepted, and of the established
  connection what `take_bootstrap` returned and is not yet sent, and what was sent.
* `Chained` and `Headed` are what a decoder at the other end needs.

A new connection starts from the cached keyframe, and the frames after it go on without those that
were accepted in between. `run_chained` says when no such gap arises.
-/

namespace Oxiroute.Rtmp

open Lib Http List Nat Option
open Tagged (isHeaderOf)

/-! ## What a decoder needs -/

/-- An interframe comes after a keyframe of its stream and every reference event accepted since. -/
def Chained (issued before : List Tagged) (x : Tagged) : Prop :=
  x.kind = .videoInterframe → ∃ k ∈ before, k.kind = .videoKeyframe ∧
    k.incarnation = x.incarnation ∧
    k.position < x.position ∧ ∀ y ∈ referencesSince k (publishedBefore x issued), y ∈ before

/-- A keyframe comes after the latest sequence header of its codec. -/
def Headed (issued before : List Tagged) (x : Tagged) : Prop :=
  x.kind = .videoKeyframe → ∀ h,
    latest (isHeaderOf x.videoCodec) x.incarnation (publishedBefore x issued) = some h → h ∈ before

/-- What was given since a keyframe of the stream holds every reference event accepted since. -/
def Following (issued seen : List Tagged) (incarnation : UInt64) : Prop :=
  ∃ k ∈ seen, k.kind = .videoKeyframe ∧ k.incarnation = incarnation ∧ k.position < issued.length ∧
    ∀ y ∈ referencesSince k issued, y ∈ seen

section following

variable {issued seen : List Tagged} {e : Tagged} {incarnation : UInt64}

theorem Following.append (h : Following issued seen incarnation) {rest : List Tagged} :
    Following issued (seen ++ rest) incarnation := by
  obtain ⟨k, hk, hkey, hinc, hpos, hrefs⟩ := h
  exact ⟨k, mem_append_left _ hk, hkey, hinc, hpos, fun y hy => mem_append_left _ (hrefs y hy)⟩

/-- One more event, which is given if the stream needs it. -/
theorem Following.snoc (h : Following issued seen incarnation)
    (he : e.incarnation = incarnation → e.kind.isReference = true → e ∈ seen) :
    Following (issued ++ [e]) seen incarnation := by
  obtain ⟨k, hk, hkey, hinc, hpos, hrefs⟩ := h
  refine ⟨k, hk, hkey, hinc, ?_, fun y hy => ?_⟩
  · rw [length_append]
    exact Nat.lt_add_right _ hpos
  · rw [referencesSince_snoc, mem_append] at hy
    rcases hy with hy | hy
    · exact hrefs y hy
    · split_ifs at hy with hneeded
      · obtain rfl := mem_singleton.mp hy
        exact he (hneeded.1.1.trans hinc) hneeded.2
      · cases hy

theorem following_keyframe {k : Tagged} (hk : k ∈ seen) (hkey : k.kind = .videoKeyframe)
    (hpos : k.position < issued.length) (hlast : referencesSince k issued = []) :
    Following issued seen k.incarnation :=
  ⟨k, hk, hkey, rfl, hpos, fun y hy => by rw [hlast] at hy; cases hy⟩

theorem referencesSince_last (hnum : Numbered issued) (he : e.position = issued.length) :
    referencesSince e (issued ++ [e]) = [] := by
  refine filter_eq_nil_iff.mpr fun y hy => ?_
  have hle : y.position ≤ e.position := by
    rcases mem_append.mp hy with hy | hy
    · exact he ▸ (hnum y hy).le
    · exact (mem_singleton.mp hy) ▸ le_refl _
  simp [not_lt.mpr hle]

theorem Following.chained (h : Following issued seen e.incarnation) (hnum : Numbered issued)
    (he : e.position = issued.length) : Chained (issued ++ [e]) seen e := by
  intro _
  obtain ⟨k, hk, hkey, hinc, hpos, hrefs⟩ := h
  exact ⟨k, hk, hkey, hinc, he ▸ hpos, by rwa [publishedBefore_last hnum he]⟩

end following

/-! ## The relay -/

structure RelayCache where
  metadata : Option Tagged
  aacHeader : Option Tagged
  videoHeaders : Table VideoCodec Tagged
  keyframe : Option Tagged
  latestAudio : Option Tagged

namespace RelayCache

/-- `RelayCache::update`, and whether a codec header has changed. -/
def update (cache : RelayCache) (e : Tagged) : Bool × RelayCache :=
  match e.kind with
  | .metadata => (false, { cache with metadata := some e })
  | .aacSequenceHeader => (false, { cache with aacHeader := some e })
  | .avcSequenceHeader | .hevcSequenceHeader | .av1SequenceHeader =>
    match e.videoCodec with
    | some codec =>
        (true, { cache with keyframe := none, videoHeaders := cache.videoHeaders.insert codec e })
    | none => (false, cache)
  | .videoKeyframe => (false, { cache with keyframe := some e })
  | .audio => (false, { cache with latestAudio := some e })
  | .videoInterframe | .videoDisposable => (false, cache)

def bootstrap (cache : RelayCache) : List Tagged :=
  cache.metadata.toList ++ cache.aacHeader.toList ++
    match cache.keyframe with
    | some k => (k.videoCodec.bind cache.videoHeaders.lookup).toList ++ [k]
    | none => cache.latestAudio.toList

end RelayCache

/-- The bounds of `RtmpRelayConfig`. -/
structure RelayConfig where
  maxQueueMessages : ℕ
  maxQueueBytes : ℕ

def relayBytes (events : List Tagged) : ℕ := (events.map Tagged.payloadLen).sum

def fitsQueue (config : RelayConfig) (events : List Tagged) : Bool :=
  events.length ≤ config.maxQueueMessages && relayBytes events ≤ config.maxQueueBytes

/-- `RelayState`, and the connection of the sending loop. -/
structure RelayState where
  accepting : Bool
  waitingForKeyframe : Bool
  queue : List Tagged
  cache : RelayCache
  accepted : List Tagged
  connected : Bool
  bootstrap : List Tagged
  sent : List Tagged

namespace RelayState

/-- The state of `RtmpRelayController::start`. -/
def start : RelayState := ⟨true, false, [], ⟨none, none, ∅, none, none⟩, [], false, [], []⟩

/-- The queue is cleared, and what comes next has to be a keyframe if there is video. -/
def discard (s : RelayState) : RelayState :=
  { s with queue := [], waitingForKeyframe := s.cache.videoHeaders.entries ≠ [] }

variable (config : RelayConfig)

/-- A keyframe refills the queue from the cache, if that fits. -/
def refill (e : Tagged) (s : RelayState) : RelayState :=
  if e.kind = .videoKeyframe ∧ fitsQueue config s.cache.bootstrap then
    { s with queue := s.queue ++ s.cache.bootstrap, waitingForKeyframe := false }
  else s

/-- `try_enqueue` after the cache is updated. -/
def admitEvent (e : Tagged) (s : RelayState) : RelayState :=
  if s.waitingForKeyframe then s.refill config e
  else if config.maxQueueMessages ≤ s.queue.length ∨
      config.maxQueueBytes < relayBytes s.queue + e.payloadLen then
    s.discard.refill config e
  else { s with queue := s.queue ++ [e] }

/-- The event as it is logged. -/
def tag (s : RelayState) (event : MediaEvent) : Tagged := ⟨event, 0, s.accepted.length⟩

/-- The state after `cache.update`. -/
def cacheEvent (s : RelayState) (e : Tagged) : RelayState :=
  let s' := { s with cache := (s.cache.update e).2, accepted := s.accepted ++ [e] }
  if (s.cache.update e).1 then { s' with queue := [], waitingForKeyframe := true } else s'

def tryEnqueue (s : RelayState) (event : MediaEvent) : RelayState :=
  if s.accepting then (s.cacheEvent (s.tag event)).admitEvent config (s.tag event) else s

end RelayState

inductive RelayOp where
  | enqueue (event : MediaEvent)
  /-- A connection is established, and `take_bootstrap` is called. -/
  | connect
  /-- The next event of the bootstrap, or of `next_event`, is sent. -/
  | send
  /-- `next_event` finds that the queue is too old. -/
  | expire
  /-- The connection fails, after an event was taken from the queue or not. -/
  | disconnect (taken : Bool)
  /-- `deactivate`. -/
  | stop

namespace RelayState

def step (config : RelayConfig) (s : RelayState) : RelayOp → RelayState
  | .enqueue event => s.tryEnqueue config event
  | .connect =>
    if s.connected then s
    else { s with connected := true, queue := [], bootstrap := s.cache.bootstrap, sent := [] }
  | .send =>
    if s.connected then
      match s.bootstrap, s.queue with
      | e :: rest, _ => { s with bootstrap := rest, sent := s.sent ++ [e] }
      | [], e :: rest => { s with queue := rest, sent := s.sent ++ [e] }
      | [], [] => s
    else s
  | .expire => if s.connected ∧ s.bootstrap = [] ∧ s.queue ≠ [] then s.discard else s
  | .disconnect taken =>
    { s with connected := false, bootstrap := [], queue := if taken then s.queue.tail else s.queue }
  | .stop => { s with accepting := false, queue := [] }

/-- What the connection has been given, and what waits for it. -/
def seen (s : RelayState) : List Tagged := s.sent ++ s.bootstrap ++ s.queue

/-- A step that opens no gap: frames come after a sequence header, a keyframe that is queued has the
codec of the one before it, and a connection is made while nothing depends on what it does not get.
-/
def Gapless (s : RelayState) : RelayOp → Prop
  | .enqueue event =>
    (event.kind = .videoKeyframe ∨ event.kind = .videoInterframe →
      s.cache.videoHeaders.entries ≠ []) ∧
      (event.kind = .videoKeyframe → s.waitingForKeyframe = false →
        ∀ k ∈ s.cache.keyframe, k.videoCodec = event.videoCodec)
  | .connect =>
      s.waitingForKeyframe = true ∨ ∀ k ∈ s.cache.keyframe, referencesSince k s.accepted = []
  | _ => True

instance (s : RelayState) : ∀ op, Decidable (s.Gapless op)
  | .enqueue _ => inferInstanceAs (Decidable (_ ∧ _))
  | .connect => inferInstanceAs (Decidable (_ ∨ _))
  | .send | .expire | .disconnect _ | .stop => .isTrue trivial

end RelayState

/-! ## The cache -/

/-- What the other end of a connection needs before an event. -/
def Needs (issued before : List Tagged) (x : Tagged) : Prop :=
  Chained issued before x ∧ Headed issued before x

section needs

variable {issued seen before : List Tagged} {e x : Tagged} {cache : RelayCache}

theorem needs_of_not_frame (h : x.kind ≠ .videoInterframe ∧ x.kind ≠ .videoKeyframe) :
    Needs issued before x := ⟨fun hk => absurd hk h.1, fun hk => absurd hk h.2⟩

theorem latest_header_snoc (h : e.kind.headerCodec = none) {codec : Option VideoCodec} :
    latest (isHeaderOf codec) 0 (issued ++ [e]) = latest (isHeaderOf codec) 0 issued := by
  rw [latest_snoc, if_neg]
  rintro ⟨-, hp⟩
  cases codec <;> simp [isHeaderOf, h] at hp

/-- An entry of the cache that is not video. -/
def RelayCache.Other (cache : RelayCache) (x : Tagged) : Prop :=
  cache.metadata = some x ∨ cache.aacHeader = some x ∨ cache.latestAudio = some x

/-- The cache holds the latest headers, and a keyframe that no header has followed. -/
structure Cached (issued : List Tagged) (cache : RelayCache) : Prop where
  header : ∀ codec, cache.videoHeaders.lookup codec = latest (isHeaderOf (some codec)) 0 issued
  keyframe : ∀ k, cache.keyframe = some k → k.kind = .videoKeyframe ∧ k.incarnation = 0 ∧
    k.position < issued.length ∧ latest (isHeaderOf k.videoCodec) 0 (publishedBefore k issued) =
      latest (isHeaderOf k.videoCodec) 0 issued
  plain : ∀ x, cache.Other x → x.position < issued.length ∧ x.kind.isVideo = false

/-- An event that is no sequence header, and that may take the place of a keyframe or of another
event. -/
theorem Cached.keep {cache' : RelayCache} (h : Cached issued cache) (hnum : Numbered issued)
    (he : e.position = issued.length ∧ e.incarnation = 0) (hheader : e.kind.headerCodec = none)
    (hheaders : cache'.videoHeaders = cache.videoHeaders)
    (hkeyframe : ∀ k, cache'.keyframe = some k → cache.keyframe = some k ∨ k = e ∧
      e.kind = .videoKeyframe)
    (hplain : ∀ x, cache'.Other x → cache.Other x ∨ x = e ∧ e.kind.isVideo = false) :
      Cached (issued ++ [e]) cache' := by
  have hlength : (issued ++ [e]).length = issued.length + 1 := length_append
  refine ⟨fun codec => ?_, fun k hk => ?_, fun x hx => ?_⟩
  · rw [hheaders, latest_header_snoc hheader, h.header]
  · rw [latest_header_snoc hheader, hlength]
    rcases hkeyframe k hk with hold | ⟨rfl, hkind⟩
    · obtain ⟨hkind, hinc, hpos, hlatest⟩ := h.keyframe k hold
      rw [publishedBefore_snoc hpos.le he.1]
      exact ⟨hkind, hinc, lt_succ_of_lt hpos, hlatest⟩
    · rw [publishedBefore_last hnum he.1]
      exact ⟨hkind, he.2, by omega, rfl⟩
  · rw [hlength]
    rcases hplain x hx with hold | ⟨rfl, hkind⟩
    · exact ⟨lt_succ_of_lt (h.plain x hold).1, (h.plain x hold).2⟩
    · exact ⟨by omega, hkind⟩

theorem Cached.update (h : Cached issued cache) (hnum : Numbered issued)
    (he : e.position = issued.length ∧ e.incarnation = 0) :
    Cached (issued ++ [e]) (cache.update e).2 := by
  have hheader : ∀ codec, e.kind.headerCodec = some codec → Cached (issued ++ [e])
      { cache with keyframe := none, videoHeaders := cache.videoHeaders.insert codec e } := by
    intro codec hcodec
    refine ⟨fun c => ?_, fun k hk => (by cases hk), fun x hx => ?_⟩
    · rw [Table.lookup_insert, latest_snoc]
      by_cases hc : c = codec
      · rw [if_pos hc, if_pos ⟨he.2, by simp [isHeaderOf, hcodec, hc]⟩]
      · rw [if_neg hc, if_neg (by simp [isHeaderOf, hcodec, Ne.symm hc]), h.header]
    · rw [length_append]
      exact ⟨Nat.lt_add_right _ (h.plain x hx).1, (h.plain x hx).2⟩
  unfold RelayCache.update
  split
  case h_3 hkind | h_4 hkind | h_5 hkind =>
    have hcodec : e.event.kind.headerCodec = _ := congrArg _ hkind
    rw [Tagged.videoCodec, MediaEvent.videoCodec_of_header hcodec]
    exact hheader _ hcodec
  case h_1 hkind =>
    refine h.keep hnum he (by rw [hkind]; rfl) rfl (fun k hk => .inl hk) fun x hx => ?_
    rcases hx with ⟨⟨⟩⟩ | hx | hx
    · exact .inr ⟨rfl, by rw [hkind]; rfl⟩
    · exact .inl (.inr (.inl hx))
    · exact .inl (.inr (.inr hx))
  case h_2 hkind =>
    refine h.keep hnum he (by rw [hkind]; rfl) rfl (fun k hk => .inl hk) fun x hx => ?_
    rcases hx with hx | ⟨⟨⟩⟩ | hx
    · exact .inl (.inl hx)
    · exact .inr ⟨rfl, by rw [hkind]; rfl⟩
    · exact .inl (.inr (.inr hx))
  case h_6 hkind =>
    refine h.keep hnum he (by rw [hkind]; rfl) rfl (fun k hk => .inr ⟨?_, hkind⟩) fun x hx =>
      .inl hx
    exact (some.inj hk).symm
  case h_7 hkind =>
    refine h.keep hnum he (by rw [hkind]; rfl) rfl (fun k hk => .inl hk) fun x hx => ?_
    rcases hx with hx | hx | ⟨⟨⟩⟩
    · exact .inl (.inl hx)
    · exact .inl (.inr (.inl hx))
    · exact .inr ⟨rfl, by rw [hkind]; rfl⟩
  all_goals
    rename_i hkind
    exact h.keep hnum he (by rw [hkind]; rfl) rfl (fun k hk => .inl hk) fun x hx => .inl hx

/-- What an update does: a header takes the place of the keyframe, and nothing else touches the
headers. -/
theorem update_cases :
    ((cache.update e).1 = true ∧ e.kind ≠ .videoKeyframe ∧ (cache.update e).2.keyframe = none) ∨
    ((cache.update e).1 = false ∧ e.kind.headerCodec = none ∧
      (cache.update e).2.videoHeaders = cache.videoHeaders ∧
      (cache.update e).2.keyframe = if e.kind =
        .videoKeyframe then some e else cache.keyframe) := by
  unfold RelayCache.update
  split
  case h_3 hkind | h_4 hkind | h_5 hkind =>
    have hcodec : e.event.kind.headerCodec = _ := congrArg _ hkind
    rw [Tagged.videoCodec, MediaEvent.videoCodec_of_header hcodec, hkind]
    exact .inl ⟨rfl, MediaEventKind.noConfusion, rfl⟩
  all_goals
    rename_i hkind
    rw [hkind]
    exact .inr ⟨rfl, rfl, rfl, rfl⟩

/-- What a bootstrap holds: events that need nothing, and then the keyframe, whose header is among
them. -/
theorem Cached.mem_bootstrap (h : Cached issued cache) (hnum : Numbered issued) :
    ∃ setup, cache.bootstrap = setup ++ cache.keyframe.toList ∧
      (∀ x ∈ setup, x.position < issued.length ∧ x.kind ≠ .videoInterframe ∧
        x.kind ≠ .videoKeyframe) ∧
      ∀ k, cache.keyframe = some k → ∀ x ∈ k.videoCodec.bind cache.videoHeaders.lookup,
        x ∈ setup := by
  have hplain : ∀ x, cache.Other x →
      x.position < issued.length ∧ x.kind ≠ .videoInterframe ∧ x.kind ≠ .videoKeyframe := by
    intro x hx
    obtain ⟨hpos, hkind⟩ := h.plain x hx
    refine ⟨hpos, fun hk => ?_, fun hk => ?_⟩
    · rw [hk] at hkind
      cases hkind
    · rw [hk] at hkind
      cases hkind
  have hshared : ∀ x ∈ cache.metadata.toList ++ cache.aacHeader.toList,
      x.position < issued.length ∧ x.kind ≠ .videoInterframe ∧ x.kind ≠ .videoKeyframe := by
    intro x hx
    rcases mem_append.mp hx with hx | hx
    · exact hplain x (.inl (mem_toList.mp hx))
    · exact hplain x (.inr (.inl (mem_toList.mp hx)))
  unfold RelayCache.bootstrap
  cases hk : cache.keyframe with
  | none =>
    refine ⟨_, (append_nil _).symm, fun x hx => ?_, fun k hk => (by cases hk)⟩
    rcases mem_append.mp hx with hx | hx
    · exact hshared x hx
    · exact hplain x (.inr (.inr (mem_toList.mp hx)))
  | some k =>
    refine ⟨_, (append_assoc _ _ _).symm, fun x hx => ?_, fun k' hk' x hx => ?_⟩
    · rcases mem_append.mp hx with hx | hx
      · exact hshared x hx
      · rw [mem_toList, bind_latest_header h.header] at hx
        obtain ⟨hmem, hheader⟩ := latest_mem hx
        have hsetup := Tagged.isSetup_of_isHeaderOf x hheader
        refine ⟨hnum x hmem, fun hk => ?_, fun hk => ?_⟩
        · rw [hk] at hsetup
          cases hsetup
        · rw [hk] at hsetup
          cases hsetup
    · cases hk'
      exact mem_append_right _ (mem_toList.mpr hx)

theorem Cached.given (h : Cached issued cache) (hnum : Numbered issued)
    (hseen : EachAfter (Needs issued) seen) :
      EachAfter (Needs issued) (seen ++ cache.bootstrap) := by
  obtain ⟨setup, heq, hsetup, hheader⟩ := h.mem_bootstrap hnum
  have hgiven := hseen.append fun x hx before => needs_of_not_frame (hsetup x hx).2
  rw [heq, ← append_assoc]
  cases hk : cache.keyframe with
  | none => rwa [toList_none, append_nil]
  | some k =>
    obtain ⟨hkind, hinc, -, hlatest⟩ := h.keyframe k hk
    refine hgiven.snoc ⟨fun hinter => ?_, fun _ x hx => ?_⟩
    · rw [hkind] at hinter
      cases hinter
    · rw [hinc, hlatest, ← bind_latest_header h.header] at hx
      exact mem_append_right _ (hheader k hk x hx)

theorem Cached.position (h : Cached issued cache) (hnum : Numbered issued)
    (hx : x ∈ cache.bootstrap) :
    x.position < issued.length := by
  obtain ⟨setup, heq, hsetup, -⟩ := h.mem_bootstrap hnum
  rw [heq, mem_append, mem_toList] at hx
  rcases hx with hx | hx
  · exact (hsetup x hx).1
  · exact (h.keyframe x hx).2.2.1

end needs

/-! ## The connection -/

/-- What the relay knows of its connection: the events accepted, those given, the cache, and whether
it waits for a keyframe. -/
structure Link (issued seen : List Tagged) (cache : RelayCache) (waits connected : Bool) :
    Prop where
  numbered : Numbered issued
  cached : Cached issued cache
  /-- Where there is video and no keyframe, one is waited for. -/
  started : cache.keyframe = none → cache.videoHeaders.entries ≠ [] → waits = true
  opened : cache.keyframe ≠ none → cache.videoHeaders.entries ≠ []
  position : ∀ x ∈ seen, x.position < issued.length
  decodable : connected = true → EachAfter (Needs issued) seen

/-- A connection that follows the stream, unless a keyframe is waited for. -/
structure Linked (issued seen : List Tagged) (cache : RelayCache) (waits connected : Bool) : Prop
    extends Link issued seen cache waits connected where
  following : connected = true → waits = false → ∀ k, cache.keyframe = some k →
    Following issued seen 0 ∧ ∀ x, latest (isHeaderOf k.videoCodec) 0 issued = some x → x ∈ seen

section link

variable {issued seen seen' : List Tagged} {cache : RelayCache} {waits waits' connected : Bool}
  {e : Tagged}

variable (h : Link issued seen cache waits connected)
include h

/-- Events are taken back, and a keyframe is waited for where there is one. -/
theorem Link.cut (hseen : seen' <+: seen)
    (hwaits : cache.videoHeaders.entries ≠ [] → waits' = true) :
    Linked issued seen' cache waits' connected where
  numbered := h.numbered
  cached := h.cached
  started _ := hwaits
  opened := h.opened
  position x hx := h.position x (hseen.subset hx)
  decodable hc := (h.decodable hc).of_isPrefix hseen
  following _ hnot k hk := by
    rw [hwaits (h.opened (by rw [hk]; exact some_ne_none k))] at hnot
    cases hnot

/-- A bootstrap is given, while nothing depends on what came after its keyframe. -/
theorem Link.bootstrapped
    (hstarted : cache.keyframe = none → cache.videoHeaders.entries ≠ [] → waits' = true)
    (hlast : waits' = false → ∀ k, cache.keyframe = some k → referencesSince k issued = []) :
    Linked issued (seen ++ cache.bootstrap) cache waits' connected where
  numbered := h.numbered
  cached := h.cached
  started := hstarted
  opened := h.opened
  position x hx := by
    rcases mem_append.mp hx with hx | hx
    · exact h.position x hx
    · exact h.cached.position h.numbered hx
  decodable hc := h.cached.given h.numbered (h.decodable hc)
  following _ hnot k hk := by
    obtain ⟨setup, heq, -, hheader⟩ := h.cached.mem_bootstrap h.numbered
    obtain ⟨hkind, hinc, hpos, -⟩ := h.cached.keyframe k hk
    have hmem : k ∈ seen ++ cache.bootstrap := by simp [heq, hk]
    refine ⟨hinc ▸ following_keyframe hmem hkind hpos (hlast hnot k hk), fun x hx => ?_⟩
    rw [← bind_latest_header h.cached.header] at hx
    rw [heq]
    exact mem_append_right _ (mem_append_left _ (hheader k hk x hx))

theorem Link.accept (he : e.position = issued.length ∧ e.incarnation = 0)
    (hframe : e.kind = .videoKeyframe → cache.videoHeaders.entries ≠ [])
    (hwaits : (cache.update e).1 = true → waits' = true)
    (hsame : (cache.update e).1 = false → waits' = waits) :
    Link (issued ++ [e]) seen (cache.update e).2 waits' connected := by
  have hmono : connected = true → EachAfter (Needs (issued ++ [e])) seen := by
    -- what was given stays as it is when more is accepted
    rintro hc before x after rfl
    have hx := h.decodable hc before x after rfl
    unfold Needs Chained Headed at hx ⊢
    rwa [publishedBefore_snoc (h.position x (by simp)).le he.1]
  refine ⟨h.numbered.snoc he.1, h.cached.update h.numbered he, ?_, ?_, fun x hx => ?_, hmono⟩
  · rcases update_cases with ⟨hchanged, -⟩ | ⟨hplain, -, hheaders, hkeyframe⟩
    · exact fun _ _ => hwaits hchanged
    · rw [hheaders, hkeyframe, hsame hplain]
      intro hnone
      split at hnone
      · cases hnone
      · exact h.started hnone
  · rcases update_cases with ⟨-, -, hnone⟩ | ⟨-, -, hheaders, hkeyframe⟩
    · exact fun hsome => absurd hnone hsome
    · rw [hheaders, hkeyframe]
      intro hsome
      split at hsome
      · rename_i hkind
        exact hframe hkind
      · exact h.opened hsome
  · rw [length_append]
    exact Nat.lt_add_right _ (h.position x hx)

omit h

theorem Linked.give (h : Linked issued seen cache false connected)
    (he : e.position = issued.length ∧ e.incarnation = 0)
    (hframe : e.kind = .videoKeyframe ∨ e.kind = .videoInterframe → cache.videoHeaders.entries ≠ [])
    (hcodec : e.kind = .videoKeyframe → ∀ k, cache.keyframe = some k → k.videoCodec = e.videoCodec)
    (hplain : (cache.update e).1 = false) :
    Linked (issued ++ [e]) (seen ++ [e]) (cache.update e).2 false connected := by
  have haccept := h.toLink.accept he (fun hk => hframe (.inl hk))
    (fun hchanged => (by rw [hplain] at hchanged; cases hchanged)) fun _ => rfl
  obtain ⟨-, hheader, -, hkeyframe⟩ : _ ∧ _ := update_cases.resolve_left fun hchanged => by
    rw [hplain] at hchanged
    cases hchanged.1
  -- a frame finds the connection following the stream
  have hfollows : connected = true → e.kind = .videoKeyframe ∨ e.kind = .videoInterframe →
      ∃ k, cache.keyframe = some k ∧ Following issued seen 0 ∧
        ∀ x, latest (isHeaderOf k.videoCodec) 0 issued = some x → x ∈ seen := by
    intro hc hkind
    cases hk : cache.keyframe with
    | none => cases h.started hk (hframe hkind)
    | some k => exact ⟨k, rfl, h.following hc rfl k hk⟩
  have hkeyHeader : connected = true → e.kind = .videoKeyframe →
      ∀ x, latest (isHeaderOf e.videoCodec) 0 issued = some x → x ∈ seen := by
    intro hc hkind
    obtain ⟨k, hk, -, hx⟩ := hfollows hc (.inl hkind)
    rwa [hcodec hkind k hk] at hx
  refine ⟨⟨haccept.numbered, haccept.cached, haccept.started, haccept.opened, fun x hx =>
    ?_, fun hc => ?_⟩,
    fun hc _ k hk => ?_⟩
  · rcases mem_append.mp hx with hx | hx
    · exact haccept.position x hx
    · obtain rfl := mem_singleton.mp hx
      rw [length_append, he.1]
      exact lt_succ_self _
  · refine (haccept.decodable hc).snoc ⟨fun hkind => ?_, fun hkind => ?_⟩
    · obtain ⟨-, -, hfollowing, -⟩ := hfollows hc (.inr hkind)
      exact (he.2 ▸ hfollowing).chained h.numbered he.1 hkind
    · rw [publishedBefore_last h.numbered he.1, he.2]
      exact hkeyHeader hc hkind
  · rw [latest_header_snoc hheader]
    have hmem : e ∈ seen ++ [e] := by simp
    rw [hkeyframe] at hk
    split at hk
    · rename_i hkind
      cases hk
      refine ⟨?_, fun x hx => mem_append_left _ (hkeyHeader hc hkind x hx)⟩
      rw [← he.2]
      refine following_keyframe hmem hkind ?_ (referencesSince_last h.numbered he.1)
      rw [length_append, he.1]
      exact lt_succ_self _
    · obtain ⟨hfollowing, hx⟩ := h.following hc rfl k hk
      exact ⟨hfollowing.append.snoc fun _ _ => hmem, fun x h => mem_append_left _ (hx x h)⟩

end link

/-! ## Runs -/

namespace RelayState

/-- A relay that was stopped gives nothing more, as one that waits. -/
def Sound (s : RelayState) : Prop :=
  Linked s.accepted s.seen s.cache (s.waitingForKeyframe || !s.accepting) s.connected

variable {s : RelayState} {config : RelayConfig} {e : Tagged} {event : MediaEvent}

theorem sound_start : start.Sound where
  numbered _ hx := absurd hx not_mem_nil
  cached := ⟨fun _ => rfl, fun _ hk =>
    (by cases hk), fun x hx => by rcases hx with ⟨⟨⟩⟩ | ⟨⟨⟩⟩ | ⟨⟨⟩⟩⟩
  started _ h := absurd rfl h
  opened h := absurd rfl h
  position _ hx := absurd hx not_mem_nil
  decodable h := by cases h
  following h := by cases h

theorem sound_discard {waits : Bool} (h : Link s.accepted s.seen s.cache waits s.connected) :
    s.discard.Sound :=
  h.cut ((prefix_append_right_inj _).mpr nil_prefix) fun hheaders =>
    (Bool.or_eq_true ..).mpr (.inl (decide_eq_true hheaders))

theorem Sound.refill (h : s.Sound)
    (hkey : e.kind = .videoKeyframe → s.cache.keyframe = some e ∧
      referencesSince e s.accepted = []) :
    (s.refill config e).Sound := by
  unfold RelayState.refill
  split
  · rename_i hfits
    obtain ⟨hcached, hlast⟩ := hkey hfits.1
    have hlinked : Linked s.accepted (s.seen ++ s.cache.bootstrap) s.cache (false || !s.accepting)
        s.connected := by
      refine h.toLink.bootstrapped (fun hnone => ?_) fun _ k hk => ?_
      · rw [hcached] at hnone
        cases hnone
      · rw [hcached] at hk
        cases hk
        exact hlast
    unfold Sound RelayState.seen at *
    rwa [append_assoc] at hlinked
  · exact h

theorem Sound.tryEnqueue (h : s.Sound) (hgapless : s.Gapless (.enqueue event)) :
    (s.tryEnqueue config event).Sound := by
  obtain ⟨hframe, hcodec⟩ := hgapless
  have he : (s.tag event).position = s.accepted.length ∧ (s.tag event).incarnation = 0 := ⟨rfl, rfl⟩
  unfold RelayState.tryEnqueue
  split
  · rename_i haccepting
    unfold RelayState.cacheEvent
    rcases update_cases with ⟨hchanged, hkind, -⟩ | ⟨hplain, -, -, hkeyframe⟩
    · -- a sequence header clears the queue, and is not queued itself
      have haccept := h.toLink.accept he (fun hk => hframe (.inl hk)) (fun _ => rfl)
        fun hplain => (by rw [hchanged] at hplain; cases hplain)
      simp only [hchanged, if_true, RelayState.admitEvent, RelayState.refill, hkind, false_and,
        if_false]
      exact haccept.cut ((prefix_append_right_inj _).mpr nil_prefix) fun _ => rfl
    · have haccept := h.toLink.accept he (fun hk => hframe (.inl hk))
        (fun hchanged => (by rw [hplain] at hchanged; cases hchanged)) fun _ => rfl
      have hkey : (s.tag event).kind = .videoKeyframe → (s.cache.update (s.tag event)).2.keyframe =
          some (s.tag event) ∧ referencesSince (s.tag event) (s.accepted ++ [s.tag event]) = [] :=
        fun hkind => ⟨by rw [hkeyframe, if_pos hkind], referencesSince_last h.numbered he.1⟩
      simp only [hplain, Bool.false_eq_true, if_false]
      unfold RelayState.admitEvent
      split
      · rename_i hwaits
        refine Sound.refill ?_ hkey
        exact haccept.cut prefix_rfl fun _ => (Bool.or_eq_true ..).mpr (.inl hwaits)
      · rename_i hwaits
        have hwaits := Bool.eq_false_iff.mpr hwaits
        have hserves : (s.waitingForKeyframe || !s.accepting) = false := by
          rw [hwaits, haccepting]
          rfl
        split
        · refine Sound.refill ?_ hkey
          exact sound_discard haccept
        · have hfalse : Linked s.accepted s.seen s.cache false s.connected := hserves ▸ h
          have hgive := hfalse.give he hframe (fun hkind => hcodec hkind hwaits) hplain
          unfold Sound RelayState.seen at *
          rw [append_assoc, ← hserves] at hgive
          exact hgive
  · exact h

/-- **One step** that opens no gap keeps the connection decodable. -/
theorem Sound.step (h : s.Sound) {op : RelayOp} (hgapless : s.Gapless op) :
    (s.step config op).Sound := by
  cases op with
  | enqueue event => exact h.tryEnqueue hgapless
  | connect =>
    unfold RelayState.step
    dsimp only
    split
    · exact h
    · have hnew : Link s.accepted [] s.cache (s.waitingForKeyframe || !s.accepting) true :=
        ⟨h.numbered, h.cached, h.started, h.opened, fun _ hx =>
          absurd hx not_mem_nil, fun _ => .nil⟩
      have hlinked := hnew.bootstrapped h.started fun hnot => hgapless.resolve_left fun hwaits => by
        rw [hwaits] at hnot
        cases hnot
      unfold Sound RelayState.seen
      rwa [append_nil]
  | send =>
    unfold RelayState.step
    dsimp only
    split
    · unfold Sound RelayState.seen at *
      split
      · rename_i hbootstrap
        rw [hbootstrap] at h
        simpa using h
      · rename_i hbootstrap hqueue
        rw [hbootstrap, hqueue] at h
        simpa [hbootstrap] using h
      · exact h
    · exact h
  | expire =>
    unfold RelayState.step
    dsimp only
    split
    · exact sound_discard h.toLink
    · exact h
  | disconnect taken =>
    have hsubset : ∀ x ∈ (s.step config (.disconnect taken)).seen, x ∈ s.seen := by
      unfold RelayState.step RelayState.seen
      intro x hx
      cases taken <;> simp only [append_nil, mem_append, if_true, Bool.false_eq_true,
        if_false] at hx ⊢
      · exact hx.elim (fun hx => .inl (.inl hx)) .inr
      · exact hx.elim (fun hx => .inl (.inl hx)) fun hx => .inr (mem_of_mem_tail hx)
    exact ⟨⟨h.numbered, h.cached, h.started, h.opened, fun x hx => h.position x (hsubset x hx),
      fun hc => (by cases hc)⟩, fun hc => (by cases hc)⟩
  | stop =>
    exact h.toLink.cut ((prefix_append_right_inj _).mpr nil_prefix) fun _ => Bool.or_true _

def run (config : RelayConfig) (ops : List RelayOp) : RelayState := ops.foldl (step config) start

/-- **The relay carries decodable video**: in a run without a gap, what was sent on the connection
can be decoded. -/
theorem run_chained (config : RelayConfig) (ops : List RelayOp)
    (h : EveryStep (step config) Gapless start ops)
      (hconnected : (run config ops).connected = true) :
    EachAfter (fun before x => Chained (run config ops).accepted before x ∧
      Headed (run config ops).accepted before x) (run config ops).sent := by
  have hsound : (run config ops).Sound :=
    foldl_induct (fun _ op hs hc => hs.step hc) ops start sound_start h
  refine (hsound.decodable hconnected).of_isPrefix ?_
  unfold RelayState.seen
  rw [append_assoc]
  exact prefix_append _ _

/-- A tag of AVC video with one byte. -/
def avcTag (header packetType : UInt8) {kind : MediaEventKind}
    (h : classifyVideo [header, packetType, 0, 0, 0, 2] = .ok (kind, .avc, .flv 7)) : MediaEvent :=
  ⟨kind, 0, [header, packetType, 0, 0, 0, 2], none, some .avc, some (.flv 7),
    Nat.le_of_ble_eq_true rfl,
    MediaEvent.classified_video h⟩

/-- A sequence header, a keyframe, and some interframes before and after the connection is made. -/
def lateConnection (early : List MediaEvent) : List RelayOp :=
  (avcTag 0x17 0 rfl :: avcTag 0x17 1 rfl :: early).map .enqueue ++
    [.connect, .enqueue (avcTag 0x27 1 rfl), .send, .send, .send]

theorem run_chained_lateConnection : (run ⟨9, 99⟩ (lateConnection [])).sent.map Tagged.kind =
        [.avcSequenceHeader, .videoKeyframe, .videoInterframe] ∧
      EachAfter (fun before x => Chained (run ⟨9, 99⟩ (lateConnection [])).accepted before x ∧
        Headed (run ⟨9, 99⟩ (lateConnection [])).accepted before x)
          (run ⟨9, 99⟩ (lateConnection [])).sent :=
  ⟨by decide, run_chained _ _ (by decide) (by decide)⟩

/-- An interframe that came before the connection is missing on it. -/
theorem run_not_chained : ¬ EachAfter (fun before x =>
    Chained (run ⟨9, 99⟩ (lateConnection [avcTag 0x27 1 rfl])).accepted before x ∧
      Headed (run ⟨9, 99⟩ (lateConnection [avcTag 0x27 1 rfl])).accepted before x)
    (run ⟨9, 99⟩ (lateConnection [avcTag 0x27 1 rfl])).sent := by
  intro h
  have hlast :=
    h [⟨avcTag 0x17 0 rfl, 0, 0⟩, ⟨avcTag 0x17 1 rfl, 0, 1⟩] ⟨avcTag 0x27 1 rfl, 0, 3⟩ []
      (by decide)
  obtain ⟨k, hk, hkind, -, -, hreferences⟩ := hlast.1 rfl
  have hkey : k = ⟨avcTag 0x17 1 rfl, 0, 1⟩ := by
    rcases mem_pair.mp hk with rfl | rfl
    · cases hkind
    · rfl
  subst hkey
  exact absurd (hreferences ⟨avcTag 0x27 1 rfl, 0, 2⟩ (by decide)) (by decide)

end RelayState

end Oxiroute.Rtmp
