import Oxiroute.Cache.Persist

/-!
# Reuse

When may a stored response answer a request? `Reusable` is the answer in terms of the directives of
the request and of the response themselves, not of the flags the cache keeps: that the flags say
what the header fields say (`Genuine`) is an invariant of the stored entries. It holds of prepared
entries, and of restored ones as long as the records were written for such entries (`Written`).
-/

namespace Oxiroute.Cache

open Lib Http State RequestPolicy

/-! ## Flags and directives -/

/-- The policy of an entry is what the directives of its response say. -/
structure Genuine (e : RecoveredEntry) (control : CacheControl) : Prop where
  parsed : CacheControl.parse e.headers = .ok control
  always : e.policy.alwaysRevalidate = control.noCache
  stale : e.policy.mustRevalidateStale = ResponsePolicy.revalidateStale control
  authorized : e.policy.allowsAuthorizedReuse = ResponsePolicy.authorizedReuse control
  window : e.policy.staleWhileRevalidate ≠ 0 →
    e.policy.retention = .rfc ∧ control.staleWhileRevalidate = some e.policy.staleWhileRevalidate

variable {control : CacheControl} {entry : PreparedEntry}

/-- What a freshness has of a stale window, it has from the response. -/
theorem responseFreshness_window [Crates] {status : StatusCode} {headers : HeaderMap}
    {timing : ResponseTiming} {heuristic : Duration} {timeline : Option CacheTimeline}
    {freshness : ResponseFreshness}
    (h : responseFreshness status headers timing heuristic timeline control = .ok freshness)
    (hw : freshness.staleWhileRevalidate ≠ 0) : freshness.retention = .rfc
      ∧ control.staleWhileRevalidate = some freshness.staleWhileRevalidate := by
  unfold responseFreshness at h
  split at h
  · cases h
  · obtain ⟨_, h⟩ := guard_eq_ok.mp h
    cases h
    cases timeline with
    | some timeline => exact absurd rfl hw
    | none =>
      cases hcontrol : control.staleWhileRevalidate with
      | none => simp [hcontrol] at hw
      | some window => simp

theorem genuine_prepared [Crates] {shared : Shared} {e : PreparedEntry} (h : Prepared shared e) :
    ∃ control, Genuine e.toRecoveredEntry control := by
  obtain ⟨request, response, timeline, hp⟩ := h
  obtain ⟨vary, hevaluate, _⟩ := hp.policy
  obtain ⟨control, heval⟩ := evaluate_ok hevaluate
  obtain ⟨freshness, hfresh, hpolicy⟩ := heval.freshness
  refine ⟨control, ?_, ?_, ?_, ?_, ?_⟩
  · rw [hp.headers]
    exact heval.parsed
  · rw [hpolicy]
  · rw [hpolicy]
  · rw [hpolicy]
  · rw [hpolicy]
    exact responseFreshness_window hfresh

theorem Genuine.restored {e : RecoveredEntry} (h : Genuine e control) {now : MonoTime}
    {age : Duration} : Genuine (e.restored now age) control :=
  ⟨h.parsed, h.always, h.stale, h.authorized, h.window⟩

/-- A record that was written for an entry with a policy of its own response, in one of the versions
there are. -/
def Written [Crates] (record : Bytes) : Prop :=
  ∃ (version : ℕ) (e : RecoveredEntry) (control : CacheControl) (sequence access : UInt64)
    (age : Duration) (wall : SystemTime),
    (version = 1 ∧ e.policy.retention = .rfc ∨ version = recordVersion) ∧ Genuine e control
    ∧ e.Short ∧ (Encode.payloadOf version e sequence access age
        (wall.elapsedSince SystemTime.epoch)).length < 2 ^ 64
    ∧ record = Encode.framed version (Encode.payloadOf version e sequence access age
        (wall.elapsedSince SystemTime.epoch))

variable {config : CacheConfig} {now : MonoTime} {request : RequestKeyInput}
  {policy : RequestPolicy} {s : State} {status : LookupStatus} {response : CachedResponse}

/-- A written record decodes to an entry with a policy of its own response. -/
theorem Written.genuine [Crates] {record : Bytes} (h : Written record) {wall : SystemTime}
    {d : DecodedRecord} (hd : decodeRecord config now wall record = .ok d) :
    ∃ control, Genuine d.entry control := by
  obtain ⟨version, e, control, sequence, access, age, stamp, hversion, hg, hshort, hlen, rfl⟩ := h
  have hver := hversion.imp_left And.left
  have hretention : version ≥ 2 ∨ e.policy.retention = .rfc := by
    rcases hversion with ⟨_, hr⟩ | rfl
    · exact .inr hr
    · exact .inl (Nat.le_refl 2)
  obtain ⟨stored, _, hiff⟩ := decodeRecord_written hver hshort hretention hlen
  obtain ⟨_, rfl⟩ := (hiff d).mp hd
  exact ⟨control, hg.restored⟩

/-! ## Answers -/

/-- The part of `Reusable` about the request. -/
structure Cacheable (request : RequestKeyInput) (control : CacheControl) : Prop where
  parsed : CacheControl.parse request.headers = .ok control
  method : request.method = Method.get ∨ request.method = Method.head
  range : request.headers.containsKey Name.range = false
  body : hasBody request.headers = false
  condition : hasCondition request.headers = false
  noStore : control.noStore = false
  noCache : control.noCache = false
  pragma : pragmaNoCache request.headers = false
  maxAge : control.maxAge ≠ some 0

/-- A request the cache looks up has nothing that forbids a stored answer. -/
theorem evaluate_lookup (h : evaluate request.method request.headers = .ok policy)
    (hmode : policy.mode = .lookup) :
    ∃ control, Cacheable request control ∧ policy.maxAge = control.maxAge
      ∧ policy.minFresh = control.minFresh.getD 0 ∧ policy.maxStale = control.maxStale := by
  unfold evaluate at h
  cases hcontrol : CacheControl.parse request.headers with
  | error e => simp [hcontrol] at h
  | ok control =>
    simp only [hcontrol, Except.ok.injEq] at h
    obtain rfl := h
    split_ifs at hmode with hbypass hrevalidate
    push Not at hbypass hrevalidate
    obtain ⟨hmethod, hrange, hbody, hcond, hstore⟩ := hbypass
    obtain ⟨hcache, hage, hpragma⟩ := hrevalidate
    refine ⟨control, ⟨hcontrol, hmethod, ?_, ?_, ?_, ?_, ?_, ?_, hage⟩, rfl, rfl, rfl⟩
    · simpa using hrange
    · simpa using hbody
    · simpa using hcond
    · simpa using hstore
    · simpa using hcache
    · simpa using hpragma

/-- What the answer `hit` says of the entry and the policy of the request. -/
structure Answers (policy : RequestPolicy) (stored : ResponsePolicy) (age : Duration) : Prop where
  mode : policy.mode ≠ .revalidate
  always : stored.alwaysRevalidate = false
  maxAge : ∀ maximum ∈ policy.maxAge, age ≤ maximum
  fresh : age.saturatingAdd policy.minFresh ≤ stored.freshnessLifetime
    ∨ stored.freshnessLifetime < age ∧ policy.minFresh = 0 ∧ stored.mustRevalidateStale = false
      ∧ (stored.retention = .rfc ∧ (∃ limit ∈ policy.maxStale, ∀ maximum ∈ limit,
            age.saturatingSub stored.freshnessLifetime ≤ maximum) ∨ stored.staleWhileRevalidate ≠ 0
          ∧ age.saturatingSub stored.freshnessLifetime ≤ stored.staleWhileRevalidate)

theorem answer_hit (h : (s.answer policy entry now).1 = .hit status response) :
    response = responseSnapshot entry (age entry now)
      ∧ Answers policy entry.policy (age entry now) := by
  have hresponse := answer_response s policy entry now
  rw [h] at hresponse
  refine ⟨Option.some.inj hresponse, ?_⟩
  simp only [answer] at h
  generalize age entry now = age at h
  generalize hfresh : decide (age.saturatingAdd _ ≤ entry.policy.freshnessLifetime) = fresh at h
  generalize hrf : (policy.maxAge.all fun maximum => decide (age ≤ maximum)) = requestFresh at h
  generalize hforced : (decide (policy.mode = .revalidate) || !requestFresh
    || decide (policy.minFresh ≠ 0) && !fresh || entry.policy.alwaysRevalidate
    || entry.policy.mustRevalidateStale && !fresh) = forced at h
  have hmaxAge : requestFresh = true → ∀ maximum ∈ policy.maxAge, age ≤ maximum := by
    rintro rfl maximum hm
    rw [Option.all_eq_true] at hrf
    exact of_decide_eq_true (hrf maximum hm)
  -- whatever is not forced to be revalidated is fresh for the request
  have hunforced : forced = false → policy.mode ≠ .revalidate ∧ requestFresh = true
      ∧ (fresh = false → policy.minFresh = 0) ∧ entry.policy.alwaysRevalidate = false
      ∧ (fresh = false → entry.policy.mustRevalidateStale = false) := by
    rintro rfl
    simp only [Bool.or_eq_false_iff, Bool.and_eq_false_iff, Bool.not_eq_false',
      decide_eq_false_iff_not, not_not] at hforced
    obtain ⟨⟨⟨⟨hmode, hrf⟩, hmin⟩, halways⟩, hmust⟩ := hforced
    refine ⟨hmode, hrf, ?_, halways, ?_⟩
    · rintro rfl
      exact hmin.resolve_right (by simp)
    · rintro rfl
      exact hmust.resolve_right (by simp)
  have hstale : fresh = false → policy.minFresh = 0 → entry.policy.freshnessLifetime < age := by
    rintro rfl hmin
    rw [hmin, Duration.saturatingAdd_zero] at hfresh
    exact not_le.mp (of_decide_eq_false hfresh)
  split_ifs at h with hhit hallowed hswr
  · simp only [Bool.and_eq_true, Bool.not_eq_true'] at hhit
    obtain ⟨⟨rfl, rfl⟩, rfl⟩ := hhit
    obtain ⟨hmode, _, _, halways, _⟩ := hunforced rfl
    exact ⟨hmode, halways, hmaxAge rfl, .inl (of_decide_eq_true hfresh)⟩
  · simp only [Bool.and_eq_true, Bool.not_eq_true'] at hallowed
    obtain ⟨⟨⟨hretention, rfl⟩, hmust⟩, hlimit⟩ := hallowed
    obtain ⟨hmode, rfl, hmin, halways, _⟩ := hunforced rfl
    have hnot : fresh = false := by simpa using hhit
    refine ⟨hmode, halways, hmaxAge rfl, .inr ⟨hstale hnot (hmin hnot), hmin hnot, hmust, .inl ?_⟩⟩
    constructor
    · cases hr : entry.policy.retention with
      | rfc => rfl
      | canonical keep => simp [hr, RetentionPolicy.requestStaleAllowed] at hretention
    · rw [Option.any_eq_true] at hlimit
      obtain ⟨limit, hmem, hall⟩ := hlimit
      rw [Option.all_eq_true] at hall
      exact ⟨limit, hmem, fun maximum hm => of_decide_eq_true (hall maximum hm)⟩
  · simp only [Bool.and_eq_true, Bool.not_eq_true', decide_eq_true_eq] at hswr
    obtain ⟨⟨rfl, hwithin⟩, hwindow⟩ := hswr
    obtain ⟨hmode, rfl, hmin, halways, hmust⟩ := hunforced rfl
    have hnot : fresh = false := by simpa using hhit
    exact ⟨hmode, halways, hmaxAge rfl,
      .inr ⟨hstale hnot (hmin hnot), hmin hnot, hmust hnot, .inr ⟨hwindow, hwithin⟩⟩⟩

/-- What a hit was made of. -/
structure Hits (s : State) (request : RequestKeyInput) (now : MonoTime) (response : CachedResponse)
    (policy : RequestPolicy) (key : CacheKey) (entry : PreparedEntry) : Prop where
  evaluated : evaluate request.method request.headers = .ok policy
  mode : policy.mode ≠ .bypass
  stored : s.entry key = some entry
  authorized : request.headers.containsKey Name.authorization = true →
    entry.policy.allowsAuthorizedReuse = true
  response : response = responseSnapshot entry (age entry now)
  answers : Answers policy entry.policy (age entry now)

theorem lookup_hit [Crates] (h : (s.lookup config now request).1 = .ok (.hit status response)) :
    ∃ policy key entry, Hits s request now response policy key entry := by
  obtain ⟨policy, base, key, entry, heval, hmode, -, husable, hentry, hanswer⟩ := lookup_found h rfl
  obtain ⟨hresponse, hanswers⟩ := answer_hit hanswer
  refine ⟨policy, key, entry, heval, hmode, hentry, ?_, hresponse, hanswers⟩
  intro hauth
  obtain ⟨stored, hlook, rfl⟩ := Option.map_eq_some_iff.mp hentry
  simpa [usable, hlook, hauth] using (Bool.and_eq_true_iff.mp husable).2

/-! ## Runs -/

/-- When a stored response may answer a request, in terms of the directives of both. -/
structure Reusable (request : RequestKeyInput) (asked : CacheControl) (entry : PreparedEntry)
    (given : CacheControl) (now : MonoTime) : Prop where
  cacheable : Cacheable request asked
  parsed : CacheControl.parse entry.headers = .ok given
  noCache : given.noCache = false
  maxAge : ∀ maximum ∈ asked.maxAge, age entry now ≤ maximum
  authorized : request.headers.containsKey Name.authorization = true →
    given.isPublic = true ∨ given.sharedMaxAge.isSome = true ∨ given.mustRevalidate = true
  fresh : (age entry now).saturatingAdd (asked.minFresh.getD 0) ≤ entry.policy.freshnessLifetime
    ∨ entry.policy.freshnessLifetime < age entry now ∧ asked.minFresh.getD 0 = 0
      ∧ (given.mustRevalidate = false ∧ given.proxyRevalidate = false ∧ given.sharedMaxAge = none)
      ∧ (entry.policy.retention = .rfc ∧ (∃ limit ∈ asked.maxStale, ∀ maximum ∈ limit,
            (age entry now).saturatingSub entry.policy.freshnessLifetime ≤ maximum)
        ∨ ∃ window, given.staleWhileRevalidate = some window ∧ window ≠ 0
          ∧ (age entry now).saturatingSub entry.policy.freshnessLifetime ≤ window)

theorem Hits.reusable {key : CacheKey} (h : Hits s request now response policy key entry)
    {given : CacheControl} (hg : Genuine entry.toRecoveredEntry given) :
    ∃ asked, Reusable request asked entry given now := by
  have hmode : policy.mode = .lookup := by
    cases hm : policy.mode with
    | lookup => rfl
    | revalidate => exact absurd hm h.answers.mode
    | bypass => exact absurd hm h.mode
  obtain ⟨asked, hrequest, hmaxAge, hminFresh, hmaxStale⟩ := evaluate_lookup h.evaluated hmode
  have hanswers := h.answers
  refine ⟨asked, hrequest, hg.parsed, ?_, ?_, ?_, ?_⟩
  · exact hg.always ▸ hanswers.always
  · exact hmaxAge ▸ hanswers.maxAge
  · intro hauth
    have hallowed := h.authorized hauth
    rw [hg.authorized, ResponsePolicy.authorizedReuse, Bool.or_eq_true, Bool.or_eq_true,
      or_assoc] at hallowed
    exact hallowed
  · rw [← hminFresh, ← hmaxStale]
    rcases hanswers.fresh with hfresh | ⟨hstale, hzero, hmust, hwindow⟩
    · exact .inl hfresh
    · right
      rw [hg.stale] at hmust
      simp only [ResponsePolicy.revalidateStale, Bool.or_eq_false_iff] at hmust
      obtain ⟨⟨⟨_, hmr⟩, hpr⟩, hsm⟩ := hmust
      refine ⟨hstale, hzero, ⟨hmr, hpr, by simpa using hsm⟩, hwindow.imp_right ?_⟩
      rintro ⟨hne, hle⟩
      exact ⟨_, (hg.window hne).2, hne, hle⟩

namespace World

/-- The condition on a step: a restored record was written for an entry with a policy of its own
response. -/
def Authentic [Crates] : World → Op → Prop
  | _, .restore _ _ record => Written record
  | _, _ => True

/-- Every stored entry is under its own key and has a policy of its own response. -/
def Sound (w : World) : Prop :=
  ∀ k e, w.state.entry k = some e → k = e.key ∧ ∃ control, Genuine e.toRecoveredEntry control

theorem sound_step [Crates] {shared : Shared} {w : World} (hheld : Held shared w) (h : Sound w)
    {op : Op} (hop : Authentic w op) : Sound (step shared w op) := by
  refine fun _ _ => step_entries h ?_
  intro entry hi
  refine ⟨rfl, ?_⟩
  rcases hheld.inserting hi with hp | ⟨now, wall, record, decoded, rfl, hd, rfl⟩
  · exact genuine_prepared hp
  · exact Written.genuine hop hd

/-- **Reuse is safe**: in every state a run reaches, a lookup that answers with a stored response
does so where the directives of the request and of the response allow it. -/
theorem run_hit_reusable [Crates] (shared : Shared) (ops : List Op)
    (hops : EveryStep shared Authentic init ops) (now : MonoTime) (request : RequestKeyInput)
    (status : LookupStatus) (response : CachedResponse)
    (h : ((run shared ops).state.lookup shared.config now request).1 = .ok (.hit status response)) :
    ∃ entry asked given, (run shared ops).state.entry entry.key = some entry
      ∧ response = responseSnapshot entry (age entry now)
      ∧ Reusable request asked entry given now := by
  have hinit : Held shared init ∧ Sound init := by
    refine ⟨held_init, ?_⟩
    intro k e hk
    simp [init, State.init, entry] at hk
  have hrun := runFrom_induct (P := fun w => Held shared w ∧ Sound w)
    (fun w op h hop => ⟨held_step h.1, sound_step h.1 h.2 hop⟩) ops init hinit hops
  obtain ⟨policy, key, entry, hhit⟩ := lookup_hit h
  obtain ⟨rfl, given, hgenuine⟩ := hrun.2 key entry hhit.stored
  obtain ⟨asked, hreusable⟩ := hhit.reusable hgenuine
  exact ⟨entry, asked, given, hhit.stored, hhit.response, hreusable⟩

section

attribute [local instance] Small.crates

/-- A response that is fresh for a minute. -/
def minuteHeaders : HeaderMap := Small.header Name.cacheControl "max-age=60" (by decide)

/-- It is stored. -/
def minuteRun : List Op :=
  [.prepare (Small.request "/a" .empty) (Small.response minuteHeaders [1, 2, 3]) none,
    .beginFill (Small.base "/a"), .store 0 0]

/-- What a lookup after 10 seconds answers. -/
def minuteResponse : CachedResponse where
  key := ⟨Small.base "/a", []⟩
  status := .ok
  headers := minuteHeaders.insert Name.age ⟨utf8Bytes "10", by decide⟩
  body := [1, 2, 3]
  age := Duration.ofSecs 10

set_option maxRecDepth 100000 in
theorem run_hit_reusable_minute :
    ((run Small.shared minuteRun).state.lookup Small.config (Small.time 10)
        (Small.request "/a" .empty)).1 = .ok (.hit .hit minuteResponse)
    ∧ ∃ entry asked given, (run Small.shared minuteRun).state.entry entry.key = some entry
      ∧ minuteResponse = responseSnapshot entry (age entry (Small.time 10))
      ∧ Reusable (Small.request "/a" .empty) asked entry given (Small.time 10) := by
  have hlookup : ((run Small.shared minuteRun).state.lookup Small.config (Small.time 10)
      (Small.request "/a" .empty)).1 = .ok (.hit .hit minuteResponse) := by
    decide +kernel
  exact ⟨hlookup, run_hit_reusable _ minuteRun ⟨trivial, trivial, trivial, trivial⟩
    _ _ .hit _ hlookup⟩

end

end World

end Oxiroute.Cache
