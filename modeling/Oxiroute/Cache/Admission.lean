import Oxiroute.Cache.Effects
import Oxiroute.Cache.Record

/-!
# What an admitted entry is

`Prepares` takes `prepareInner` apart: every check that was passed, and where every field of the
entry comes from. `Admitted config e` is what follows for the entry alone and what `decodeRecord`
checks again, except that the decoder also wants the authority to be in canonical form, which
`prepareInner` does not ensure.
-/

namespace Oxiroute.Cache

open Lib Prog Http ResponsePolicy

/-- What the policy is evaluated on. -/
def policyInput (config : CacheConfig) (request : RequestKeyInput) (response : CacheResponse)
    (timeline : Option CacheTimeline) : ResponsePolicyInput where
  requestHeaders := request.headers
  status := response.status
  headers := response.headers
  timing := response.timing
  maxHeuristicFreshness := config.maxHeuristicFreshness
  maxVaryFields := config.maxVaryFields
  maxVaryBytes := config.maxHeaderBytes
  timeline

/-- The entry `e` is what `prepareInner` makes of a response. -/
structure Prepares [Crates] (shared : Shared) (request : RequestKeyInput) (response : CacheResponse)
    (timeline : Option CacheTimeline) (e : PreparedEntry) : Prop where
  method : request.method = Method.get
  timing : response.timing.requestStarted.asDuration ≤ response.timing.responseReceived.asDuration
  requestBounds : checkHeaderBounds request.headers shared.config = true
  headerBounds : checkHeaderBounds response.headers shared.config = true
  bodyBound : response.body.length ≤ shared.config.maxBodyBytes
  policy : ∃ vary, evaluate (policyInput shared.config request response timeline)
      = .ok (e.policy, vary, e.validators)
    ∧ CacheKey.new e.key.base request.headers vary shared.config.maxKeyBytes = .ok e.key
  base : BaseKey.new request shared.config.maxKeyBytes = .ok e.key.base
  tags : parseTags response.tags shared.config = .ok e.tags
  charge : objectCharge e.key response.headers response.body.length e.tags = some e.charge
  chargeObject : e.charge ≤ shared.config.maxObjectBytes
  chargeTotal : e.charge ≤ shared.config.maxTotalBytes
  identity : e.identity = shared.identity
  status : e.status = response.status
  headers : e.headers = response.headers
  body : e.body = response.body
  responseReceived : e.responseReceived = response.timing.responseReceived

variable {key : CacheKey} {shared : Shared}
  {request : RequestKeyInput} {response : CacheResponse} {timeline : Option CacheTimeline}
  {e : PreparedEntry} {s : State} {config : CacheConfig} {now : MonoTime} {wall : SystemTime}
  {d : DecodedRecord} {vary : Vary} {notModified : HeaderMap} {timing : ResponseTiming}
  {r r' : List UInt8} {record : Bytes}

theorem CacheKey.new_base {base : BaseKey} {headers : HeaderMap} {maxBytes : ℕ}
    (h : CacheKey.new base headers vary maxBytes = .ok key) : key.base = base := by
  unfold CacheKey.new at h
  cases hn : vary.names? with
  | none =>
    rw [hn] at h
    cases h
  | some names =>
    simp only [hn] at h
    split_ifs at h
    cases h
    rfl

/-- The policy is what `ResponsePolicy.evaluate` makes of the response with these directives. -/
structure Evaluates [Crates] (input : ResponsePolicyInput) (control : CacheControl)
    (policy : ResponsePolicy) (vary : Vary) (validators : Validators) : Prop where
  parsed : CacheControl.parse input.headers = .ok control
  admissible : admissible input control = .ok ()
  selected : Vary.parse input.headers input.maxVaryFields input.maxVaryBytes = .ok vary
  names : ∃ names, vary = .names names
  freshness : ∃ freshness, responseFreshness input.status input.headers input.timing
      input.maxHeuristicFreshness input.timeline control = .ok freshness ∧ policy =
      { freshnessLifetime := freshness.lifetime
        correctedInitialAge := freshness.correctedInitialAge
        staleWhileRevalidate := freshness.staleWhileRevalidate
        staleIfError := freshness.staleIfError
        retention := freshness.retention
        alwaysRevalidate := control.noCache
        mustRevalidateStale := revalidateStale control
        allowsAuthorizedReuse := authorizedReuse control }
  validated : responseValidators input.headers = .ok validators

theorem evaluate_ok [Crates] {input : ResponsePolicyInput} {policy : ResponsePolicy}
    {validators : Validators} (h : evaluate input = .ok (policy, vary, validators)) :
    ∃ control, Evaluates input control policy vary validators := by
  unfold evaluate at h
  split at h
  · cases h
  · next control hcontrol =>
    split at h
    · cases h
    · next hadmissible =>
      split at h
      · cases h
      · cases h
      · next parsed hany hvary =>
        split at h
        · cases h
        · next freshness hfreshness =>
          split at h
          · cases h
          · next found hvalidators =>
            simp only [Except.ok.injEq, Prod.mk.injEq] at h
            obtain ⟨rfl, rfl, rfl⟩ := h
            refine ⟨control, hcontrol, hadmissible, hvary, ?_, ⟨freshness, hfreshness, rfl⟩,
              hvalidators⟩
            cases parsed with
            | any => exact absurd rfl hany
            | names names => exact ⟨names, rfl⟩

theorem prepareInner_prepares [Crates] (h : prepareInner shared request response timeline = .ok e) :
    Prepares shared request response timeline e := by
  unfold prepareInner at h
  simp only at h
  split_ifs at h with hmethod htiming hrequest hheaders hbody
  obtain ⟨⟨policy, vary, validators⟩, hpolicy, h⟩ := bind_eq_ok.mp h
  obtain ⟨base, hbase, h⟩ := bind_eq_ok.mp h
  obtain ⟨key, hkey, h⟩ := bind_eq_ok.mp h
  obtain ⟨tags, htags, h⟩ := bind_eq_ok.mp h
  rw [mapError_eq_ok] at hpolicy hbase hkey
  cases hcharge : objectCharge key _ _ tags with
  | none =>
    rw [hcharge] at h
    cases h
  | some charge =>
    simp only [hcharge] at h
    split_ifs at h with hbound
    cases h
    have hb := CacheKey.new_base hkey
    exact
      { method := not_not.mp hmethod
        timing := not_lt.mp htiming
        requestBounds := by simpa using hrequest
        headerBounds := by simpa using hheaders
        bodyBound := not_lt.mp hbody
        policy := ⟨vary, hpolicy, by rw [hb]; exact hkey⟩
        base := by rw [hb]; exact hbase
        tags := htags
        charge := hcharge
        chargeObject := not_lt.mp fun hlt => hbound (.inl hlt)
        chargeTotal := not_lt.mp fun hlt => hbound (.inr hlt)
        identity := rfl
        status := rfl
        headers := rfl
        body := rfl
        responseReceived := rfl }

theorem Prepares.prepareInner_eq [Crates] (h : Prepares shared request response timeline e) :
    prepareInner shared request response timeline = .ok e := by
  obtain ⟨vary, hpolicy, hkey⟩ := h.policy
  unfold policyInput at hpolicy
  unfold prepareInner
  simp only [h.method, h.timing.not_gt, h.requestBounds, h.headerBounds, h.bodyBound.not_gt,
    hpolicy,
    h.base, hkey, h.tags, h.charge, h.chargeObject.not_gt, h.chargeTotal.not_gt,
    Except.mapError, bind, Except.bind, ne_eq, not_true_eq_false, if_false, Bool.true_eq_false,
    or_self]
  rw [← h.identity, ← h.status, ← h.headers, ← h.body, ← h.responseReceived]

theorem prepareNotModified_prepares [Crates]
    (h : s.prepareNotModified shared request key notModified timing timeline = .ok e) :
    ∃ response, Prepares shared request response timeline e := by
  unfold State.prepareNotModified at h
  cases hexisting : s.entry key with
  | none =>
    rw [hexisting] at h
    cases h
  | some existing =>
    cases hmerged : mergeNotModifiedHeaders existing.headers notModified with
    | none =>
      simp only [hexisting, hmerged] at h
      cases h
    | some merged =>
      simp only [hexisting, hmerged] at h
      split at h
      · cases h
      · next prepared hprepared =>
        split_ifs at h
        cases h
        exact ⟨_, prepareInner_prepares hprepared⟩

/-- The entry was made by `prepare`, `prepare_with_timeline`, `prepare_not_modified` or
`prepare_not_modified_with_timeline` of the cache. -/
def Prepared [Crates] (shared : Shared) (e : PreparedEntry) : Prop :=
  ∃ request response timeline, Prepares shared request response timeline e

theorem prepared_prepare [Crates] (h : (s.prepare shared request response timeline).1 = .ok e) :
    Prepared shared e := by
  unfold State.prepare at h
  cases hp : prepareInner shared request response timeline with
  | error err =>
    rw [hp] at h
    cases h
  | ok entry =>
    rw [hp] at h
    cases h
    exact ⟨request, response, timeline, prepareInner_prepares hp⟩

theorem prepared_prepareNotModified [Crates]
    (h : s.prepareNotModified shared request key notModified timing timeline = .ok e) :
    Prepared shared e := by
  obtain ⟨response, hr⟩ := prepareNotModified_prepares h
  exact ⟨request, response, timeline, hr⟩

theorem prepare_state [Crates] (shared : Shared) (request : RequestKeyInput)
    (response : CacheResponse) (timeline : Option CacheTimeline) (s : State) :
    State.SameEntries s (s.prepare shared request response timeline).2
      ∧ State.SameFills s (s.prepare shared request response timeline).2 := by
  unfold State.prepare
  cases prepareInner shared request response timeline with
  | error e => exact ⟨⟨rfl, rfl, rfl⟩, ⟨rfl, rfl, rfl⟩⟩
  | ok entry => exact ⟨.refl s, .refl s⟩

/-! ## What the decoder accepts -/

/-- Every payload the decoder accepts has a charge within the limits. -/
theorem finish_eq_ok {e d : RecoveredEntry} (h : Decode.finish config e r = (.ok d, r')) :
    d = e ∧ r = [] ∧ r' = [] ∧ objectCharge e.key e.headers e.body.length e.tags = some e.charge
      ∧ e.charge ≤ config.maxObjectBytes ∧ e.charge ≤ config.maxTotalBytes := by
  obtain ⟨rest, s, hget, h⟩ := bind_eq_ok.mp h
  obtain ⟨rfl, rfl⟩ : r = rest ∧ r = s := by simpa using hget
  obtain ⟨hrest, h⟩ := guard_eq_ok.mp h
  obtain ⟨hcharge, h⟩ := guard_eq_ok.mp h
  push Not at hcharge
  obtain ⟨hd, rfl⟩ := Prod.mk.inj h
  have hr := not_not.mp hrest
  exact ⟨(Except.ok.inj hd).symm, hr, hr, hcharge.1, hcharge.2.1, hcharge.2.2⟩

theorem payload_finish [Crates] {version : ℕ}
    (h : Decode.payload config version now wall r = (.ok d, r')) :
    ∃ e s s', Decode.finish config e s = (.ok d.entry, s') := by
  obtain ⟨⟨sequence, access, age⟩, _, _, h⟩ := bind_eq_ok.mp h
  obtain ⟨key, _, _, h⟩ := bind_eq_ok.mp h
  obtain ⟨status, _, _, h⟩ := bind_eq_ok.mp h
  obtain ⟨headerCount, _, _, h⟩ := bind_eq_ok.mp h
  obtain ⟨headers, _, _, h⟩ := bind_eq_ok.mp h
  obtain ⟨body, _, _, h⟩ := bind_eq_ok.mp h
  obtain ⟨tagCount, _, _, h⟩ := bind_eq_ok.mp h
  obtain ⟨tags, _, _, h⟩ := bind_eq_ok.mp h
  obtain ⟨policy, _, _, h⟩ := bind_eq_ok.mp h
  obtain ⟨etag, _, _, h⟩ := bind_eq_ok.mp h
  obtain ⟨lastModified, _, _, h⟩ := bind_eq_ok.mp h
  obtain ⟨charge, s, _, h⟩ := bind_eq_ok.mp h
  obtain ⟨entry, s', hfinish, h⟩ := bind_eq_ok.mp h
  obtain ⟨hd, _⟩ := Prod.mk.inj h
  cases hd
  exact ⟨_, s, s', hfinish⟩

theorem decodeRecord_charge [Crates] (h : decodeRecord config now wall record = .ok d) :
    d.entry.charge ≤ config.maxTotalBytes := by
  unfold decodeRecord at h
  simp only at h
  split_ifs at h
  obtain ⟨e, s, s', hfinish⟩ := payload_finish (Prod.ext h rfl)
  obtain ⟨he, _, _, _, _, htotal⟩ := finish_eq_ok hfinish
  rw [he]
  exact htotal

end Oxiroute.Cache
