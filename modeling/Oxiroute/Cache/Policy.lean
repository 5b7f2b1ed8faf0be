import Oxiroute.Cache.Key

/-!
# Cache policy

Model of `crates/oxiroute-cache/src/policy.rs` and `clock.rs`.

* `CacheControl.parse` reads all `Cache-Control` fields strictly: a recognised directive may occur
  once, and a malformed one rejects the whole.
* `RequestPolicy.evaluate` classifies a request; `ResponsePolicy.evaluate` decides whether a
  response may be stored and for how long.
* `mergeNotModifiedHeaders` merges the fields of a 304 response into the stored ones.
-/

namespace Oxiroute.Cache

open Lib Http

/-! ## Clock -/

/-- A time of the monotonic clock. -/
structure MonoTime where
  asDuration : Duration
  deriving DecidableEq

/-- `saturating_duration_since`. -/
def MonoTime.durationSince (t earlier : MonoTime) : Duration :=
  t.asDuration.saturatingSub earlier.asDuration

/-! ## Errors -/

inductive ParseError where
  | invalidDirective
  | duplicateDirective
  | invalidDeltaSeconds
  | duplicateField
  | invalidDate
  | invalidValidator
  deriving DecidableEq

inductive ResponseRejection where
  | invalidMetadata (e : ParseError)
  | noStore
  | isPrivate
  | setCookie
  | hopByHop
  | authorization
  | status
  | invalidVary
  | varyAny
  | invalidTiming
  deriving DecidableEq

/-! ## Field names -/

namespace Name

def age : HeaderName := .of "age" (by decide)
def authorization : HeaderName := .of "authorization" (by decide)
def cacheControl : HeaderName := .of "cache-control" (by decide)
def contentLength : HeaderName := .of "content-length" (by decide)
def date : HeaderName := .of "date" (by decide)
def etag : HeaderName := .of "etag" (by decide)
def expires : HeaderName := .of "expires" (by decide)
def ifMatch : HeaderName := .of "if-match" (by decide)
def ifModifiedSince : HeaderName := .of "if-modified-since" (by decide)
def ifNoneMatch : HeaderName := .of "if-none-match" (by decide)
def ifRange : HeaderName := .of "if-range" (by decide)
def ifUnmodifiedSince : HeaderName := .of "if-unmodified-since" (by decide)
def lastModified : HeaderName := .of "last-modified" (by decide)
def pragma : HeaderName := .of "pragma" (by decide)
def range : HeaderName := .of "range" (by decide)
def setCookie : HeaderName := .of "set-cookie" (by decide)
def transferEncoding : HeaderName := .of "transfer-encoding" (by decide)

end Name

/-! ## Directives -/

/-- The loop of `comma_items`: the bytes of the current item, and whether it is inside a quoted
string or right after a backslash in one. -/
def commaItemsLoop : Bytes → Bytes → Bool → Bool → Except ParseError (List Bytes)
  | [], item, quoted, escaped =>
    if quoted || escaped || (trimOws item).isEmpty then .error .invalidDirective
    else .ok [trimOws item]
  | byte :: rest, item, quoted, escaped =>
    if escaped then commaItemsLoop rest (item ++ [byte]) quoted false
    else if quoted && byte == 92 then commaItemsLoop rest (item ++ [byte]) quoted true
    else if byte == 34 then commaItemsLoop rest (item ++ [byte]) (!quoted) false
    else if byte == 44 && !quoted then
      if (trimOws item).isEmpty then .error .invalidDirective
      else (commaItemsLoop rest [] quoted false).map (trimOws item :: ·)
    else commaItemsLoop rest (item ++ [byte]) quoted false

def commaItems (value : Bytes) : Except ParseError (List Bytes) :=
  commaItemsLoop value [] false false

/-- A byte allowed inside a quoted string. -/
def isQuotedByte (byte : UInt8) : Bool := byte == 9 || (byte ≥ 32 && byte != 127)

/-- The loop of `valid_directive_value` over the inside of a quoted string. -/
def validQuoted : Bytes → Bool → Bool
  | [], escaped => !escaped
  | byte :: rest, escaped =>
    if escaped then isQuotedByte byte && validQuoted rest false
    else if byte == 92 then validQuoted rest true
    else if byte == 34 || !isQuotedByte byte then false
    else validQuoted rest false

def validDirectiveValue (value : Bytes) : Bool :=
  if value.all isToken then true
  else if value.length < 2 || value.head? != some 34 || value.getLast? != some 34 then false
  else validQuoted (value.drop 1).dropLast false

/-- `directive`: the name and the value of one item. -/
def directive (item : Bytes) : Except ParseError (Bytes × Option Bytes) :=
  let (name, value) :=
    match item.idxOf? 61 with
    | none => (item, none)
    | some index => (trimOws (item.take index), some (trimOws (item.drop (index + 1))))
  if name.isEmpty || !name.all isToken then .error .invalidDirective
  else if value.any (fun value => value.isEmpty || !validDirectiveValue value) then
    .error .invalidDirective
  else .ok (name, value)

variable (value : Option Bytes)

def flag : Except ParseError Bool :=
  if value.isSome then .error .invalidDirective else .ok true

def optionalFieldList : Except ParseError Bool :=
  if value.any (fun value => value.head? != some 34) then .error .invalidDirective else .ok true

def deltaSeconds (value : Bytes) : Except ParseError Duration :=
  if value.isEmpty || !value.all isAsciiDigit then .error .invalidDeltaSeconds
  else
    match value.foldlM (fun seconds digit =>
        if seconds * 10 ≤ usizeMax then checkedAdd (seconds * 10) (digit.toNat - 48)
          else none) 0 with
    | none => .error .invalidDeltaSeconds
    | some seconds => .ok (Duration.ofSecs (UInt64.ofNat seconds))

/-- `delta_seconds(required(value)?)`. -/
def requiredDelta : Except ParseError Duration :=
  match value with
  | none => .error .invalidDirective
  | some value => deltaSeconds value

/-- Strictly parsed `Cache-Control` directives. -/
structure CacheControl where
  noStore : Bool
  isPrivate : Bool
  noCache : Bool
  mustRevalidate : Bool
  proxyRevalidate : Bool
  isPublic : Bool
  onlyIfCached : Bool
  immutable : Bool
  maxAge : Option Duration
  sharedMaxAge : Option Duration
  minFresh : Option Duration
  maxStale : Option (Option Duration)
  staleWhileRevalidate : Option Duration
  staleIfError : Option Duration
  deriving DecidableEq

namespace CacheControl

def default : CacheControl where
  noStore := false
  isPrivate := false
  noCache := false
  mustRevalidate := false
  proxyRevalidate := false
  isPublic := false
  onlyIfCached := false
  immutable := false
  maxAge := none
  sharedMaxAge := none
  minFresh := none
  maxStale := none
  staleWhileRevalidate := none
  staleIfError := none

/-- The directives `CacheControl::parse` knows, with what each does to the record. -/
def directives : List (String × (CacheControl → Option Bytes → Except ParseError CacheControl)) :=
  [("no-store", fun c v => (flag v).map fun b => { c with noStore := b }),
    ("private", fun c v => (optionalFieldList v).map fun b => { c with isPrivate := b }),
    ("no-cache", fun c v => (optionalFieldList v).map fun b => { c with noCache := b }),
    ("must-revalidate", fun c v => (flag v).map fun b => { c with mustRevalidate := b }),
    ("proxy-revalidate", fun c v => (flag v).map fun b => { c with proxyRevalidate := b }),
    ("public", fun c v => (flag v).map fun b => { c with isPublic := b }),
    ("only-if-cached", fun c v => (flag v).map fun b => { c with onlyIfCached := b }),
    ("immutable", fun c v => (flag v).map fun b => { c with immutable := b }),
    ("max-age", fun c v => (requiredDelta v).map fun d => { c with maxAge := some d }),
    ("s-maxage", fun c v => (requiredDelta v).map fun d => { c with sharedMaxAge := some d }),
    ("min-fresh", fun c v => (requiredDelta v).map fun d => { c with minFresh := some d }),
    ("max-stale", fun c v =>
      match v with
      | none => .ok { c with maxStale := some none }
      | some v => (deltaSeconds v).map fun d => { c with maxStale := some (some d) }),
    ("stale-while-revalidate", fun c v =>
      (requiredDelta v).map fun d => { c with staleWhileRevalidate := some d }),
    ("stale-if-error", fun c v => (requiredDelta v).map fun d => { c with staleIfError := some d })]

/-- One item: an unknown directive is passed over, a known one may not have been seen before. -/
def parseItem (parsed : CacheControl) (seen : List Bytes) (item : Bytes) :
    Except ParseError (CacheControl × List Bytes) :=
  match directive item with
  | .error e => .error e
  | .ok (name, value) =>
    let lower := name.map toAsciiLowercase
    match directives.find? (fun d => utf8Bytes d.1 = lower) with
    | none => .ok (parsed, seen)
    | some d =>
      if seen.contains lower then .error .duplicateDirective
      else (d.2 parsed value).map fun parsed => (parsed, seen ++ [lower])

def parseItems : List Bytes → CacheControl → List Bytes →
    Except ParseError (CacheControl × List Bytes)
  | [], parsed, seen => .ok (parsed, seen)
  | item :: items, parsed, seen =>
    match parseItem parsed seen item with
    | .error e => .error e
    | .ok (parsed, seen) => parseItems items parsed seen

def parseValues : List HeaderValue → CacheControl → List Bytes → Except ParseError CacheControl
  | [], parsed, _ => .ok parsed
  | value :: values, parsed, seen =>
    match commaItems value.bytes with
    | .error e => .error e
    | .ok items =>
      match parseItems items parsed seen with
      | .error e => .error e
      | .ok (parsed, seen) => parseValues values parsed seen

def parse (headers : HeaderMap) : Except ParseError CacheControl :=
  parseValues (headers.getAll Name.cacheControl) default []

end CacheControl

/-! ## Request policy -/

inductive RequestMode where
  | lookup
  | revalidate
  | bypass
  deriving DecidableEq

structure RequestPolicy where
  mode : RequestMode
  onlyIfCached : Bool
  maxAge : Option Duration
  minFresh : Duration
  maxStale : Option (Option Duration)
  deriving DecidableEq

def asciiListContains (value expected : Bytes) : Bool :=
  (splitAt 44 value).any fun item => eqIgnoreAsciiCase (trimOws item) expected

namespace RequestPolicy

variable (headers : HeaderMap)

/-- Whether the request announces a body. -/
def hasBody : Bool :=
  headers.containsKey Name.transferEncoding ||
    (headers.getAll Name.contentLength).any fun value => value.bytes != utf8Bytes "0"

/-- Whether the request is conditional. -/
def hasCondition : Bool :=
  [Name.ifMatch, Name.ifNoneMatch, Name.ifModifiedSince, Name.ifUnmodifiedSince, Name.ifRange].any
    headers.containsKey

/-- Whether `Pragma: no-cache` stands in for `Cache-Control`. -/
def pragmaNoCache : Bool :=
  !headers.containsKey Name.cacheControl && (headers.getAll Name.pragma).any fun value =>
      asciiListContains value.bytes (utf8Bytes "no-cache")

def evaluate (method : Method) (headers : HeaderMap) : Except ParseError RequestPolicy :=
  match CacheControl.parse headers with
  | .error e => .error e
  | .ok control =>
    let cacheMethod := method = Method.get ∨ method = Method.head
    let mode :=
      if ¬cacheMethod ∨ headers.containsKey Name.range ∨ hasBody headers ∨ hasCondition headers
          ∨ control.noStore then
        RequestMode.bypass
      else if control.noCache ∨ control.maxAge = some 0 ∨ pragmaNoCache headers then .revalidate
      else .lookup
    .ok
      { mode
        onlyIfCached := control.onlyIfCached
        maxAge := control.maxAge
        minFresh := control.minFresh.getD 0
        maxStale := control.maxStale }

end RequestPolicy

/-! ## Response policy -/

/-- The times taken around one upstream response. -/
structure ResponseTiming where
  requestStarted : MonoTime
  responseReceived : MonoTime
  responseReceivedWall : SystemTime

def currentAge (date : Option SystemTime) (ageValue : Duration) (timing : ResponseTiming)
    (now : MonoTime) : Duration :=
  let apparentAge := (date.map fun date => timing.responseReceivedWall.elapsedSince date).getD 0
  let responseDelay := timing.responseReceived.durationSince timing.requestStarted
  let correctedAge := ageValue.saturatingAdd responseDelay
  (max apparentAge correctedAge).saturatingAdd (now.durationSince timing.responseReceived)

/-- `CacheTimeline`: the freshness and retention windows of the server. -/
structure CacheTimeline where
  useOriginCacheControl : Bool
  defaultTtl : Duration
  statusTtls : List (StatusCode × Duration)
  grace : Duration
  keep : Duration

namespace CacheTimeline

/-- `status_ttl`: the statuses are sorted and distinct, so the binary search finds the one there
is. -/
def statusTtl (t : CacheTimeline) (status : StatusCode) : Option Duration :=
  (t.statusTtls.find? (·.1 = status)).map (·.2)

end CacheTimeline

/-- Validators for conditional upstream requests. -/
structure Validators where
  etag : Option HeaderValue
  lastModified : Option HeaderValue
  deriving DecidableEq

inductive RetentionPolicy where
  | rfc
  | canonical (keep : Duration)
  deriving DecidableEq

namespace RetentionPolicy

def requestStaleAllowed : RetentionPolicy → Bool
  | rfc => true
  | canonical _ => false

def keep : RetentionPolicy → Option Duration
  | rfc => none
  | canonical keep => some keep

end RetentionPolicy

structure ResponsePolicy where
  freshnessLifetime : Duration
  correctedInitialAge : Duration
  staleWhileRevalidate : Duration
  staleIfError : Duration
  retention : RetentionPolicy
  alwaysRevalidate : Bool
  mustRevalidateStale : Bool
  allowsAuthorizedReuse : Bool
  deriving DecidableEq

/-- `single_header`: at most one value. -/
def singleHeader (headers : HeaderMap) (name : HeaderName) :
    Except ParseError (Option HeaderValue) :=
  match headers.getAll name with
  | [] => .ok none
  | [value] => .ok (some value)
  | _ => .error .duplicateField

def optionalDate [Crates] (headers : HeaderMap) (name : HeaderName) :
    Except ResponseRejection (Option SystemTime) :=
  match singleHeader headers name with
  | .error e => .error (.invalidMetadata e)
  | .ok none => .ok none
  | .ok (some value) =>
    match (fromUtf8 value.bytes).bind Crates.httpDate with
    | none => .error (.invalidMetadata .invalidDate)
    | some date => .ok (some date)

def optionalDeltaHeader (headers : HeaderMap) (name : HeaderName) :
    Except ResponseRejection (Option Duration) :=
  match singleHeader headers name with
  | .error e => .error (.invalidMetadata e)
  | .ok none => .ok none
  | .ok (some value) =>
    match deltaSeconds value.bytes with
    | .error e => .error (.invalidMetadata e)
    | .ok delta => .ok (some delta)

def nameIn (names : List String) (name : HeaderName) : Bool :=
  names.any fun n => utf8Bytes n = name.bytes

def prohibitedStoredHeader : HeaderName → Bool :=
  nameIn ["connection", "keep-alive", "proxy-authenticate", "proxy-authorization", "te", "trailer",
    "transfer-encoding", "upgrade"]

def prohibited304 : HeaderName → Bool :=
  nameIn ["connection", "content-length", "keep-alive", "proxy-authenticate",
    "proxy-authorization", "set-cookie", "te", "trailer", "transfer-encoding", "upgrade"]

def defaultCacheable (status : StatusCode) : Bool :=
  [200, 203, 204, 300, 301, 308, 404, 405, 410, 414, 501].contains status.code

def validEtag (value : Bytes) : Bool :=
  let value := if value.take 2 = utf8Bytes "W/" then value.drop 2 else value
  decide (2 ≤ value.length) && value.head? = some 34 && value.getLast? = some 34 &&
    (value.drop 1).dropLast.all fun byte => byte == 33 || (35 ≤ byte && byte ≤ 126) || byte ≥ 128

def responseValidators (headers : HeaderMap) : Except ResponseRejection Validators :=
  match singleHeader headers Name.etag with
  | .error e => .error (.invalidMetadata e)
  | .ok etag =>
    if etag.any (fun value => !validEtag value.bytes) then
      .error (.invalidMetadata .invalidValidator)
    else
      match singleHeader headers Name.lastModified with
      | .error e => .error (.invalidMetadata e)
      | .ok lastModified => .ok { etag, lastModified }

structure ResponseFreshness where
  lifetime : Duration
  correctedInitialAge : Duration
  staleWhileRevalidate : Duration
  staleIfError : Duration
  retention : RetentionPolicy

/-- What the header fields say about freshness: `Date`, `Expires`, `Last-Modified` and `Age`. -/
structure FreshnessFields where
  date : Option SystemTime
  expires : Option SystemTime
  lastModified : Option SystemTime
  age : Duration

/-- The first lines of `response_freshness`. -/
def freshnessFields [Crates] (headers : HeaderMap) : Except ResponseRejection FreshnessFields := do
  let date ← optionalDate headers Name.date
  let expires ← optionalDate headers Name.expires
  let lastModified ← optionalDate headers Name.lastModified
  let age ← optionalDeltaHeader headers Name.age
  pure { date, expires, lastModified, age := age.getD 0 }

def responseFreshness [Crates] (status : StatusCode) (headers : HeaderMap) (timing : ResponseTiming)
    (maxHeuristicFreshness : Duration) (timeline : Option CacheTimeline) (control : CacheControl) :
    Except ResponseRejection ResponseFreshness :=
  match freshnessFields headers with
  | .error e => .error e
  | .ok fields =>
    let date := fields.date.getD timing.responseReceivedWall
    let explicit := (control.sharedMaxAge.or control.maxAge).or
      (fields.expires.map fun expires => expires.elapsedSince date)
    let configuredStatusTtl := timeline.bind fun timeline => timeline.statusTtl status
    if configuredStatusTtl = none ∧ explicit = none ∧ ¬defaultCacheable status
        ∧ ¬control.isPublic then
      .error .status
    else
      let heuristic := (fields.lastModified.map fun modified =>
        min (Crates.tenth (date.elapsedSince modified)) maxHeuristicFreshness).getD 0
      .ok
        { lifetime :=
            match timeline with
            | none => explicit.getD heuristic
            | some timeline =>
              (configuredStatusTtl.or
                (if timeline.useOriginCacheControl then explicit
                  else none)).getD timeline.defaultTtl
          correctedInitialAge := currentAge fields.date fields.age timing timing.responseReceived
          staleWhileRevalidate :=
            match timeline with
            | none => control.staleWhileRevalidate.getD 0
            | some _ => 0
          staleIfError :=
            match timeline with
            | none => control.staleIfError.getD 0
            | some timeline => timeline.grace
          retention :=
            match timeline with
            | none => .rfc
            | some timeline => .canonical timeline.keep }

structure ResponsePolicyInput where
  requestHeaders : HeaderMap
  status : StatusCode
  headers : HeaderMap
  timing : ResponseTiming
  maxHeuristicFreshness : Duration
  maxVaryFields : ℕ
  maxVaryBytes : ℕ
  timeline : Option CacheTimeline

namespace ResponsePolicy

/-- The permission a shared cache needs to reuse a response to an authorised request. -/
def authorizedReuse (control : CacheControl) : Bool :=
  control.isPublic || control.sharedMaxAge.isSome || control.mustRevalidate

/-- The directives that forbid serving the response once it is stale. -/
def revalidateStale (control : CacheControl) : Bool :=
  control.noCache || control.mustRevalidate || control.proxyRevalidate
    || control.sharedMaxAge.isSome

/-- The checks of `ResponsePolicy::evaluate` before `Vary`. -/
def admissible (input : ResponsePolicyInput) (control : CacheControl) :
    Except ResponseRejection Unit :=
  if input.status.code = 206 ∨ input.status.code = 304 then .error .status
  else if control.noStore then .error .noStore
  else if control.isPrivate then .error .isPrivate
  else if input.headers.containsKey Name.setCookie then .error .setCookie
  else if input.headers.keys.any prohibitedStoredHeader then .error .hopByHop
  else if input.requestHeaders.containsKey Name.authorization ∧ ¬authorizedReuse control then
    .error .authorization
  else .ok ()

def evaluate [Crates] (input : ResponsePolicyInput) :
    Except ResponseRejection (ResponsePolicy × Vary × Validators) :=
  match CacheControl.parse input.headers with
  | .error e => .error (.invalidMetadata e)
  | .ok control =>
    match admissible input control with
    | .error e => .error e
    | .ok () =>
      match Vary.parse input.headers input.maxVaryFields input.maxVaryBytes with
      | .error _ => .error .invalidVary
      | .ok .any => .error .varyAny
      | .ok vary =>
        match responseFreshness input.status input.headers input.timing
            input.maxHeuristicFreshness input.timeline control with
        | .error e => .error e
        | .ok freshness =>
          match responseValidators input.headers with
          | .error e => .error e
          | .ok validators =>
            .ok
              ({ freshnessLifetime := freshness.lifetime
                 correctedInitialAge := freshness.correctedInitialAge
                 staleWhileRevalidate := freshness.staleWhileRevalidate
                 staleIfError := freshness.staleIfError
                 retention := freshness.retention
                 alwaysRevalidate := control.noCache
                 mustRevalidateStale := revalidateStale control
                 allowsAuthorizedReuse := authorizedReuse control }, vary, validators)

end ResponsePolicy

/-! ## Revalidation -/

/-- `merge_not_modified_headers`; the error is that a prohibited field is present. -/
def mergeNotModifiedHeaders (stored notModified : HeaderMap) : Option HeaderMap :=
  if notModified.keys.any prohibited304 then none
  else
    some (notModified.keys.foldl (fun merged name =>
      (merged.remove name).extend ((notModified.getAll name).map fun value => (name, value)))
        stored)

end Oxiroute.Cache
