import Mathlib.Data.List.DropRight
import Mathlib.Data.List.Destutter
import Mathlib.Data.List.Lex
import Mathlib.Data.List.Sort
import Mathlib.Data.Prod.Lex
import Mathlib.Data.String.Basic
import Mathlib.Order.WithBot
import Oxiroute.Http.Header

/-!
# Cache keys

Model of `crates/oxiroute-cache/src/key.rs`.

* `Vary.parse` reads the `Vary` fields of a response: every named field, sorted and without
  repetition, or `Any` as soon as a `*` is met.
* `BaseKey.new` checks and normalises the request identity: HEAD shares the key of GET, the scheme
  and the host are lowered, the default port of the scheme is dropped.
* `CacheKey.new` adds the normalised request fields that a `Vary` names. `matchesRequest` rebuilds
  the key of a request from the names a stored key has; `sameVarySchema` compares only the names.

Keys are ordered as the source derives it, by method, scheme, authority, path, query and `Vary`
values.
-/

namespace Oxiroute.Cache

open Lib Http

/-- `usize::MAX` on a 64-bit target. -/
def usizeMax : ℕ := 2 ^ 64 - 1

/-- `usize::saturating_add`. -/
def satAdd (a b : ℕ) : ℕ := min (a + b) usizeMax

/-- `usize::checked_add`. -/
def checkedAdd (a b : ℕ) : Option ℕ := if a + b ≤ usizeMax then some (a + b) else none

/-- `str::len`. -/
def strLen (s : String) : ℕ := s.utf8ByteSize

/-- `str::to_ascii_lowercase`. -/
def strLower (s : String) : String := String.ofList (s.toList.map Char.toLower)

inductive KeyError where
  | invalidScheme
  | invalidAuthority
  | invalidPath
  | invalidQuery
  | invalidVary
  | varyAny
  | tooManyVaryFields
  | tooLarge
  deriving DecidableEq

/-- `RequestKeyInput`: the request as a key sees it; `query` has no leading question mark. -/
structure RequestKeyInput where
  method : Method
  scheme : String
  authority : String
  path : String
  query : Option String
  headers : HeaderMap

/-! ## Vary -/

/-- A parsed `Vary` selection. -/
inductive Vary where
  | any
  | names (found : List HeaderName)
  deriving DecidableEq

namespace Vary

/-- `HeaderName`s ordered by their text. -/
def nameLe (a b : HeaderName) : Bool := a.bytes.map UInt8.toNat ≤ b.bytes.map UInt8.toNat

/-- The loop of `Vary::parse` over the comma separated elements: the names so far and the bytes
they took. -/
def parseElements (maxFields maxBytes : ℕ) : List Bytes → List HeaderName → ℕ → Except KeyError Vary
  | [], found, _ => .ok (.names ((found.insertionSort fun a b => nameLe a b).destutter (· ≠ ·)))
  | raw :: rest, found, bytes =>
    let raw := trimOws raw
    if raw = utf8Bytes "*" then .ok .any
    else if raw.isEmpty then .error .invalidVary
    else
      match checkedAdd bytes raw.length with
      | none => .error .tooLarge
      | some bytes =>
        if bytes > maxBytes then .error .tooLarge
        else
          match HeaderName.fromBytes raw with
          | none => .error .invalidVary
          | some name =>
            if (found ++ [name]).length > maxFields then .error .tooManyVaryFields
            else parseElements maxFields maxBytes rest (found ++ [name]) bytes

def parse (headers : HeaderMap) (maxFields maxBytes : ℕ) : Except KeyError Vary :=
  parseElements maxFields maxBytes
    ((headers.getAll (.of "vary" (by decide))).flatMap fun value => splitAt 44 value.bytes) [] 0

/-- `Vary::names`. -/
def names? : Vary → Option (List HeaderName)
  | any => none
  | names found => some found

end Vary

/-! ## Base keys -/

def isSchemeByte (byte : UInt8) (first : Bool) : Bool :=
  isAsciiAlphabetic byte ||
    (!first && (isAsciiDigit byte || byte == 43 || byte == 45 || byte == 46))

def isUriByte (byte : UInt8) : Bool := 33 ≤ byte && byte ≤ 126

/-- `canonical_authority`: the host in lower case and without its brackets unless it needs them,
and the port unless it is the default one of the scheme. -/
def canonicalAuthority [Crates] (raw scheme : String) : Except KeyError String :=
  match Crates.authority raw with
  | none => .error .invalidAuthority
  | some authority =>
    let host := strLower (String.ofList
      ((authority.host.toList.dropWhile (· = '[')).rdropWhile (· = ']')))
    let host := if host.toList.contains ':' then "[" ++ host ++ "]" else host
    match authority.port with
    | none => .ok host
    | some port =>
      if port = 80 ∧ scheme = "http" then .ok host
      else if port = 443 ∧ scheme = "https" then .ok host
      else .ok (host ++ ":" ++ toString port.toNat)

/-- `BaseKey`: the request identity before `Vary` applies. -/
structure BaseKey where
  method : Method
  scheme : String
  authority : String
  path : String
  query : Option String
  deriving DecidableEq

namespace BaseKey

def encodedLen (k : BaseKey) : ℕ :=
  k.method.bytes.length + strLen k.scheme + strLen k.authority + strLen k.path
    + (k.query.map strLen).getD 0 + 5 * 4

def isGet (k : BaseKey) : Bool := k.method = Method.get

/-- The test of the path in `BaseKey::new`. -/
def pathOk (path : String) : Bool :=
  path.toList.head? = some '/' && !path.toList.any (fun c => c = '?' || c = '#')
    && (utf8Bytes path).all isUriByte

/-- The test of the query in `BaseKey::new`. -/
def queryOk (query : String) : Bool :=
  !query.toList.contains '#' && (utf8Bytes query).all isUriByte

/-- The test of the lowered scheme in `BaseKey::new`. -/
def schemeOk (scheme : String) : Bool :=
  scheme ≠ "" && (utf8Bytes scheme).zipIdx.all fun b => isSchemeByte b.1 (b.2 = 0)

def new [Crates] (input : RequestKeyInput) (maxBytes : ℕ) : Except KeyError BaseKey :=
  if pathOk input.path = false then .error .invalidPath
  else if input.query.any (fun query => !queryOk query) then .error .invalidQuery
  else if schemeOk (strLower input.scheme) = false then .error .invalidScheme
  else
    match canonicalAuthority input.authority (strLower input.scheme) with
    | .error e => .error e
    | .ok authority =>
      let key : BaseKey :=
        { method := if input.method = Method.head then Method.get else input.method
          scheme := strLower input.scheme
          authority
          path := input.path
          query := input.query }
      if key.encodedLen > maxBytes then .error .tooLarge else .ok key

/-- The fields in the order in which keys are compared. -/
def rank (k : BaseKey) : List ℕ ×ₗ String ×ₗ String ×ₗ String ×ₗ WithBot String :=
  toLex (k.method.bytes.map UInt8.toNat, toLex (k.scheme, toLex (k.authority,
    toLex (k.path, (k.query : WithBot String)))))

theorem map_toNat_injective : Function.Injective (List.map UInt8.toNat) :=
  List.map_injective_iff.mpr fun _ _ h => UInt8.toNat_inj.mp h

theorem rank_injective : Function.Injective rank := by
  rintro ⟨m, s, au, p, q⟩ ⟨m', s', au', p', q'⟩ h
  simp only [rank, toLex_inj, Prod.mk.injEq] at h
  obtain ⟨hm, rfl, rfl, hpq⟩ := h
  obtain rfl := Method.bytes_injective (map_toNat_injective hm)
  obtain ⟨rfl, rfl⟩ : p = p' ∧ q = q' := Prod.mk.inj hpq
  rfl

instance : LinearOrder BaseKey := LinearOrder.lift' rank rank_injective

end BaseKey

/-! ## Cache keys -/

/-- A request field selected by `Vary`: whether it was there and its normalised value. -/
structure VaryValue where
  name : HeaderName
  present : Bool
  value : Bytes
  deriving DecidableEq

namespace VaryValue

/-- The fields in the order in which values are compared. -/
def rank (v : VaryValue) : List ℕ ×ₗ Bool ×ₗ List ℕ :=
  toLex (v.name.bytes.map UInt8.toNat, toLex (v.present, v.value.map UInt8.toNat))

theorem rank_injective : Function.Injective rank := by
  intro a b h
  simp only [rank, toLex_inj, Prod.mk.injEq] at h
  obtain ⟨hn, hp, hv⟩ := h
  have hn := HeaderName.bytes_injective (BaseKey.map_toNat_injective hn)
  have hv := BaseKey.map_toNat_injective hv
  cases a
  simp_all

instance : LinearOrder VaryValue := LinearOrder.lift' rank rank_injective

end VaryValue

/-- `CacheKey`: the identity of a stored representation. -/
structure CacheKey where
  base : BaseKey
  vary : List VaryValue
  deriving DecidableEq

/-- `normalize_field_value`: inner white space becomes one blank, none after a comma. -/
def normalizeFieldValue (value output : Bytes) : Bytes :=
  ((trimOws value).foldl (fun (st : Bool × Bytes) byte =>
    if isOws byte then (true, st.2)
    else if st.1 && !st.2.isEmpty && st.2.getLast? != some 44 then (false, st.2 ++ [32, byte])
    else (false, st.2 ++ [byte])) (false, output)).2

/-- The values of one field, normalised and joined by commas. -/
def normalizedValues (values : List HeaderValue) : Bytes :=
  (values.zipIdx.foldl (fun normalized v =>
    normalizeFieldValue v.1.bytes (if v.2 ≠ 0 then normalized ++ [44] else normalized)) [])

/-- The request field a `Vary` name selects. -/
def varyValue (headers : HeaderMap) (name : HeaderName) : VaryValue :=
  let all := headers.getAll name
  { name, present := !all.isEmpty, value := normalizedValues all }

namespace CacheKey

variable (k : CacheKey)

def encodedLen : ℕ :=
  k.vary.foldl (fun size value =>
    satAdd (satAdd (satAdd size value.name.bytes.length) value.value.length) (1 + 2 * 4))
    k.base.encodedLen

def new (base : BaseKey) (headers : HeaderMap) (vary : Vary) (maxBytes : ℕ) :
    Except KeyError CacheKey :=
  match vary.names? with
  | none => .error .varyAny
  | some names =>
    let key : CacheKey := { base, vary := names.map (varyValue headers) }
    if key.encodedLen > maxBytes then .error .tooLarge else .ok key

def matchesRequest (base : BaseKey) (headers : HeaderMap) (maxBytes : ℕ) : Bool :=
  if k.base ≠ base then false
  else
    match new base headers (.names (k.vary.map VaryValue.name)) maxBytes with
    | .ok key => key = k
    | .error _ => false

def sameVarySchema (other : CacheKey) : Bool :=
  k.vary.length = other.vary.length && (k.vary.zip other.vary).all fun v => v.1.name = v.2.name

/-- The fields in the order in which keys are compared. -/
def rank : BaseKey ×ₗ List VaryValue := toLex (k.base, k.vary)

theorem rank_injective : Function.Injective rank := by
  intro a b h
  simp only [rank, toLex_inj, Prod.mk.injEq] at h
  cases a
  simp_all

instance : LinearOrder CacheKey := LinearOrder.lift' rank rank_injective

def schema : List HeaderName := k.vary.map VaryValue.name

theorem sameVarySchema_iff {k other : CacheKey} :
    k.sameVarySchema other = true ↔ k.schema = other.schema := by
  unfold sameVarySchema schema
  generalize k.vary = as
  generalize other.vary = bs
  induction as generalizing bs with
  | nil =>
    cases bs with
    | nil | cons b bs => simp
  | cons a as ih =>
    cases bs with
    | nil => simp
    | cons b bs =>
      simp only [List.length_cons, Nat.add_right_cancel_iff, List.zip_cons_cons, List.all_cons,
        Bool.and_eq_true, decide_eq_true_eq, List.map_cons, List.cons.injEq, ← ih bs]
      tauto

variable {k : CacheKey} {base : BaseKey} {headers : HeaderMap} {maxBytes : ℕ}

variable (h : k.matchesRequest base headers maxBytes = true)
include h

theorem eq_of_matchesRequest : k = { base, vary := k.schema.map (varyValue headers) } := by
  unfold matchesRequest at h
  split_ifs at h with hb
  simp only [new, Vary.names?] at h
  by_cases hlen : CacheKey.encodedLen
      { base, vary := (k.vary.map VaryValue.name).map (varyValue headers) } > maxBytes
  · rw [if_pos hlen] at h
    cases h
  · rw [if_neg hlen] at h
    exact (of_decide_eq_true h).symm

theorem matchesRequest_base : k.base = base := by
  rw [eq_of_matchesRequest h]

/-- **Two keys of one schema that match the same request are equal.** -/
theorem matchesRequest_unique {k' : CacheKey} (h' : k'.matchesRequest base headers maxBytes = true)
    (hs : k.schema = k'.schema) : k = k' := by
  rw [eq_of_matchesRequest h, eq_of_matchesRequest h', hs]

end CacheKey

end Oxiroute.Cache
