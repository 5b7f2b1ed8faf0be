import Mathlib.Data.List.Nodup
import Oxiroute.Lib.Codec
import Oxiroute.Lib.Time

/-!
# HTTP methods, statuses, field names, values and header maps

What the crates of this repository use of the `http` crate:

* `Method`: any token; `StatusCode`: three digits from 100 on;
* `HeaderName`: a lower-case token of at most 65535 bytes; `HeaderName.fromBytes` lowers the case
  of what it is given and rejects what is no token;
* `HeaderValue`: visible bytes, blanks and tabs;
* `HeaderMap`: a multimap. A field keeps its place in the iteration order from the first value of
  its name on, and the values of one name keep the order in which they were appended; `remove`
  moves the last field into the gap.

`Crates` stands for what is taken from outside the repository and never looked into: the parsers
of a URI authority and of an HTTP date, a floating-point division and a checksum.
-/

namespace Oxiroute.Http

open Lib List

/-! ## Bytes -/

abbrev Bytes := List UInt8

variable (b : UInt8)

/-- `u8::to_ascii_lowercase`. -/
def toAsciiLowercase : UInt8 := if 65 ≤ b ∧ b ≤ 90 then b + 32 else b

def isAsciiDigit : Bool := 48 ≤ b && b ≤ 57

def isAsciiAlphabetic : Bool := (65 ≤ b && b ≤ 90) || (97 ≤ b && b ≤ 122)

def isToken : Bool :=
  isAsciiAlphabetic b || isAsciiDigit b || (utf8Bytes "!#$%&'*+-.^_`|~").contains b

/-- Optional white space of a field value. -/
def isOws : Bool := b == 32 || b == 9

/-- `trim_ows`: drops blanks and tabs at both ends. -/
def trimOws (value : Bytes) : Bytes :=
  ((value.dropWhile isOws).reverse.dropWhile isOws).reverse

/-- `slice::split` at a separator byte: always at least one piece. -/
def splitAt (sep : UInt8) : Bytes → List Bytes
  | [] => [[]]
  | b :: bytes =>
    if b = sep then [] :: splitAt sep bytes
    else
      match splitAt sep bytes with
      | [] => [[b]]
      | piece :: pieces => (b :: piece) :: pieces

def eqIgnoreAsciiCase (a b : Bytes) : Bool := a.map toAsciiLowercase == b.map toAsciiLowercase

/-! ## Methods and statuses -/

structure Method where
  bytes : Bytes
  isValid : (!bytes.isEmpty && bytes.all isToken) = true
  deriving DecidableEq

namespace Method

def fromBytes (bytes : Bytes) : Option Method :=
  if h : (!bytes.isEmpty && bytes.all isToken) = true then some ⟨bytes, h⟩ else none

def get : Method := ⟨utf8Bytes "GET", by decide⟩

def head : Method := ⟨utf8Bytes "HEAD", by decide⟩

theorem fromBytes_bytes {m : Method} : fromBytes m.bytes = some m := by
  unfold fromBytes
  rw [dif_pos m.isValid]

theorem bytes_injective : Function.Injective Method.bytes := by
  rintro ⟨a, _⟩ ⟨b, _⟩ h
  cases h
  rfl

end Method

structure StatusCode where
  code : ℕ
  ge_hundred : 100 ≤ code
  lt_thousand : code < 1000
  deriving DecidableEq

def StatusCode.ok : StatusCode := ⟨200, by decide, by decide⟩

def StatusCode.fromU16 (code : ℕ) : Option StatusCode :=
  if h : 100 ≤ code ∧ code < 1000 then some ⟨code, h.1, h.2⟩ else none

theorem StatusCode.fromU16_code {s : StatusCode} : StatusCode.fromU16 s.code = some s := by
  unfold StatusCode.fromU16
  rw [dif_pos ⟨s.ge_hundred, s.lt_thousand⟩]

/-! ## Names and values -/

/-- A normalised field name. -/
def HeaderName.valid (bytes : Bytes) : Bool :=
  !bytes.isEmpty && decide (bytes.length ≤ 65535) &&
    bytes.all fun b => isToken b && toAsciiLowercase b == b

/-- A field name in lower case. -/
structure HeaderName where
  bytes : Bytes
  isValid : HeaderName.valid bytes = true
  deriving DecidableEq

def HeaderName.fromBytes (raw : Bytes) : Option HeaderName :=
  if h : HeaderName.valid (raw.map toAsciiLowercase) = true then some ⟨_, h⟩ else none

theorem HeaderName.bytes_injective : Function.Injective HeaderName.bytes := by
  rintro ⟨a, _⟩ ⟨b, _⟩ h
  cases h
  rfl

theorem HeaderName.map_toAsciiLowercase {n : HeaderName} :
    n.bytes.map toAsciiLowercase = n.bytes := by
  have h := n.isValid
  simp only [HeaderName.valid, Bool.and_eq_true, all_eq_true, beq_iff_eq] at h
  calc n.bytes.map _ = n.bytes.map id := map_congr_left fun b hb => (h.2 b hb).2
    _ = n.bytes := map_id _

theorem HeaderName.fromBytes_bytes {n : HeaderName} : HeaderName.fromBytes n.bytes = some n := by
  have hn := n.map_toAsciiLowercase
  unfold HeaderName.fromBytes
  rw [dif_pos (by rw [hn]; exact n.isValid)]
  exact congrArg some (HeaderName.bytes_injective hn)

/-- The name of a field the source mentions. -/
def HeaderName.of (name : String) (h : HeaderName.valid (utf8Bytes name) = true) : HeaderName :=
  ⟨utf8Bytes name, h⟩

def isValueByte (b : UInt8) : Bool := (32 ≤ b && b != 127) || b == 9

structure HeaderValue where
  bytes : Bytes
  isValid : bytes.all isValueByte = true
  deriving DecidableEq

def HeaderValue.fromBytes (bytes : Bytes) : Option HeaderValue :=
  if h : bytes.all isValueByte = true then some ⟨bytes, h⟩ else none

theorem HeaderValue.fromBytes_bytes {v : HeaderValue} : HeaderValue.fromBytes v.bytes = some v := by
  unfold HeaderValue.fromBytes
  rw [dif_pos v.isValid]

/-! ## Header maps -/

/-- One name with its values; a name that is present has at least one. -/
structure Field where
  name : HeaderName
  first : HeaderValue
  rest : List HeaderValue
  deriving DecidableEq

namespace Field

def values (f : Field) : List HeaderValue := f.first :: f.rest

def push (f : Field) (v : HeaderValue) : Field := { f with rest := f.rest ++ [v] }

end Field

/-- A header map: fields with distinct names. -/
structure HeaderMap where
  fields : List Field
  nodup : (fields.map Field.name).Nodup
  deriving DecidableEq

namespace HeaderMap

/-- `HeaderMap::new`. -/
def empty : HeaderMap := ⟨[], nodup_nil⟩

variable (m : HeaderMap) (name : HeaderName)

/-- `get_all`: the values of a name in order. -/
def getAll : List HeaderValue :=
  match m.fields.find? (·.name = name) with
  | some f => f.values
  | none => []

/-- `get`: the first value of a name. -/
def get : Option HeaderValue := (m.getAll name).head?

def containsKey : Bool := m.fields.any (·.name = name)

/-- `keys`: every name once. -/
def keys : List HeaderName := m.fields.map Field.name

/-- `iter`: every value with its name. -/
def iter : List (HeaderName × HeaderValue) :=
  m.fields.flatMap fun f => f.values.map fun v => (f.name, v)

/-- `len`: the number of values. -/
def len : ℕ := m.iter.length

theorem map_name_modify {g : Field → Field} (hg : ∀ f, (g f).name = f.name) {name : HeaderName}
    {fields : List Field} : (fields.map fun f => if f.name = name then g f else f).map Field.name
      = fields.map Field.name := by
  rw [map_map]
  refine map_congr_left fun f _ => ?_
  simp only [Function.comp_apply]
  split_ifs with h
  · exact hg f
  · rfl

variable (value : HeaderValue)

/-- Rewrites the field of a name in place, or adds it at the end. -/
def upsert (g : Field → Field) (hg : ∀ f, (g f).name = f.name) : HeaderMap :=
  if h : name ∈ m.keys then
    ⟨m.fields.map fun f => if f.name = name then g f else f, by
      rw [map_name_modify hg]
      exact m.nodup⟩
  else
    ⟨m.fields ++ [⟨name, value, []⟩], by
      rw [map_append, map_singleton]
      exact nodup_append_comm.mp (nodup_cons.mpr ⟨h, m.nodup⟩)⟩

/-- `append`: one more value of a name. -/
def append : HeaderMap :=
  m.upsert name value (·.push value) fun _ => rfl

/-- `insert`: the only value of a name. -/
def insert : HeaderMap :=
  m.upsert name value (fun f => ⟨f.name, value, []⟩) fun _ => rfl

/-- `swap_remove` of a vector: the last element fills the gap. -/
def swapRemove (fields : List Field) (i : ℕ) : List Field :=
  match fields.getLast? with
  | none => []
  | some last => if i + 1 = fields.length then fields.dropLast else fields.dropLast.set i last

variable {fields : List Field} {m : HeaderMap} {name : HeaderName}

theorem perm_swapRemove {i : ℕ} (h : i < fields.length) :
    (swapRemove fields i).Perm (fields.eraseIdx i) := by
  induction fields using reverseRecOn with
  | nil => simp at h
  | append_singleton init last _ =>
    unfold swapRemove
    simp only [getLast?_append, getLast?_singleton, Option.some_or, length_append,
      length_singleton, dropLast_concat, Nat.add_right_cancel_iff]
    split_ifs with hi
    · rw [hi, eraseIdx_append_of_length_le (Nat.le_refl _)]
      simp
    · have hlt : i < init.length := by
        simp only [length_append, length_singleton] at h
        omega
      rw [set_eq_take_append_cons_drop, if_pos hlt,
        eraseIdx_append_of_lt_length hlt, eraseIdx_eq_take_drop_succ, append_assoc]
      exact (perm_append_singleton last _).symm.append_left _

/-- `remove`: drops all values of a name. -/
def remove (m : HeaderMap) (name : HeaderName) : HeaderMap :=
  match h : m.fields.findIdx? (·.name = name) with
  | none => m
  | some i =>
    ⟨swapRemove m.fields i, by
      have hi : i < m.fields.length := (findIdx?_eq_some_iff_findIdx_eq.mp h).1
      refine ((perm_swapRemove hi).map Field.name).nodup_iff.mpr ?_
      exact m.nodup.sublist ((eraseIdx_sublist m.fields i).map Field.name)⟩

/-- Appending values one after another, as a decoder or a merge does. -/
def extend (m : HeaderMap) (values : List (HeaderName × HeaderValue)) : HeaderMap :=
  values.foldl (fun m nv => m.append nv.1 nv.2) m

theorem ext_fields {m' : HeaderMap} (h : m.fields = m'.fields) : m = m' := by
  cases m
  cases h
  rfl

theorem append_fields_new (h : name ∉ m.keys) {value : HeaderValue} :
    (m.append name value).fields = m.fields ++ [⟨name, value, []⟩] := by
  unfold append upsert
  rw [dif_neg h]

theorem flatMap_push_perm (value : HeaderValue) :
    ∀ {fields : List Field}, (fields.map Field.name).Nodup → name ∈ fields.map Field.name →
      ((fields.map fun f => if f.name = name then f.push value else f).flatMap fun f =>
          f.values.map fun v => (f.name, v)).Perm
        ((fields.flatMap fun f => f.values.map fun v => (f.name, v)) ++ [(name, value)])
  | [], _, hmem => by simp at hmem
  | f :: fields, hnodup, hmem => by
    rw [map_cons, nodup_cons] at hnodup
    rw [map_cons, flatMap_cons, flatMap_cons, append_assoc]
    by_cases hf : f.name = name
    · -- the rest does not have this name
      have hrest : (fields.map fun g => if g.name = name then g.push value else g) = fields := by
        refine (map_congr_left fun g hg => ?_).trans (map_id _)
        have hne : g.name ≠ name := fun he =>
          hnodup.1 (hf.trans he.symm ▸ mem_map_of_mem hg)
        simp [hne]
      rw [if_pos hf, hrest]
      have hpush : ((f.push value).values.map fun v => ((f.push value).name, v))
          = (f.values.map fun v => (f.name, v)) ++ [(name, value)] := by
        simp [Field.push, Field.values, hf]
      rw [hpush, append_assoc]
      exact (perm_append_comm).append_left _
    · rw [if_neg hf]
      have hmem' : name ∈ fields.map Field.name := by
        rcases mem_cons.mp hmem with h | h
        · exact absurd h.symm hf
        · exact h
      exact (flatMap_push_perm value hnodup.2 hmem').append_left _

theorem append_iter_perm (m : HeaderMap) (name : HeaderName) (value : HeaderValue) :
    (m.append name value).iter.Perm (m.iter ++ [(name, value)]) := by
  by_cases h : name ∈ m.keys
  · have hfields : (m.append name value).fields
        = m.fields.map fun f => if f.name = name then f.push value else f := by
      unfold append upsert
      rw [dif_pos h]
    rw [iter, hfields]
    exact flatMap_push_perm value m.nodup h
  · rw [iter, append_fields_new h, flatMap_append]
    simp [iter, Field.values]

theorem append_fields_last {f : Field} (hm : m.fields = fields ++ [f]) (value : HeaderValue) :
    (m.append f.name value).fields = fields ++ [f.push value] := by
  have hmem : f.name ∈ m.keys := by simp [keys, hm]
  have hnodup := m.nodup
  rw [hm, map_append, map_singleton, nodup_append] at hnodup
  have hother : fields.map (fun g => if g.name = f.name then g.push value else g) = fields := by
    refine (map_congr_left fun g hg => if_neg fun heq => ?_).trans (map_id fields)
    exact hnodup.2.2 g.name (mem_map_of_mem hg) f.name mem_cons_self heq
  unfold append upsert
  rw [dif_pos hmem]
  simp [hm, hother]

theorem extend_rest {values : List HeaderValue} :
    ∀ {m : HeaderMap} {fields : List Field} {f : Field}, m.fields = fields ++ [f] →
      (m.extend (values.map fun v => (f.name, v))).fields
        = fields ++ [{ f with rest := f.rest ++ values }] := by
  induction values with
  | nil => simp [extend]
  | cons v values ih =>
    intro m fields f hm
    have h := ih (append_fields_last hm v)
    simpa [extend, Field.push] using h

theorem extend_fields {fs : List Field} : ∀ m : HeaderMap, ((m.fields ++ fs).map Field.name).Nodup →
      (m.extend (fs.flatMap fun f => f.values.map fun v => (f.name, v))).fields
        = m.fields ++ fs := by
  induction fs with
  | nil =>
    simp [extend]
  | cons f fs ih =>
    intro m hnodup
    have hnew : f.name ∉ m.keys := by
      rw [map_append, nodup_append] at hnodup
      exact fun hmem => hnodup.2.2 f.name hmem f.name (by simp) rfl
    have hone : (m.extend (f.values.map fun v => (f.name, v))).fields = m.fields ++ [f] :=
      extend_rest (append_fields_new hnew)
    have h := ih (m.extend (f.values.map fun v => (f.name, v)))
    rw [hone] at h
    simp only [append_assoc, singleton_append] at h
    rw [flatMap_cons, extend, foldl_append]
    exact h hnodup

theorem extend_iter : empty.extend m.iter = m :=
  ext_fields (extend_fields empty m.nodup)

end HeaderMap

/-! ## Other crates -/

/-- What the code reads off a parsed authority: `host()` and `port_u16()`. -/
structure Authority where
  host : String
  port : Option UInt16
  deriving DecidableEq

/-- `Authority::from_str`, `httpdate::parse_http_date`, `Duration::div_f32(10.0)` and
`crc32fast::hash`. -/
class Crates where
  authority : String → Option Authority
  httpDate : String → Option SystemTime
  tenth : Duration → Duration
  crc32 : Bytes → UInt32

end Oxiroute.Http
