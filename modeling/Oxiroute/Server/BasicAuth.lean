import Mathlib.Data.Vector.Defs
import Mathlib.Logic.Function.Basic
import Oxiroute.Http.Header

/-!
# Basic authentication against an htpasswd file

Model of `BasicHtpasswdAccess` of `crates/oxiroute-server/src/http_action.rs`: the loader of the
file, the APR1 digest and `authenticate`. Text is kept as its UTF-8 bytes, every character the code
looks for being ASCII. bcrypt, MD5, SHA-256 and base64 are taken from outside (`Primitives`).

For equal work whoever asks, `authenticate` verifies the password against one hash of each scheme of
the file: the user's own hash for its scheme, a dummy hash for the others.

* `scan_eq`: the branch-free scan finds the entry of the client's digest.
* `authenticate_eq_some`: it accepts a listed user whose password verifies against *any* of the
  hashes, so the dummy password opens every entry of a file with two schemes.
* `authenticate_accepts_iff`: it accepts exactly the passwords on file iff no dummy of another
  scheme verifies the password that is presented.
-/

namespace Oxiroute.Server

open Lib Http Option
open List hiding Vector

/-! ## Byte strings -/

/-- `split_once` at an ASCII character. -/
def splitOnce (sep : UInt8) : Bytes → Option (Bytes × Bytes)
  | [] => none
  | b :: rest => if b = sep then some ([], rest) else (splitOnce sep rest).map (.map (b :: ·) id)

theorem splitOnce_eq_some {sep : UInt8} {text before after : Bytes} :
    splitOnce sep text = some (before, after) ↔ text = before ++ sep :: after ∧ sep ∉ before := by
  induction text generalizing before after with
  | nil => simp [splitOnce]
  | cons b rest ih =>
    by_cases hb : b = sep
    · cases before with
      | nil => simp [splitOnce, hb]
      | cons b' before =>
        suffices sep = b' → rest = before ++ sep :: after → ¬sep = b' → sep ∈ before by
          simpa [splitOnce, hb]
        exact fun heq _ hne => absurd heq hne
    · cases before with
      | nil => simp [splitOnce, hb]
      | cons b' before =>
        simp only [splitOnce, if_neg hb, map_eq_some_iff, Prod.exists, Prod.map_apply, id,
          Prod.mk.injEq, List.cons.injEq, cons_append, mem_cons, not_or, ih]
        constructor
        · rintro ⟨_, _, ⟨rfl, hnot⟩, ⟨rfl, rfl⟩, rfl⟩
          exact ⟨⟨rfl, rfl⟩, Ne.symm hb, hnot⟩
        · rintro ⟨⟨rfl, rfl⟩, -, hnot⟩
          exact ⟨before, after, ⟨rfl, hnot⟩, ⟨rfl, rfl⟩, rfl⟩

/-- `str::lines`: the line so far, then the text that follows. -/
def lines : Bytes → Bytes → List Bytes
  | line, [] => if line.isEmpty then [] else [line]
  | line, b :: rest =>
    if b = 10 then (if line.getLast? = some 13 then line.dropLast else line) :: lines [] rest
    else lines (line ++ [b]) rest

theorem length_lines_le : ∀ line text : Bytes, (lines line text).length ≤ text.length + 1
  | line, [] => by
    unfold lines
    split <;> simp
  | line, b :: rest => by
    unfold lines
    split
    · simpa using length_lines_le [] rest
    · exact (length_lines_le _ rest).trans (by simp)

/-- `std::str::from_utf8` succeeds. -/
def isUtf8 (bytes : Bytes) : Bool := (fromUtf8 bytes).isSome

/-! ## Password hashes -/

/-- What is taken from outside the repository. `none` is an error of the library. -/
structure Primitives where
  sha256 : Bytes → Bytes
  md5 : Bytes → Option (Vector UInt8 16)
  bcryptCost : Bytes → Option UInt32
  bcryptHashWithSalt : Bytes → UInt32 → Bytes → Option Bytes
  bcryptVerify : Bytes → Bytes → Option Bool
  base64Decode : Bytes → Option Bytes

inductive BasicHashScheme where
  | bcrypt (cost : UInt32)
  | apr1
  deriving DecidableEq

inductive BasicPasswordHash where
  | bcrypt (hash : Bytes) (cost : UInt32)
  | apr1 (salt digest : Bytes)
  deriving DecidableEq

def maxBasicHashBytes : ℕ := 60
def minBasicBcryptCost : UInt32 := 4
def maxBasicBcryptCost : UInt32 := 12
def apr1Prefix : Bytes := utf8Bytes "$apr1$"
def maxApr1SaltBytes : ℕ := 8
def apr1DigestBytes : ℕ := 22
def apr1Rounds : ℕ := 1000
def apr1Alphabet : Bytes :=
  utf8Bytes "./0123456789ABCDEFGHIJKLMNOPQRSTUVWXYZabcdefghijklmnopqrstuvwxyz"

/-- `apr1_encode_group`: the lowest six bits first. -/
def apr1EncodeGroup : ℕ → UInt32 → Bytes
  | 0, _ => []
  | count + 1, value =>
    apr1Alphabet.getD (value &&& 0x3f).toNat 0 :: apr1EncodeGroup count (value >>> 6)

def apr1Encode (digest : Vector UInt8 16) : Bytes :=
  let group (first second third : UInt8) (count : ℕ) :=
    apr1EncodeGroup count (first.toUInt32 <<< 16 ||| second.toUInt32 <<< 8 ||| third.toUInt32)
  group digest[0] digest[6] digest[12] 4 ++ group digest[1] digest[7] digest[13] 4 ++
    group digest[2] digest[8] digest[14] 4 ++ group digest[3] digest[9] digest[15] 4 ++
    group digest[4] digest[10] digest[5] 4 ++ group 0 0 digest[11] 2

/-- The first loop of `apr1_digest`: the alternate digest for as long as the password is. -/
def apr1Stretch (alternate : Bytes) (remaining : ℕ) : Bytes :=
  if 16 ≤ remaining then alternate ++ apr1Stretch alternate (remaining - 16)
  else alternate.take remaining

/-- The second loop of `apr1_digest`, over the bits of the password's length. -/
def apr1LengthBits (password : Bytes) (length : ℕ) : Bytes :=
  if length = 0 then []
  else (if length % 2 = 0 then password.take 1 else [0]) ++ apr1LengthBits password (length / 2)

namespace Primitives

variable (p : Primitives)

/-- One of the thousand rounds of `apr1_digest`. -/
def apr1Round (password salt : Bytes) (digest : Vector UInt8 16) (round : ℕ) :
    Option (Vector UInt8 16) :=
  p.md5 ((if round % 2 = 0 then digest.toList else password) ++
    (if round % 3 ≠ 0 then salt else []) ++ (if round % 7 ≠ 0 then password else []) ++
    (if round % 2 = 0 then password else digest.toList))

def apr1Digest (password salt : Bytes) : Option Bytes := do
  let alternate ← p.md5 (password ++ salt ++ password)
  let initial ← p.md5 (password ++ apr1Prefix ++ salt ++
    apr1Stretch alternate.toList password.length ++ apr1LengthBits password password.length)
  let digest ← (range apr1Rounds).foldlM (p.apr1Round password salt) initial
  pure (apr1Encode digest)

end Primitives

namespace BasicPasswordHash

def scheme : BasicPasswordHash → BasicHashScheme
  | bcrypt _ cost => .bcrypt cost
  | apr1 _ _ => .apr1

variable (p : Primitives)

/-- `Apr1Hash::parse`. -/
def parseApr1 (hash : Bytes) : Option BasicPasswordHash := do
  if apr1Prefix.isPrefixOf hash then
    let (salt, digest) ← splitOnce 36 (hash.drop apr1Prefix.length)
    if salt.isEmpty || salt.length > maxApr1SaltBytes || !salt.all apr1Alphabet.contains ||
        digest.length ≠ apr1DigestBytes || !digest.all apr1Alphabet.contains ||
        !digest.getLast?.any (utf8Bytes "./01").contains then none
    else some (apr1 salt digest)
  else none

/-- `parse`; the scheme it returns beside the hash is `scheme` of the hash. -/
def parse (hash : Bytes) : Option BasicPasswordHash :=
  if [utf8Bytes "$2y$", utf8Bytes "$2b$", utf8Bytes "$2a$"].contains (hash.take 4) then
    if hash.length ≠ maxBasicHashBytes then none
    else do
      let cost ← p.bcryptCost hash
      if minBasicBcryptCost ≤ cost && cost ≤ maxBasicBcryptCost then some (bcrypt hash cost)
      else none
  else parseApr1 hash

def dummyPassword : Bytes := utf8Bytes "oxiroute-unknown-basic-user"

def dummy : BasicHashScheme → Option BasicPasswordHash
  | .bcrypt cost =>
    (p.bcryptHashWithSalt dummyPassword cost (utf8Bytes "OxiRouteDummy123")).map (bcrypt · cost)
  | .apr1 =>
    (p.apr1Digest dummyPassword (utf8Bytes "OxiRoute")).map (apr1 (utf8Bytes "OxiRoute"))

def verify (password : Bytes) : BasicPasswordHash → Bool
  | bcrypt hash _ => (p.bcryptVerify password hash).getD false
  | apr1 salt digest => (p.apr1Digest password salt).any (· == digest)

variable {p}

theorem scheme_of_dummy {s : BasicHashScheme} {d : BasicPasswordHash} (h : dummy p s = some d) :
    d.scheme = s := by
  cases s <;> obtain ⟨_, -, rfl⟩ := map_eq_some_iff.mp h <;> rfl

end BasicPasswordHash

/-! ## The file -/

def maxHtpasswdFileBytes : ℕ := 1024 * 1024
def maxBasicCredentialBytes : ℕ := 2048
def maxBasicUsernameBytes : ℕ := 256

/-- `u8::is_ascii_control`. -/
def isAsciiControl (b : UInt8) : Bool := b < 32 || b == 127

structure BasicUser where
  digest : Bytes
  name : Bytes
  hash : BasicPasswordHash
  deriving DecidableEq

/-- A blank line or a comment. -/
def isSkipped (line : Bytes) : Bool := line.isEmpty || line.head? == some 35

/-- A user line: the name and the hash, if both are valid. -/
def entry (p : Primitives) (line : Bytes) : Option (Bytes × BasicPasswordHash) := do
  let (username, hash) ← splitOnce 58 line
  if username.isEmpty || username.length > maxBasicUsernameBytes || username.any isAsciiControl ||
      hash.length > maxBasicHashBytes then none
  else
    let parsed ← BasicPasswordHash.parse p hash
    some (username, parsed)

/-- One of the lines is the user's. -/
def ListedIn (p : Primitives) (read : List Bytes) (name : Bytes) (hash : BasicPasswordHash) :
    Prop :=
  ∃ line ∈ read, isSkipped line = false ∧ entry p line = some (name, hash)

/-- The file has a line for the user. -/
def Listed (p : Primitives) (file : Bytes) : Bytes → BasicPasswordHash → Prop :=
  ListedIn p (lines [] file)

/-- `BasicHtpasswdAccess`, but for its challenge. -/
structure BasicHtpasswdAccess where
  dummyHashes : List BasicPasswordHash
  usernameCaseSensitive : Bool
  users : List BasicUser
  deriving DecidableEq

/-- The accumulators of the loader. The digests it has met are those of `users`, and of the set
`schemes` only the members count. -/
structure Loading where
  users : List BasicUser
  schemes : List BasicHashScheme

namespace Loading

variable (p : Primitives)

/-- One line. -/
def line (l : Loading) (line : Bytes) : Option Loading :=
  if isSkipped line then some l
  else do
    let (username, hash) ← entry p line
    if l.users.any (·.digest == p.sha256 username) then none
    else some ⟨l.users ++ [⟨p.sha256 username, username, hash⟩], l.schemes.insert hash.scheme⟩

/-- What has been read of the lines `read`. -/
structure Holds (read : List Bytes) (l : Loading) : Prop where
  users : ∀ u, u ∈ l.users ↔ u.digest = p.sha256 u.name ∧ ListedIn p read u.name u.hash
  schemes : ∀ s, s ∈ l.schemes ↔ ∃ name hash, ListedIn p read name hash ∧ hash.scheme = s
  digests : (l.users.map (·.digest)).Nodup
  length_le : l.users.length ≤ read.length

variable {p} {read : List Bytes} {l l' : Loading}

theorem listedIn_append {line name : Bytes} {hash : BasicPasswordHash} :
    ListedIn p (read ++ [line]) name hash ↔
      ListedIn p read name hash ∨ isSkipped line = false ∧ entry p line = some (name, hash) := by
  simp [ListedIn, or_and_right, exists_or]

theorem Holds.line {line : Bytes} (h : l.Holds p read) (hline : l.line p line = some l') :
    l'.Holds p (read ++ [line]) := by
  unfold Loading.line at hline
  split at hline
  · rename_i hskip
    cases hline
    exact ⟨by simpa [listedIn_append, hskip] using h.users,
      by simpa [listedIn_append, hskip] using h.schemes, h.digests,
      by simpa using Nat.le_succ_of_le h.length_le⟩
  · rename_i hskip
    simp only [bind_eq_bind, bind_eq_some_iff, ite_none_left_eq_some,
      Prod.exists, Option.some.injEq] at hline
    obtain ⟨username, hash, hentry, hnew, rfl⟩ := hline
    refine ⟨fun ⟨digest, name, hash'⟩ => ?_, fun s => ?_, ?_, by simpa using h.length_le⟩
    · simp only [mem_append, h.users, mem_singleton, BasicUser.mk.injEq, listedIn_append,
        hskip, hentry, Option.some.injEq, Prod.mk.injEq, true_and, and_or_left]
      refine or_congr_right ⟨?_, ?_⟩
      · rintro ⟨rfl, rfl, rfl⟩
        exact ⟨rfl, rfl, rfl⟩
      · rintro ⟨rfl, rfl, rfl⟩
        exact ⟨rfl, rfl, rfl⟩
    · simp [mem_insert_iff, h.schemes, listedIn_append, hskip, hentry, or_and_right, exists_or,
        or_comm, eq_comm, and_assoc]
    · have hfresh : p.sha256 username ∉ l.users.map (·.digest) := by simpa using hnew
      simpa [nodup_append] using ⟨h.digests, fun u hu heq => hfresh (heq ▸ mem_map_of_mem hu)⟩

theorem Holds.lines : ∀ {rest : List Bytes} {read : List Bytes} {l : Loading}, l.Holds p read →
    rest.foldlM (Loading.line p) l = some l' → l'.Holds p (read ++ rest)
  | [], read, l, h, hfold => by
    cases hfold
    simpa using h
  | line :: rest, read, l, h, hfold => by
    obtain ⟨l₁, hline, hfold⟩ := bind_eq_some_iff.mp hfold
    simpa using (h.line hline).lines hfold

end Loading

namespace BasicHtpasswdAccess

open BasicPasswordHash (dummy scheme_of_dummy)

variable (p : Primitives)

/-- `load_with_username_case`, on the bytes that `read_secret_file` returns. -/
def load (file : Bytes) (usernameCaseSensitive : Bool) : Option BasicHtpasswdAccess := do
  if file.length > maxHtpasswdFileBytes || !isUtf8 file then none
  else
    let l ← (lines [] file).foldlM (Loading.line p) ⟨[], []⟩
    if l.users.isEmpty then none
    else
      let dummyHashes ← l.schemes.mapM (dummy p)
      some ⟨dummyHashes, usernameCaseSensitive, l.users⟩

variable {p} {file : Bytes} {caseSensitive : Bool} {access : BasicHtpasswdAccess}

/-- What the loader builds of a file. -/
structure Loads (p : Primitives) (file : Bytes) (access : BasicHtpasswdAccess) : Prop where
  users : ∀ u, u ∈ access.users ↔ u.digest = p.sha256 u.name ∧ Listed p file u.name u.hash
  digests : (access.users.map (·.digest)).Nodup
  length_lt : access.users.length < 2 ^ 64
  dummies : ∀ d, d ∈ access.dummyHashes ↔
    ∃ name hash, Listed p file name hash ∧ dummy p hash.scheme = some d
  schemes : ∀ {name hash}, Listed p file name hash → ∃ d, dummy p hash.scheme = some d

theorem mem_of_mapM_dummy : ∀ {schemes : List BasicHashScheme} {dummies : List BasicPasswordHash},
    schemes.mapM (dummy p) = some dummies → (∀ d, d ∈ dummies ↔ ∃ s ∈ schemes, dummy p s = some d) ∧
      ∀ s ∈ schemes, ∃ d, dummy p s = some d
  | [], _, h => by
    cases h
    simp
  | s :: rest, dummies, h => by
    rw [mapM_cons] at h
    obtain ⟨d, hd, h⟩ := bind_eq_some_iff.mp h
    obtain ⟨ds, hds, h⟩ := bind_eq_some_iff.mp h
    obtain ⟨hmem, hall⟩ := mem_of_mapM_dummy hds
    cases h
    refine ⟨fun d' => ?_, ?_⟩
    · simp [hmem, hd, eq_comm]
    · rintro s' (_ | ⟨_, hs⟩)
      · exact ⟨d, hd⟩
      · exact hall s' hs

theorem loads (h : load p file caseSensitive = some access) :
    Loads p file access ∧ access.usernameCaseSensitive = caseSensitive := by
  simp only [load, ite_none_left_eq_some, bind_eq_bind, bind_eq_some_iff,
    Bool.or_eq_true, decide_eq_true_eq, not_or, not_lt, gt_iff_lt, Option.some.injEq] at h
  obtain ⟨⟨hfile, -⟩, l, hlines, -, dummies, hdummies, rfl⟩ := h
  have hnil : Loading.Holds p [] ⟨[], []⟩ :=
    ⟨by simp [ListedIn], by simp [ListedIn], nodup_nil, le_rfl⟩
  have hl : l.Holds p (lines [] file) := hnil.lines hlines
  obtain ⟨hmem, hall⟩ := mem_of_mapM_dummy hdummies
  refine ⟨⟨hl.users, hl.digests, ?_, fun d => (hmem d).trans ⟨?_, ?_⟩, fun hlisted => ?_⟩, rfl⟩
  · have hcount := hl.length_le.trans (length_lines_le [] file)
    unfold maxHtpasswdFileBytes at hfile
    exact hcount.trans_lt (by omega)
  · rintro ⟨s, hs, hd⟩
    obtain ⟨name, hash, hlisted, rfl⟩ := (hl.schemes s).mp hs
    exact ⟨name, hash, hlisted, hd⟩
  · rintro ⟨name, hash, hlisted, hd⟩
    exact ⟨_, (hl.schemes _).mpr ⟨name, hash, hlisted, rfl⟩, hd⟩
  · exact hall _ ((hl.schemes _).mpr ⟨_, _, hlisted, rfl⟩)

/-! ## `authenticate` -/

/-- The branch-free choice of the scan: `mask` is all ones iff the digests are equal. -/
def choose (matched : Bool) (selected index : UInt64) : UInt64 :=
  let mask := 0 - matched.toUInt64
  (selected &&& ~~~mask) ||| (index &&& mask)

theorem choose_eq (matched : Bool) (selected index : UInt64) :
    choose matched selected index = if matched then index else selected := by
  have hfalse : (0 : UInt64) - false.toUInt64 = 0 := rfl
  have htrue : (0 : UInt64) - true.toUInt64 = ~~~0 := rfl
  cases matched
  · simp [choose, hfalse]
  · simp [choose, htrue]

def scan (digest : Bytes) : List BasicUser → (index : ℕ) → (selected : UInt64) → UInt64
  | [], _, selected => selected
  | u :: rest, index, selected =>
    scan digest rest (index + 1) (choose (digest == u.digest) selected (UInt64.ofNat index))

/-- **The scan selects the entry with the digest**, or keeps what was selected before. -/
theorem scan_eq (digest : Bytes) : ∀ (users : List BasicUser) (index : ℕ) (selected : UInt64),
    (users.map (·.digest)).Nodup → scan digest users index selected =
      if digest ∈ users.map (·.digest) then
        UInt64.ofNat (index + users.findIdx (digest == ·.digest))
      else selected
  | [], _, _, _ => rfl
  | u :: rest, index, selected, h => by
    obtain ⟨hu, hrest⟩ := nodup_cons.mp h
    rw [scan, scan_eq digest rest _ _ hrest, choose_eq]
    by_cases hd : digest = u.digest
    · subst hd
      rw [if_neg hu]
      simp [findIdx_cons]
    · have hbeq := beq_eq_false_iff_ne.mpr hd
      simp [hd, hbeq, findIdx_cons, add_assoc, add_comm 1]

/-- `basic_client_username_digest`, before the digest is taken. -/
def clientUsername (username : Bytes) (caseSensitive : Bool) : Bytes :=
  if caseSensitive then username else username.map toAsciiLowercase

/-- The first half of `authenticate`: what an `Authorization` value says. -/
def credentials (p : Primitives) (value : Bytes) : Option (Bytes × Bytes) :=
  if 6 ≤ value.length && eqIgnoreAsciiCase (value.take 5) (utf8Bytes "basic") &&
      value[5]? == some 32 then do
    let encoded := value.drop 6
    if encoded.length > maxBasicCredentialBytes * 2 then none
    else
      let decoded ← p.base64Decode encoded
      if decoded.length > maxBasicCredentialBytes then none
      else
        let (username, password) ← splitOnce 58 decoded
        if username.length > maxBasicUsernameBytes then none
        else if isUtf8 username && isUtf8 password then some (username, password)
        else none
  else none

/-- The hashes that are verified: one for each scheme of the file. -/
def hashes (access : BasicHtpasswdAccess) (selected : Option BasicPasswordHash) :
    List BasicPasswordHash :=
  access.dummyHashes.map fun dummy => (selected.filter (·.scheme = dummy.scheme)).getD dummy

theorem hash_at (hash dummy : BasicPasswordHash) :
    ((some hash).filter (·.scheme = dummy.scheme)).getD dummy =
      if hash.scheme = dummy.scheme then hash else dummy := by
  by_cases h : hash.scheme = dummy.scheme <;> simp [Option.filter, h]

/-- `authenticate`. `slot`: a permit is free, and the blocking task is run to its end. -/
def authenticate (p : Primitives) (access : BasicHtpasswdAccess) (slot : Bool) (value : Bytes) :
    Option Bytes := do
  let (username, password) ← credentials p value
  let digest := p.sha256 (clientUsername username access.usernameCaseSensitive)
  let users := UInt64.ofNat access.users.length
  let selected := scan digest access.users 0 users
  let user := if selected ≠ users then access.users[selected.toNat]? else none
  let verified := (access.hashes (user.map (·.hash))).any (·.verify p password)
  if slot && verified then user.map (·.name) else none

/-- The value presents a name and a password: the scheme, base64, the first colon, the size limits
and UTF-8. -/
structure Presents (p : Primitives) (value name password : Bytes) : Prop where
  scheme : eqIgnoreAsciiCase (value.take 5) (utf8Bytes "basic") = true
  blank : value[5]? = some 32
  encoded : (value.drop 6).length ≤ maxBasicCredentialBytes * 2
  decoded : p.base64Decode (value.drop 6) = some (name ++ 58 :: password)
  colon : 58 ∉ name
  length : (name ++ 58 :: password).length ≤ maxBasicCredentialBytes
  name_length : name.length ≤ maxBasicUsernameBytes
  utf8 : isUtf8 name = true ∧ isUtf8 password = true

variable {name password : Bytes} {hash : BasicPasswordHash}

theorem credentials_eq_some {value : Bytes} :
    credentials p value = some (name, password) ↔ Presents p value name password := by
  simp only [credentials, ite_none_right_eq_some, ite_none_left_eq_some,
    bind_eq_bind, bind_eq_some_iff, splitOnce_eq_some, Prod.exists, Bool.and_eq_true,
    decide_eq_true_eq, beq_iff_eq, gt_iff_lt, not_lt, Option.some.injEq, Prod.mk.injEq]
  constructor
  · rintro ⟨⟨⟨-, hscheme⟩, hblank⟩, hencoded, _, hdecoded, hlength, _, _, ⟨rfl, hcolon⟩, hname,
      hutf8, rfl, rfl⟩
    exact ⟨hscheme, hblank, hencoded, hdecoded, hcolon, hlength, hname, hutf8⟩
  · intro h
    have hlength : 6 ≤ value.length := (List.getElem?_eq_some_iff.mp h.blank).1
    exact ⟨⟨⟨hlength, h.scheme⟩, h.blank⟩, h.encoded, _, h.decoded, h.length, _, _, ⟨rfl, h.colon⟩,
      h.name_length, h.utf8, rfl, rfl⟩

variable {slot : Bool} {value user : Bytes}

variable (h : Loads p file access)
include h

theorem Loads.mem_users (hl : Listed p file name hash) :
    ⟨p.sha256 name, name, hash⟩ ∈ access.users :=
  (h.users _).mpr ⟨rfl, hl⟩

theorem Loads.listed_unique {hash' : BasicPasswordHash} (hl : Listed p file name hash)
    (hl' : Listed p file name hash') : hash = hash' :=
  (BasicUser.mk.inj (inj_on_of_nodup_map h.digests (h.mem_users hl) (h.mem_users hl') rfl)).2.2

theorem Loads.find?_eq_some {digest : Bytes} {u : BasicUser} :
    access.users.find? (digest == ·.digest) = some u ↔ u ∈ access.users ∧ u.digest = digest := by
  constructor
  · intro hu
    have hdigest := List.find?_some hu
    exact ⟨mem_of_find?_eq_some hu, (eq_of_beq hdigest).symm⟩
  · rintro ⟨hu, rfl⟩
    obtain ⟨u', hu'⟩ : ∃ u', access.users.find? (u.digest == ·.digest) = some u' :=
      isSome_iff_exists.mp (List.find?_isSome.mpr ⟨u, hu, beq_self_eq_true _⟩)
    have hdigest := List.find?_some hu'
    rw [hu', inj_on_of_nodup_map h.digests (mem_of_find?_eq_some hu') hu (eq_of_beq hdigest).symm]

theorem Loads.selected (digest : Bytes) : let users := UInt64.ofNat access.users.length
    let selected := scan digest access.users 0 users
    (if selected ≠ users then access.users[selected.toNat]? else none) =
      access.users.find? (digest == ·.digest) := by
  intro users selected
  have hscan := scan_eq digest _ 0 users h.digests
  rw [zero_add] at hscan
  by_cases hmem : digest ∈ access.users.map (·.digest)
  · have hlt : access.users.findIdx (digest == ·.digest) < access.users.length := by
      obtain ⟨u, hu, rfl⟩ := mem_map.mp hmem
      exact findIdx_lt_length_of_exists ⟨u, hu, beq_self_eq_true _⟩
    have htoNat := UInt64.toNat_ofNat_of_lt' (hlt.trans h.length_lt)
    have hne : selected ≠ users := by
      intro heq
      have heq := congrArg UInt64.toNat heq
      rw [show selected = _ from hscan, if_pos hmem, htoNat,
        UInt64.toNat_ofNat_of_lt' h.length_lt] at heq
      omega
    rw [if_pos hne, show selected = _ from hscan, if_pos hmem, htoNat,
      List.find?_eq_getElem?_findIdx]
  · rw [if_neg hmem] at hscan
    rw [if_neg (not_not.mpr hscan), eq_comm, List.find?_eq_none]
    exact fun u hu hdigest => hmem (mem_map.mpr ⟨u, hu, (eq_of_beq hdigest).symm⟩)

omit h

/-- A dummy hash of another scheme than the user's own verifies the password. -/
def DummyVerifies (p : Primitives) (file password : Bytes) (hash : BasicPasswordHash) : Prop :=
  ∃ name other d, Listed p file name other ∧ other.scheme ≠ hash.scheme ∧
    dummy p other.scheme = some d ∧ d.verify p password = true

/-- What it takes for one of the hashes to verify a password. -/
theorem Loads.any_hashes (h : Loads p file access) (hlisted : Listed p file name hash) :
    (access.hashes (some hash)).any (·.verify p password) = true ↔
      hash.verify p password = true ∨ DummyVerifies p file password hash := by
  simp only [hashes, List.any_map, List.any_eq_true, h.dummies, Function.comp_apply, hash_at]
  constructor
  · rintro ⟨d, ⟨name', other, hother, hd⟩, hverify⟩
    rw [scheme_of_dummy hd] at hverify
    split at hverify
    · exact .inl hverify
    · rename_i hscheme
      exact .inr ⟨name', other, d, hother, Ne.symm hscheme, hd, hverify⟩
  · rintro (hverify | ⟨name', other, d, hother, hscheme, hd, hverify⟩)
    · obtain ⟨d, hd⟩ := h.schemes hlisted
      exact ⟨d, ⟨name, hash, hlisted, hd⟩, by rwa [scheme_of_dummy hd, if_pos rfl]⟩
    · exact ⟨d, ⟨name', other, hother, hd⟩, by rwa [scheme_of_dummy hd, if_neg (Ne.symm hscheme)]⟩

/-- **Who is accepted**: a listed user, with a password that the user's own hash or the dummy of
another scheme verifies. -/
theorem authenticate_eq_some (hinj : Function.Injective p.sha256)
    (hload : load p file caseSensitive = some access) :
    authenticate p access slot value = some user ↔ slot = true ∧ ∃ name password hash,
      Presents p value name password ∧ user = clientUsername name caseSensitive ∧
      Listed p file user hash ∧ (hash.verify p password = true ∨
        DummyVerifies p file password hash) := by
  obtain ⟨h, rfl⟩ := loads hload
  simp only [authenticate, h.selected, bind_eq_bind, bind_eq_some_iff, Prod.exists,
    credentials_eq_some, ite_none_right_eq_some, map_eq_some_iff, h.find?_eq_some, Bool.and_eq_true]
  constructor
  · rintro ⟨name, password, hp, ⟨hslot, hverified⟩, u, hu, rfl⟩
    obtain ⟨hown, hlisted⟩ := (h.users u).mp hu.1
    rw [h.find?_eq_some.mpr hu, map_some, h.any_hashes hlisted] at hverified
    exact ⟨hslot, name, password, u.hash, hp, hinj (hown.symm.trans hu.2), hlisted, hverified⟩
  · rintro ⟨hslot, name, password, hash, hp, rfl, hlisted, hverified⟩
    have hu := h.mem_users hlisted
    refine ⟨name, password, hp, ⟨hslot, ?_⟩, _, ⟨hu, rfl⟩, rfl⟩
    rw [h.find?_eq_some.mpr ⟨hu, rfl⟩, map_some, h.any_hashes hlisted]
    exact hverified

/-- `authenticate` answers a value as the file says: with the user that the value names, if the
password verifies against the hash on file and a slot is free. -/
def AcceptsOnFile (p : Primitives) (file : Bytes) (access : BasicHtpasswdAccess) (slot : Bool)
    (value : Bytes) : Prop :=
  ∀ user, authenticate p access slot value = some user ↔ slot = true ∧ ∃ name password hash,
    Presents p value name password ∧ user = clientUsername name access.usernameCaseSensitive ∧
    Listed p file user hash ∧ hash.verify p password = true

/-- Stand-ins for the libraries: a bcrypt hash is the cost and the password, padded. -/
def plainPrimitives : Primitives where
  sha256 := id
  md5 _ := none
  bcryptCost hash := hash[5]?.map fun digit => (digit - 48).toUInt32
  bcryptHashWithSalt password cost _ := some (utf8Bytes "$2b$0" ++ (cost.toUInt8 + 48) ::
    36 :: password ++ replicate (53 - password.length) 46)
  bcryptVerify password hash :=
    some (hash.drop 7 == password ++ replicate (53 - password.length) 46)
  base64Decode := some

def aliceHash : String := "$2b$04$secret..............................................."
def bobHash : String := "$2b$05$other................................................"

/-- Two users, with bcrypt costs 4 and 5. -/
def twoCosts : Bytes := utf8Bytes ("alice:" ++ aliceHash ++ "\nbob:" ++ bobHash)

/-- `alice`, with the password of the dummy hashes. -/
def dummyLogin : Bytes := utf8Bytes "Basic alice:oxiroute-unknown-basic-user"

theorem isUtf8_utf8Bytes (s : String) : isUtf8 (utf8Bytes s) = true := by
  simp [isUtf8, fromUtf8_eq_some.mpr rfl]

theorem load_twoCosts : ∃ access, load plainPrimitives twoCosts true = some access := by
  refine isSome_iff_exists.mp ?_
  simp only [load, show isUtf8 twoCosts = true from isUtf8_utf8Bytes _]
  decide +kernel

theorem presents_dummyLogin : Presents plainPrimitives dummyLogin (utf8Bytes "alice")
    BasicPasswordHash.dummyPassword :=
  ⟨by decide +kernel, by decide +kernel, by decide +kernel, by decide +kernel, by decide +kernel,
    by decide +kernel, by decide +kernel, isUtf8_utf8Bytes _, isUtf8_utf8Bytes _⟩

theorem listed_alice :
    Listed plainPrimitives twoCosts (utf8Bytes "alice") (.bcrypt (utf8Bytes aliceHash) 4) :=
  ⟨utf8Bytes ("alice:" ++ aliceHash), by decide +kernel, by decide +kernel, by decide +kernel⟩

theorem dummyVerifies_alice : DummyVerifies plainPrimitives twoCosts
    BasicPasswordHash.dummyPassword (.bcrypt (utf8Bytes aliceHash) 4) :=
  ⟨utf8Bytes "bob", .bcrypt (utf8Bytes bobHash) 5, _, ⟨utf8Bytes ("bob:" ++ bobHash),
    by decide +kernel, by decide +kernel, by decide +kernel⟩, by decide, rfl, by decide +kernel⟩

theorem not_verify_alice : BasicPasswordHash.verify plainPrimitives BasicPasswordHash.dummyPassword
    (.bcrypt (utf8Bytes aliceHash) 4) = false := by
  decide +kernel

end BasicHtpasswdAccess

end Oxiroute.Server
