import Oxiroute.Lib.Codec

/-!
# The bounded wire reader and writer

Model of `oxiroute-supervision/src/wire.rs`. A writer is a bounded `Buffer`; a reader is the bytes
after its position. Reservations succeed, and the sum of two buffer lengths does not overflow a
`usize`, so the `allocation` error and the overflow branch of the writer's `bytes` do not appear.

Each primitive has one codec lemma: what it reads (`Decodes`), what it writes (`Writes`).
-/

namespace Oxiroute.Supervision

open Lib

/-- `BoundedWireProtocol`: one protocol's errors for a malformed and for an oversized payload. -/
class BoundedWireProtocol (ε : Type) where
  invalid : ε
  tooLarge : (actual maximum : ℕ) → ε

export BoundedWireProtocol (invalid tooLarge)

variable {ε : Type} [BoundedWireProtocol ε]

namespace BoundedWireWriter

abbrev Method := Prog Buffer

def new (maximum : ℕ) : Buffer := ⟨[], maximum, Nat.zero_le _⟩

variable (value : List UInt8)

/-- `bytes`: append within the bound. -/
def bytes : Method ε Unit := do
  let w ← Prog.get
  if h : w.maximum < w.bytes.length + value.length then
    Prog.throw (tooLarge (w.bytes.length + value.length) w.maximum)
  else
    Prog.modify fun _ => ⟨w.bytes ++ value, w.maximum, by
      rw [List.length_append]
      omega⟩

def u8 (value : UInt8) : Method ε Unit := bytes [value]

def u16 (value : UInt16) : Method ε Unit := bytes (beBytes 2 value.toNat)

def u32 (value : UInt32) : Method ε Unit := bytes (beBytes 4 value.toNat)

def u64 (value : UInt64) : Method ε Unit := bytes (beBytes 8 value.toNat)

def lengthPrefixed : Method ε Unit :=
  if 2 ^ 32 ≤ value.length then Prog.throw invalid
  else do
    u32 (UInt32.ofNat value.length)
    bytes value

/-- Write with a fresh writer, then `finish`: the bytes written. -/
def encode (maximum : ℕ) (x : Method ε Unit) : Except ε (List UInt8) :=
  match x (new maximum) with
  | (.ok (), w) => .ok w.bytes
  | (.error e, _) => .error e

omit [BoundedWireProtocol ε] in
theorem encode_eq_ok {x : Method ε Unit} {value payload : List UInt8} {ok : Prop} {maximum : ℕ}
    (hx : Writes x value ok) :
    encode maximum x = .ok payload ↔ ok ∧ value.length ≤ maximum ∧ payload = value := by
  unfold encode
  constructor
  · intro h
    split at h
    · rename_i w hrun
      obtain ⟨hok, hm, hb⟩ := (hx _ _).mp hrun
      cases h
      have hf := w.fits
      rw [hm, hb] at hf
      exact ⟨hok, hf, hb⟩
    · cases h
  · rintro ⟨hok, hlen, rfl⟩
    rw [(hx (new maximum) ⟨payload, maximum, hlen⟩).mpr ⟨hok, rfl, rfl⟩]

theorem bytes_writes : Writes (bytes value : Method ε Unit) value True := by
  intro w w'
  unfold bytes
  rw [Prog.bind_run, Prog.get_run]
  by_cases h : w.maximum < w.bytes.length + value.length
  · simp only [dif_pos h, Prog.throw_run, Prod.mk.injEq, reduceCtorEq, false_and, true_and,
      false_iff, not_and]
    intro hm hb
    have hf := w'.fits
    rw [hm, hb, List.length_append] at hf
    omega
  · simp [dif_neg h, Lib.Buffer.ext_iff, eq_comm, and_comm]

theorem u8_writes {v : UInt8} : Writes (u8 v : Method ε Unit) [v] True := bytes_writes _

theorem u16_writes {v : UInt16} : Writes (u16 v : Method ε Unit) (beBytes 2 v.toNat) True :=
  bytes_writes _

theorem u32_writes {v : UInt32} : Writes (u32 v : Method ε Unit) (beBytes 4 v.toNat) True :=
  bytes_writes _

theorem u64_writes {v : UInt64} : Writes (u64 v : Method ε Unit) (beBytes 8 v.toNat) True :=
  bytes_writes _

theorem lengthPrefixed_writes {value : List UInt8} :
    Writes (lengthPrefixed value : Method ε Unit) (beBytes 4 value.length ++ value)
      (value.length < 2 ^ 32) := by
  by_cases h : 2 ^ 32 ≤ value.length
  · intro w w'
    simp only [lengthPrefixed, if_pos h, Prog.throw_run, Prod.mk.injEq, reduceCtorEq, false_and,
      false_iff, not_and]
    omega
  · have hlen := UInt32.toNat_ofNat_of_lt' (Nat.not_le.mp h)
    unfold lengthPrefixed
    rw [if_neg h]
    refine (u32_writes.seq (bytes_writes value)).congr (by rw [hlen]) ?_
    simpa using h

end BoundedWireWriter

namespace BoundedWireReader

/-- A reader method, over the bytes after the position. -/
abbrev Method := Prog (List UInt8)

/-- `bytes`: an exact byte count, without advancing on failure. -/
def bytes (length : ℕ) : Method ε (List UInt8) := do
  let rest ← Prog.get
  if rest.length < length then Prog.throw invalid
  else
    Prog.modify fun rest => rest.drop length
    pure (rest.take length)

def u8 : Method ε UInt8 := do
  Prog.ofExcept (.ok ((← bytes 1).headD 0))

def u16 : Method ε UInt16 := do
  Prog.ofExcept (.ok (UInt16.ofNat (ofBeBytes (← bytes 2))))

def u32 : Method ε UInt32 := do
  Prog.ofExcept (.ok (UInt32.ofNat (ofBeBytes (← bytes 4))))

def u64 : Method ε UInt64 := do
  Prog.ofExcept (.ok (UInt64.ofNat (ofBeBytes (← bytes 8))))

def lengthPrefixed : Method ε (List UInt8) := do
  let length ← u32
  bytes length.toNat

/-- `finish`: reject trailing bytes. -/
def finish : Method ε Unit := do
  if (← Prog.get) ≠ [] then Prog.throw invalid else pure ()

theorem bytes_decodes {n : ℕ} :
    Decodes (bytes n : Method ε _) (fun v => v) fun v => v.length = n where
  run v rest hn := by
    subst hn
    rw [bytes, Prog.bind_run, Prog.get_run]
    simp [Prog.bind_run]
  exact {r a r'} h := by
    obtain ⟨hlen, h⟩ := Prog.guard_eq_ok.mp h
    obtain ⟨rfl, rfl⟩ : r.take n = a ∧ r.drop n = r' := by simpa [Prog.bind_run] using h
    exact ⟨by simp; omega, (List.take_append_drop n r).symm⟩

theorem u8_decodes : Decodes (u8 : Method ε _) (fun v => [v]) fun _ => True := by
  refine bytes_decodes.via (fun _ _ => ⟨rfl, rfl⟩) ?_
  intro a b ha hb
  obtain ⟨v, rfl⟩ := List.length_eq_one_iff.mp ha
  obtain rfl : v = b := by simpa using hb
  exact ⟨trivial, rfl⟩

theorem u16_decodes : Decodes (u16 : Method ε _) (fun v => beBytes 2 v.toNat) fun _ => True :=
  bytes_decodes.word UInt16.toNat_lt (fun _ => UInt16.ofNat_toNat)
    fun _ => UInt16.toNat_ofNat_of_lt'

theorem u32_decodes : Decodes (u32 : Method ε _) (fun v => beBytes 4 v.toNat) fun _ => True :=
  bytes_decodes.word UInt32.toNat_lt (fun _ => UInt32.ofNat_toNat)
    fun _ => UInt32.toNat_ofNat_of_lt'

theorem u64_decodes : Decodes (u64 : Method ε _) (fun v => beBytes 8 v.toNat) fun _ => True :=
  bytes_decodes.word UInt64.toNat_lt (fun _ => UInt64.ofNat_toNat)
    fun _ => UInt64.toNat_ofNat_of_lt'

theorem lengthPrefixed_decodes :
    Decodes (lengthPrefixed : Method ε _) (fun v => beBytes 4 v.length ++ v)
      fun v => v.length < 2 ^ 32 where
  run v rest hv := by
    have hlen := UInt32.toNat_ofNat_of_lt' hv
    rw [lengthPrefixed, List.append_assoc, ← hlen, u32_decodes.bind_run trivial, hlen,
      bytes_decodes.run v rest rfl]
  exact {r a r'} h := by
    obtain ⟨n, s, _, hr, h⟩ := u32_decodes.bind_exact h
    obtain ⟨hn, hs⟩ := bytes_decodes.exact h
    rw [hn, List.append_assoc, ← hs, ← hr]
    exact ⟨n.toNat_lt, rfl⟩

theorem finish_eq_ok {r r' : List UInt8} :
    (finish : Method ε Unit) r = (.ok (), r') ↔ r = [] ∧ r' = [] := by
  rw [finish, Prog.bind_run, Prog.get_run, Prog.guard_eq_ok]
  simp only [ne_eq, Decidable.not_not, Prog.pure_run, Prod.mk.injEq, true_and]
  constructor
  · rintro ⟨rfl, rfl⟩
    exact ⟨rfl, rfl⟩
  · rintro ⟨rfl, rfl⟩
    exact ⟨rfl, rfl⟩

end BoundedWireReader

end Oxiroute.Supervision
