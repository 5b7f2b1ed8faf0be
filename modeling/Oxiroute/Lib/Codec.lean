import Mathlib.Data.List.Induction
import Mathlib.Tactic.Common
import Oxiroute.Lib.Prog

/-!
# Exact codecs over byte strings

A decoder is a `Prog` over the bytes not yet read. `Decodes x enc valid` says that `x` reads
exactly the encodings: it returns `a` from any input that starts with `enc a`, for a valid `a`
(`run`), and whatever it returns is valid and was read from its own encoding (`exact`). An encoder
is a `Prog` over a bounded `Buffer`; `Writes x bytes ok` says that `x` succeeds iff `ok` holds and
`bytes` still fit, and then appends them.

`Decodes.bind_run` and `Decodes.bind_exact` take a decoder of several fields apart in the two
directions, `Writes.seq` puts an encoder of several fields together; `Decodes.many` and
`Writes.forEach` are the loops.
-/

namespace Oxiroute.Lib

open List

/-! ## Big-endian words -/

/-- The low `n` bytes of `v`, most significant first. -/
def beBytes : ℕ → ℕ → List UInt8
  | 0, _ => []
  | n + 1, v => beBytes n (v / 256) ++ [UInt8.ofNat (v % 256)]

/-- The number a big-endian byte string stands for. -/
def ofBeBytes (bytes : List UInt8) : ℕ := bytes.foldl (fun v b => v * 256 + b.toNat) 0

variable {n v : ℕ} {bytes : List UInt8}

@[simp] theorem length_beBytes : (beBytes n v).length = n := by
  induction n generalizing v with
  | zero => rfl
  | succ n ih => simp [beBytes, ih]

theorem ofBeBytes_append {b : UInt8} :
    ofBeBytes (bytes ++ [b]) = ofBeBytes bytes * 256 + b.toNat := by
  simp [ofBeBytes, foldl_append]

theorem ofBeBytes_beBytes (h : v < 256 ^ n) : ofBeBytes (beBytes n v) = v := by
  induction n generalizing v with
  | zero =>
    have hv : v = 0 := by simpa using h
    rw [hv]
    rfl
  | succ n ih =>
    have hdiv : v / 256 < 256 ^ n := Nat.div_lt_of_lt_mul (by rwa [Nat.pow_succ'] at h)
    rw [beBytes, ofBeBytes_append, ih hdiv, UInt8.toNat_ofNat', Nat.mod_mod]
    omega

theorem beBytes_ofBeBytes : beBytes bytes.length (ofBeBytes bytes) = bytes := by
  induction bytes using reverseRecOn with
  | nil => rfl
  | append_singleton bytes b ih =>
    have hb := b.toNat_lt
    have hdiv : (ofBeBytes bytes * 256 + b.toNat) / 256 = ofBeBytes bytes := by omega
    have hmod : (ofBeBytes bytes * 256 + b.toNat) % 256 = b.toNat := by omega
    rw [length_append, length_singleton, beBytes, ofBeBytes_append, hdiv, hmod, ih,
      UInt8.ofNat_toNat]

theorem beBytes_add (m n v : ℕ) : beBytes (m + n) v = beBytes m (v / 256 ^ n) ++ beBytes n v := by
  induction n generalizing v with
  | zero => simp [beBytes]
  | succ n ih =>
    rw [← Nat.add_assoc, beBytes, ih, beBytes, append_assoc, Nat.div_div_eq_div_mul, Nat.pow_succ']

theorem ofBeBytes_lt (bytes : List UInt8) : ofBeBytes bytes < 256 ^ bytes.length := by
  induction bytes using reverseRecOn with
  | nil => decide
  | append_singleton bytes b ih =>
    have hb := b.toNat_lt
    rw [ofBeBytes_append, length_append, length_singleton, Nat.pow_succ]
    omega

/-! ## Fields -/

/-- Reading one field of a byte string: its bytes, and what stands after them. -/
theorem drop_field {field rest : List UInt8} {i : ℕ} (h : bytes.drop i = field ++ rest)
    (hn : field.length = n) : bytes.drop (i + n) = rest ∧ (bytes.drop i).take n = field := by
  rw [← drop_drop, h, drop_left' hn, take_left' hn]
  exact ⟨rfl, rfl⟩

/-! ## UTF-8 -/

def utf8Bytes (s : String) : List UInt8 := s.toByteArray.data.toList

/-- The string of a valid UTF-8 byte string. -/
def fromUtf8 (bytes : List UInt8) : Option String := String.fromUTF8? ⟨bytes.toArray⟩

theorem fromUtf8_eq_some {s : String} : fromUtf8 bytes = some s ↔ utf8Bytes s = bytes := by
  unfold fromUtf8 utf8Bytes String.fromUTF8?
  constructor
  · intro h
    split at h
    · cases h
      simp [String.fromUTF8]
    · cases h
  · rintro rfl
    simp only [Array.toArray_toList, String.fromUTF8, Option.dite_none_right_eq_some,
      exists_prop, and_true]
    exact s.isValidUTF8

/-! ## Decoders -/

variable {ε α β : Type}

/-- The decoder `x` reads exactly the encodings of valid values. -/
structure Decodes (x : Prog (List UInt8) ε α) (enc : α → List UInt8) (valid : α → Prop) : Prop where
  run : ∀ a rest, valid a → x (enc a ++ rest) = (.ok a, rest)
  exact : ∀ {r a r'}, x r = (.ok a, r') → valid a ∧ r = enc a ++ r'

namespace Decodes

variable {x : Prog (List UInt8) ε α} {f : α → Prog (List UInt8) ε β} {enc : α → List UInt8}
  {valid : α → Prop}

/-- Forwards through one field of a decoder. -/
theorem bind_run (hx : Decodes x enc valid) {a : α} (ha : valid a) {rest : List UInt8} :
    (x >>= f) (enc a ++ rest) = f a rest :=
  Prog.bind_ok (hx.run a rest ha)

/-- Backwards through one field of a decoder. -/
theorem bind_exact (hx : Decodes x enc valid) {r r' : List UInt8} {b : β}
    (h : (x >>= f) r = (.ok b, r')) : ∃ a s, valid a ∧ r = enc a ++ s ∧ f a s = (.ok b, r') := by
  obtain ⟨a, s, hxa, hf⟩ := Prog.bind_eq_ok.mp h
  obtain ⟨ha, hr⟩ := hx.exact hxa
  exact ⟨a, s, ha, hr, hf⟩

/-- One field of a decoder of a record, in both directions: whatever is read after it has it. -/
theorem field (hx : Decodes x enc valid) (get : β → α) {rest : β → List UInt8}
    {valid' : α → β → Prop} (hf : ∀ a, Decodes (f a) rest (valid' a))
    (hget : ∀ a b, valid' a b → get b = a := by rintro _ ⟨⟩ h; simp_all) :
    Decodes (x >>= f) (fun b => enc (get b) ++ rest b)
      fun b => valid (get b) ∧ valid' (get b) b where
  run b r hb := by
    rw [append_assoc, hx.bind_run hb.1, (hf _).run b r hb.2]
  exact h := by
    obtain ⟨a, s, ha, hr, h⟩ := hx.bind_exact h
    obtain ⟨hb, hs⟩ := (hf a).exact h
    obtain rfl := hget a _ hb
    exact ⟨⟨ha, hb⟩, by rw [hr, hs, append_assoc]⟩

theorem record {b : β} :
    Decodes (pure b : Prog (List UInt8) ε β) (fun _ => []) fun b' => b' = b where
  run b' _ hb := by
    rw [hb]
    rfl
  exact h := by
    obtain ⟨hb, rfl⟩ := Prod.mk.inj h
    exact ⟨(Except.ok.inj hb).symm, rfl⟩

theorem guarded {p : Prop} [Decidable p] {e : ε} (hx : Decodes x enc valid) :
    Decodes (if p then Prog.throw e else x) enc fun a => ¬p ∧ valid a where
  run a rest ha := by rw [if_neg ha.1, hx.run a rest ha.2]
  exact h := by
    obtain ⟨hp, h⟩ := Prog.guard_eq_ok.mp h
    obtain ⟨ha, hr⟩ := hx.exact h
    exact ⟨⟨hp, ha⟩, hr⟩

theorem congr {enc' : α → List UInt8} {valid' : α → Prop} (hx : Decodes x enc valid)
    (henc : ∀ a, enc a = enc' a) (hvalid : ∀ a, valid a ↔ valid' a) : Decodes x enc' valid' := by
  obtain rfl : enc = enc' := funext henc
  obtain rfl : valid = valid' := funext fun a => propext (hvalid a)
  exact hx

/-- A value represented by another one: `g` checks and converts what was read, `k` is the
representation `g` undoes. -/
theorem via (hx : Decodes x enc valid) {g : α → Except ε β} {k : β → α} {valid' : β → Prop}
    (hk : ∀ b, valid' b → valid (k b) ∧ g (k b) = .ok b)
    (hg : ∀ a b, valid a → g a = .ok b → valid' b ∧ k b = a) :
    Decodes (x >>= fun a => Prog.ofExcept (g a)) (fun b => enc (k b)) valid' where
  run b rest hb := by
    obtain ⟨hv, hgb⟩ := hk b hb
    rw [hx.bind_run hv, Prog.ofExcept_run, hgb]
  exact h := by
    obtain ⟨a, s, ha, hr, h⟩ := hx.bind_exact h
    obtain ⟨hga, rfl⟩ := Prod.mk.inj h
    obtain ⟨hb, hkb⟩ := hg a _ ha hga
    exact ⟨hb, by rw [hkb, hr]⟩

/-- A machine word read as `n` big-endian bytes. -/
theorem word {W : Type} {ofNat : ℕ → W} {toNat : W → ℕ} {x : Prog (List UInt8) ε (List UInt8)}
    (hx : Decodes x (fun v => v) fun v => v.length = n) (hlt : ∀ v, toNat v < 256 ^ n)
    (hof : ∀ v, ofNat (toNat v) = v) (hto : ∀ k < 256 ^ n, toNat (ofNat k) = k) :
    Decodes (x >>= fun b => Prog.ofExcept (.ok (ofNat (ofBeBytes b))))
      (fun v => beBytes n (toNat v)) fun _ => True := by
  refine hx.via (fun v _ => ⟨length_beBytes, ?_⟩) ?_
  · rw [ofBeBytes_beBytes (hlt v), hof]
  · intro a b ha hb
    cases hb
    rw [hto _ (ha ▸ ofBeBytes_lt a), ← ha]
    exact ⟨trivial, beBytes_ofBeBytes⟩

end Decodes

/-- Read `n` values in a row. -/
def readMany (x : Prog (List UInt8) ε α) : ℕ → Prog (List UInt8) ε (List α)
  | 0 => pure []
  | n + 1 => do
    let a ← x
    let as ← readMany x n
    pure (a :: as)

theorem Decodes.many {x : Prog (List UInt8) ε α} {enc : α → List UInt8} {valid : α → Prop}
    (hx : Decodes x enc valid) : ∀ n : ℕ,
      Decodes (readMany x n) (fun as => as.flatMap enc) fun as => as.length = n ∧ ∀ a ∈ as, valid a
  | 0 => {
      run := by
        rintro as rest ⟨hn, _⟩
        rw [eq_nil_of_length_eq_zero hn]
        rfl
      exact := by
        rintro r as r' h
        obtain ⟨rfl, rfl⟩ : as = [] ∧ r = r' := by simpa [readMany, eq_comm] using h
        simp }
  | n + 1 => {
      run := by
        rintro (_ | ⟨a, as⟩) rest ⟨hn, hv⟩
        · cases hn
        · obtain ⟨ha, has⟩ := forall_mem_cons.mp hv
          rw [flatMap_cons, append_assoc, readMany, hx.bind_run ha,
            (hx.many n).bind_run ⟨Nat.succ.inj hn, has⟩, Prog.pure_run]
      exact := by
        rintro r as r' h
        obtain ⟨a, s, ha, hr, h⟩ := hx.bind_exact h
        obtain ⟨as', s', has, hs, h⟩ := (hx.many n).bind_exact h
        obtain ⟨rfl, rfl⟩ : a :: as' = as ∧ s' = r' := by simpa using h
        refine ⟨⟨by simp [has.1], forall_mem_cons.mpr ⟨ha, has.2⟩⟩, ?_⟩
        rw [flatMap_cons, append_assoc, ← hs, ← hr] }

/-! ## Encoders -/

/-- The bytes written so far, within their bound. -/
@[ext] structure Buffer where
  bytes : List UInt8
  maximum : ℕ
  fits : bytes.length ≤ maximum

/-- The encoder `x` succeeds iff `ok` holds and `bytes` still fit, and then appends `bytes`: that
they fit is what the buffer after the call says of itself. -/
def Writes (x : Prog Buffer ε Unit) (bytes : List UInt8) (ok : Prop) : Prop :=
  ∀ b b', x b = (.ok (), b') ↔ ok ∧ b'.maximum = b.maximum ∧ b'.bytes = b.bytes ++ bytes

namespace Writes

variable {x y : Prog Buffer ε Unit} {bytes bytes' : List UInt8} {ok ok' : Prop}

theorem seq (hx : Writes x bytes ok) (hy : Writes y bytes' ok') :
    Writes (x >>= fun _ => y) (bytes ++ bytes') (ok ∧ ok') := by
  intro b b'
  rw [Prog.bind_eq_ok]
  constructor
  · rintro ⟨_, s, h1, h2⟩
    obtain ⟨hok, hm, hb⟩ := (hx b s).mp h1
    obtain ⟨hok', hm', hb'⟩ := (hy s b').mp h2
    rw [hb, append_assoc] at hb'
    exact ⟨⟨hok, hok'⟩, hm'.trans hm, hb'⟩
  · rintro ⟨⟨hok, hok'⟩, hm, hb⟩
    -- what fits after both writes fits after the first
    have hfits : (b.bytes ++ bytes).length ≤ b.maximum := by
      have hf := b'.fits
      rw [hm, hb, ← append_assoc, length_append] at hf
      omega
    refine ⟨(), ⟨b.bytes ++ bytes, b.maximum, hfits⟩, (hx b _).mpr ⟨hok, rfl, rfl⟩,
      (hy _ b').mpr ⟨hok', hm, ?_⟩⟩
    rw [hb, append_assoc]

theorem pure : Writes (Pure.pure () : Prog Buffer ε Unit) [] True := by
  intro b b'
  simp only [Prog.pure_run, Prod.mk.injEq, true_and, append_nil]
  constructor
  · rintro rfl
    exact ⟨rfl, rfl⟩
  · rintro ⟨hm, hb⟩
    exact Buffer.ext hb.symm hm.symm

theorem guarded {p : Prop} [Decidable p] {e : ε} (hx : Writes x bytes ok) :
    Writes (if p then Prog.throw e else x) bytes (¬p ∧ ok) := by
  intro b b'
  by_cases hp : p
  · simp [hp]
  · rw [if_neg hp, hx b b', and_assoc]
    simp [hp]

theorem congr (hx : Writes x bytes ok) (hb : bytes = bytes') (hok : ok ↔ ok') :
    Writes x bytes' ok' := by
  intro b b'
  rw [hx b b', hb, hok]

theorem forEach {f : α → Prog Buffer ε Unit} {enc : α → List UInt8} {valid : α → Prop}
    (hf : ∀ {a}, Writes (f a) (enc a) (valid a)) :
    ∀ as : List α, Writes (Prog.forEach as f) (as.flatMap enc) (∀ a ∈ as, valid a)
  | [] => pure.congr rfl (by simp)
  | a :: as => (hf.seq (forEach hf as)).congr rfl (by simp)

end Writes

end Oxiroute.Lib
