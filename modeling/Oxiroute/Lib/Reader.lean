import Oxiroute.Lib.Codec

/-!
# Readers of little-endian records

`Reads x bytes a ok` is the forward half of a codec: on an input that starts with `bytes` the reader
`x` succeeds just when `ok` holds, and then it returns `a` and leaves the rest. `Takes x P` is what
can be said backwards of a reader that is not exact (one that normalises what it reads): whatever it
returns, together with the number of bytes it consumed, satisfies `P`.
-/

namespace Oxiroute.Lib

open List

variable {ε α β : Type}

/-! ## Little-endian words -/

/-- The low `n` bytes of `v`, least significant first. -/
def leBytes (n v : ℕ) : List UInt8 := (beBytes n v).reverse

/-- The number a little-endian byte string stands for. -/
def ofLeBytes (bytes : List UInt8) : ℕ := ofBeBytes bytes.reverse

@[simp] theorem length_leBytes {n v : ℕ} : (leBytes n v).length = n := by
  rw [leBytes, length_reverse, length_beBytes]

variable {n v : ℕ} {ok : α → Prop}

theorem ofLeBytes_leBytes (h : v < 256 ^ n) : ofLeBytes (leBytes n v) = v := by
  rw [ofLeBytes, leBytes, reverse_reverse, ofBeBytes_beBytes h]

theorem ofLeBytes_lt (bytes : List UInt8) : ofLeBytes bytes < 256 ^ bytes.length := by
  have h := ofBeBytes_lt bytes.reverse
  rwa [length_reverse] at h

/-! ## Forwards -/

/-- On this input the reader `x` succeeds iff `ok` holds, and then returns `a` and leaves `rest`. -/
def ReadsAt (x : Prog (List UInt8) ε α) (input : List UInt8) (a : α) (rest : List UInt8)
    (ok : Prop) : Prop :=
  ∀ b rest', x input = (.ok b, rest') ↔ ok ∧ b = a ∧ rest' = rest

/-- On every input that starts with `bytes` the reader `x` succeeds iff `ok` holds, and then returns
`a` and leaves what follows. -/
def Reads (x : Prog (List UInt8) ε α) (bytes : List UInt8) (a : α) (ok : Prop) : Prop :=
  ∀ rest, ReadsAt x (bytes ++ rest) a rest ok

section

variable {x : Prog (List UInt8) ε α} {f : α → Prog (List UInt8) ε β} {bytes bytes' : List UInt8}
  {input mid rest : List UInt8} {a : α} {b : β} {p q : Prop}

theorem ReadsAt.of_run (h : x input = (.ok a, rest)) : ReadsAt x input a rest True := by
  intro b rest'
  rw [h, Prod.mk.injEq, Except.ok.injEq]
  simp [eq_comm]

theorem ReadsAt.bind (hx : ReadsAt x input a mid p) (hf : ReadsAt (f a) mid b rest q) :
    ReadsAt (x >>= f) input b rest (p ∧ q) := by
  intro c rest'
  rw [Prog.bind_eq_ok]
  constructor
  · rintro ⟨a', s, hxa, hfc⟩
    obtain ⟨hp, rfl, rfl⟩ := (hx a' s).mp hxa
    obtain ⟨hq, hc, hr⟩ := (hf c rest').mp hfc
    exact ⟨⟨hp, hq⟩, hc, hr⟩
  · rintro ⟨⟨hp, hq⟩, hc, hr⟩
    exact ⟨a, mid, (hx a mid).mpr ⟨hp, rfl, rfl⟩, (hf c rest').mpr ⟨hq, hc, hr⟩⟩

theorem ReadsAt.congr (hx : ReadsAt x input a rest p) (h : p ↔ q) : ReadsAt x input a rest q := by
  intro b rest'
  rw [hx b rest', h]

/-- What a reader can return on an input it reads. -/
theorem ReadsAt.fst_eq_ok (hx : ReadsAt x input a rest p) {b : α} :
    (x input).1 = .ok b ↔ p ∧ b = a := by
  constructor
  · intro h
    obtain ⟨hp, hb, _⟩ := (hx b _).mp (Prod.ext h rfl)
    exact ⟨hp, hb⟩
  · rintro ⟨hp, rfl⟩
    rw [(hx b rest).mpr ⟨hp, rfl, rfl⟩]

namespace Reads

theorem pure (a : α) : Reads (Pure.pure a : Prog (List UInt8) ε α) [] a True := fun _ => .of_run rfl

variable (hx : Reads x bytes a p)
include hx

theorem bind (hf : Reads (f a) bytes' b q) : Reads (x >>= f) (bytes ++ bytes') b (p ∧ q) := by
  intro rest
  rw [append_assoc]
  exact (hx _).bind (hf rest)

theorem congr (h : p ↔ q) : Reads x bytes a q := fun rest => (hx rest).congr h

/-- A reader followed by one that takes all that is left. -/
theorem bindAll (hf : ReadsAt (f a) bytes' b [] q) :
    ReadsAt (x >>= f) (bytes ++ bytes') b [] (p ∧ q) :=
  (hx bytes').bind hf

/-- A reader followed by a check that consumes nothing. -/
theorem check (hf : Reads (f a) [] b q) : Reads (x >>= f) bytes b (p ∧ q) := by
  have h := hx.bind hf
  rwa [append_nil] at h

/-- A reader followed by a conversion that consumes nothing and always succeeds. -/
theorem andThen (hf : Reads (f a) [] b True) : Reads (x >>= f) bytes b p :=
  (hx.check hf).congr (by simp)

omit hx

/-- A reader that always succeeds, followed by another. -/
theorem next (hx : Reads x bytes a True) (hf : Reads (f a) bytes' b q) :
    Reads (x >>= f) (bytes ++ bytes') b q :=
  (hx.bind hf).congr (by simp)

theorem nextAll (hx : Reads x bytes a True) (hf : ReadsAt (f a) bytes' b [] q) :
    ReadsAt (x >>= f) (bytes ++ bytes') b [] q :=
  (hx.bindAll hf).congr (by simp)

theorem skip (hx : Reads x [] a True) (hf : Reads (f a) bytes b q) : Reads (x >>= f) bytes b q :=
  hx.next hf

variable {e : ε} {c : Prop}

theorem okOr {o : Option α} (h : o = some a) :
    Reads (Prog.okOr o e : Prog (List UInt8) ε α) [] a True := by
  rw [h]
  exact pure a

theorem throw : Reads (Prog.throw e : Prog (List UInt8) ε α) bytes a False := by
  intro rest b rest'
  simp

theorem guard_of [Decidable c] (hx : ¬c → Reads x bytes a p) :
    Reads (if c then Prog.throw e else x) bytes a (¬c ∧ p) := by
  by_cases hc : c
  · rw [if_pos hc]
    exact throw.congr (by simp [hc])
  · rw [if_neg hc]
    exact (hx hc).congr (by simp [hc])

theorem guarded [Decidable c] (hx : Reads x bytes a p) :
    Reads (if c then Prog.throw e else x) bytes a (¬c ∧ p) :=
  guard_of fun _ => hx

end Reads

end

variable {x : Prog (List UInt8) ε α}

theorem Reads.many (enc : α → List UInt8) {l : List α} (hx : ∀ a ∈ l, Reads x (enc a) a (ok a)) :
    Reads (readMany x l.length) (l.flatMap enc) l (∀ a ∈ l, ok a) := by
  induction l with
  | nil => exact (Reads.pure []).congr (by simp)
  | cons a l ih =>
    have htail := ih fun b hb => hx b (mem_cons_of_mem a hb)
    have hrest : Reads (readMany x l.length >>= fun as => Pure.pure (a :: as)) (l.flatMap enc)
        (a :: l) (∀ b ∈ l, ok b) := htail.andThen (Reads.pure _)
    exact ((hx a mem_cons_self).bind hrest).congr forall_mem_cons.symm

/-! ## Backwards -/

/-- Whatever the reader `x` returns satisfies `P` with the number of bytes it consumed. -/
def Takes (x : Prog (List UInt8) ε α) (P : α → ℕ → Prop) : Prop :=
  ∀ r a r', x r = (.ok a, r') → ∃ n, r.length = n + r'.length ∧ P a n

namespace Takes

variable {x : Prog (List UInt8) ε α} {f : α → Prog (List UInt8) ε β} {P : α → ℕ → Prop}
  {Q : β → ℕ → Prop}

theorem pure {a : α} (h : P a 0) : Takes (Pure.pure a : Prog (List UInt8) ε α) P := by
  intro r b r' hx
  obtain ⟨ha, rfl⟩ := Prod.mk.inj hx
  cases ha
  exact ⟨0, by omega, h⟩

theorem okOr {o : Option α} {e : ε} (h : ∀ a, o = some a → P a 0) :
    Takes (Prog.okOr o e : Prog (List UInt8) ε α) P := by
  cases o with
  | none =>
    intro r a r' hx
    exact absurd (congrArg Prod.fst hx) (by simp)
  | some a => exact pure (h a rfl)

theorem bind (hx : Takes x P) (hf : ∀ a n, P a n → Takes (f a) fun b m => Q b (n + m)) :
    Takes (x >>= f) Q := by
  intro r b r'' h
  obtain ⟨a, r', hxa, hfb⟩ := Prog.bind_eq_ok.mp h
  obtain ⟨n, hn, ha⟩ := hx r a r' hxa
  obtain ⟨m, hm, hb⟩ := hf a n ha r' b r'' hfb
  exact ⟨n + m, by omega, hb⟩

theorem mono (hx : Takes x P) {R : α → ℕ → Prop} (h : ∀ a n, P a n → R a n) : Takes x R := by
  intro r a r' hxa
  obtain ⟨n, hn, ha⟩ := hx r a r' hxa
  exact ⟨n, hn, h a n ha⟩

theorem guarded {p : Prop} [Decidable p] {e : ε} (hx : ¬p → Takes x P) :
    Takes (if p then Prog.throw e else x) P := by
  intro r a r' h
  obtain ⟨hp, h⟩ := Prog.guard_eq_ok.mp h
  exact hx hp r a r' h

theorem throw {e : ε} : Takes (Prog.throw e : Prog (List UInt8) ε α) P := by
  intro r a r' h
  exact absurd (congrArg Prod.fst h) (by simp)

end Takes

/-- A reader run several times: the bytes of what it returned one after another. -/
theorem Takes.many (enc : α → List UInt8) (hx : Takes x fun a n => n = (enc a).length ∧ ok a) :
    ∀ k : ℕ,
      Takes (readMany x k) fun l n => n = (l.flatMap enc).length ∧ l.length = k ∧ ∀ a ∈ l, ok a
  | 0 => Takes.pure ⟨rfl, rfl, by simp⟩
  | k + 1 => by
    refine hx.bind fun a n ha => (Takes.many enc hx k).bind fun l m hl => Takes.pure ?_
    obtain ⟨rfl, ha⟩ := ha
    obtain ⟨rfl, hlen, hl⟩ := hl
    refine ⟨by simp, by simp [hlen], forall_mem_cons.mpr ⟨ha, hl⟩⟩

/-- Whenever the reader `x` succeeds, nothing is left. -/
def Finishes (x : Prog (List UInt8) ε α) : Prop := ∀ r a r', x r = (.ok a, r') → r' = []

theorem Finishes.bind {f : α → Prog (List UInt8) ε β} (hf : ∀ a, Finishes (f a)) :
    Finishes (x >>= f) := by
  intro r b r'' h
  obtain ⟨a, r', _, hfb⟩ := Prog.bind_eq_ok.mp h
  exact hf a r' b r'' hfb

theorem Finishes.andPure (hx : Finishes x) {g : α → β} :
    Finishes (x >>= fun a => Pure.pure (g a)) := by
  intro r b r'' h
  obtain ⟨a, r', hxa, hp⟩ := Prog.bind_eq_ok.mp h
  obtain ⟨_, rfl⟩ := Prod.mk.inj hp
  exact hx r a r' hxa

/-! ## The primitive reader -/

/-- The next `n` bytes, or the error `e` when there are fewer. -/
def takeBytes (e : ε) (n : ℕ) : Prog (List UInt8) ε (List UInt8) :=
  ⟨fun r => if r.length < n then (.error e, r) else (.ok (r.take n), r.drop n)⟩

theorem reads_takeBytes (e : ε) (v : List UInt8) : Reads (takeBytes e v.length) v v True := by
  intro rest
  refine .of_run ?_
  have hlen : ¬(v ++ rest).length < v.length := by simp
  change (if (v ++ rest).length < v.length then _ else _) = _
  rw [if_neg hlen, take_left, drop_left]

theorem takes_takeBytes (e : ε) (n : ℕ) :
    Takes (takeBytes e n) fun v m => v.length = n ∧ m = n := by
  intro r v r' h
  change (if r.length < n then (Except.error e, r) else (.ok (r.take n), r.drop n)) = _ at h
  split_ifs at h with hlt
  · exact absurd (congrArg Prod.fst h) (by simp)
  · obtain ⟨hv, rfl⟩ := Prod.mk.inj h
    cases hv
    refine ⟨n, ?_, ?_, rfl⟩
    · rw [length_drop]
      omega
    · rw [length_take]
      omega

/-- An `n`-byte little-endian word. -/
def readWord (e : ε) (n : ℕ) : Prog (List UInt8) ε ℕ := do
  let bytes ← takeBytes e n
  pure (ofLeBytes bytes)

theorem reads_readWord {e : ε} (h : v < 256 ^ n) : Reads (readWord e n) (leBytes n v) v True := by
  have hread := reads_takeBytes e (leBytes n v)
  rw [length_leBytes] at hread
  refine hread.andThen ?_
  rw [ofLeBytes_leBytes h]
  exact Reads.pure v

theorem takes_readWord {e : ε} : Takes (readWord e n) fun v m => v < 256 ^ n ∧ m = n := by
  refine (takes_takeBytes e n).bind ?_
  rintro bytes m ⟨hlen, rfl⟩
  have hlt := ofLeBytes_lt bytes
  rw [hlen] at hlt
  exact Takes.pure ⟨hlt, rfl⟩

end Oxiroute.Lib
