import Oxiroute.Http.Header

/-!
# HTTP paths

Model of `canonicalize_http_path` of `oxiroute-config/src/lexical.rs`. `Escaped` relates a path that
passes the loop over its percent-triplets to its canonical form and to the bytes it stands for. No
triplet stands for a separator, a dot or a backslash, so the checks made on the path as it is
written hold of what an upstream decodes (`Escaped.ambiguous_eq`), and they hold of the canonical
form.
-/

namespace Oxiroute.Config

open Lib Http

/-- `u8::to_ascii_uppercase`. -/
def toAsciiUppercase (b : UInt8) : UInt8 := if 97 ≤ b ∧ b ≤ 122 then b - 32 else b

def hexNibble (value : UInt8) : Option UInt8 :=
  if 48 ≤ value ∧ value ≤ 57 then some (value - 48)
  else if 97 ≤ value ∧ value ≤ 102 then some (value - 97 + 10)
  else if 65 ≤ value ∧ value ≤ 70 then some (value - 65 + 10)
  else none

def decodeHexByte (high low : UInt8) : Option UInt8 := do
  let high ← hexNibble high
  let low ← hexNibble low
  some (high <<< 4 ||| low)

/-- A byte that must not be written as a percent-triplet. -/
def unescaped (encoded : UInt8) : Bool :=
  isAsciiAlphabetic encoded || isAsciiDigit encoded || (utf8Bytes "-._~/\\").contains encoded

/-- The loop over the bytes of a path: whether a digit was lower-case, and the canonical bytes. -/
def escapes : Bytes → Option (Bool × Bytes)
  | [] => some (false, [])
  | b :: rest =>
    if b ≠ 37 then (escapes rest).map fun (changed, canonical) => (changed, b :: canonical)
    else
      match rest with
      | high :: low :: rest => do
        let encoded ← decodeHexByte high low
        if unescaped encoded then none
        else
          let (changed, canonical) ← escapes rest
          some (changed || high != toAsciiUppercase high || low != toAsciiUppercase low,
            b :: toAsciiUppercase high :: toAsciiUppercase low :: canonical)
      | _ => none

/-- `bytes.windows(2).any(|window| window == b"//")`. -/
def repeatsSeparator (bytes : Bytes) : Bool := (bytes.zip bytes.tail).contains (47, 47)

/-- The checks that are made before the loop. -/
def ambiguous (bytes : Bytes) : Bool :=
  bytes.contains 92 || repeatsSeparator bytes ||
    (splitAt 47 bytes).any fun segment => segment == [46] || segment == [46, 46]

def canonicalizeHttpPath (path : String) : Option String :=
  if ambiguous (utf8Bytes path) then none
  else do
    let (changed, canonical) ← escapes (utf8Bytes path)
    if changed then fromUtf8 canonical else some path

/-- What a path stands for: every percent-triplet is replaced by its byte. -/
def percentDecode : Bytes → Bytes
  | 37 :: high :: low :: rest =>
    match decodeHexByte high low with
    | some encoded => encoded :: percentDecode rest
    | none => 37 :: percentDecode (high :: low :: rest)
  | b :: rest => b :: percentDecode rest
  | [] => []

/-! ## Paths with their escapes -/

/-- A path, its canonical form and what it stands for. -/
inductive Escaped : Bytes → Bytes → Bytes → Prop
  | nil : Escaped [] [] []
  | literal {b : UInt8} {p q d : Bytes} (hb : b ≠ 37) (h : Escaped p q d) :
      Escaped (b :: p) (b :: q) (b :: d)
  | triplet {high low e : UInt8} {p q d : Bytes} (he : decodeHexByte high low = some e)
      (hu : unescaped e = false) (h : Escaped p q d) :
      Escaped (37 :: high :: low :: p) (37 :: toAsciiUppercase high :: toAsciiUppercase low :: q)
        (e :: d)

variable {p q d : Bytes} {b e high low : UInt8}

theorem hexNibble_upper : hexNibble (toAsciiUppercase b) = hexNibble b := by
  unfold hexNibble toAsciiUppercase
  grind

theorem decodeHexByte_upper :
    decodeHexByte (toAsciiUppercase high) (toAsciiUppercase low) = decodeHexByte high low := by
  rw [decodeHexByte, hexNibble_upper, hexNibble_upper, decodeHexByte]

theorem upper_upper : toAsciiUppercase (toAsciiUppercase b) = toAsciiUppercase b := by
  grind [toAsciiUppercase]

theorem hexNibble_special : ∀ b ∈ [46, 47, 92], hexNibble b = none := by
  rw [List.forall_mem_cons, List.forall_mem_cons, List.forall_mem_singleton]
  decide

theorem decodeHexByte_special (he : decodeHexByte high low = some e) (hb : b ∈ [46, 47, 92]) :
    high ≠ b ∧ low ≠ b := by
  obtain ⟨x, hx, y, hy, -⟩ : ∃ x, hexNibble high = some x ∧ ∃ y, hexNibble low = some y ∧ _ := by
    simpa [decodeHexByte, Option.bind_eq_some_iff] using he
  have hnone := hexNibble_special b hb
  constructor
  · rintro rfl
    cases hnone.symm.trans hx
  · rintro rfl
    cases hnone.symm.trans hy

theorem unescaped_special (hu : unescaped e = false) (hb : b ∈ [46, 47, 92]) : e ≠ b := by
  rintro rfl
  have hspecial : ∀ b ∈ [46, 47, 92], unescaped b = true := by
    rw [List.forall_mem_cons, List.forall_mem_cons, List.forall_mem_singleton]
    decide
  cases hu.symm.trans (hspecial e hb)

theorem escapes_escaped {changed : Bool} (h : escapes p = some (changed, q)) :
    ∃ d, Escaped p q d ∧ (changed = false → q = p) := by
  fun_induction escapes p generalizing changed q with
  | case1 =>
    cases h
    exact ⟨[], .nil, fun _ => rfl⟩
  | case2 b rest hb ih =>
    obtain ⟨⟨c, r⟩, hr, heq⟩ := Option.map_eq_some_iff.mp h
    cases heq
    obtain ⟨d, hd, hsame⟩ := ih hr
    exact ⟨b :: d, .literal hb hd, fun hc => congrArg _ (hsame hc)⟩
  | case3 b hb high low rest ih =>
    obtain ⟨e, he, h⟩ := Option.bind_eq_some_iff.mp h
    obtain rfl : b = 37 := not_not.mp hb
    split_ifs at h with hu
    obtain ⟨⟨c, r⟩, hr, heq⟩ := Option.bind_eq_some_iff.mp h
    cases heq
    obtain ⟨d, hd, hsame⟩ := ih hr
    refine ⟨e :: d, .triplet he (Bool.eq_false_iff.mpr hu) hd, fun hc => ?_⟩
    simp only [Bool.or_eq_false_iff, bne_eq_false_iff_eq] at hc
    rw [← hc.1.2, ← hc.2, hsame hc.1.1]
  | case4 => cases h

/-- A path that is canonical passes the loop unchanged. -/
theorem Escaped.escapes_eq (h : Escaped p q d) (hq : q = p) : escapes p = some (false, p) := by
  induction h with
  | nil => rfl
  | literal hb h ih =>
    rw [escapes.eq_def]
    simp [hb, ih (List.tail_eq_of_cons_eq hq)]
  | triplet he hu h ih =>
    simp only [List.cons.injEq, true_and] at hq
    obtain ⟨hhigh, hlow, hq⟩ := hq
    rw [escapes.eq_def]
    simp [he, hu, hhigh, hlow, ih hq]

theorem Escaped.canonical (h : Escaped p q d) : Escaped q q d := by
  induction h with
  | nil => exact .nil
  | literal hb h ih => exact .literal hb ih
  | triplet he hu h ih =>
    have hupper := Escaped.triplet (decodeHexByte_upper.trans he) hu ih
    rwa [upper_upper, upper_upper] at hupper

theorem Escaped.length (h : Escaped p q d) : q.length = p.length := by
  induction h with
  | nil => rfl
  | literal hb h ih | triplet he hu h ih => simp [ih]

theorem Escaped.decode (h : Escaped p q d) : percentDecode p = d := by
  induction h with
  | nil => rfl
  | literal hb h ih =>
    rw [percentDecode, ih]
    exact fun _ _ _ h37 => absurd h37 hb
  | triplet he hu h ih => rw [percentDecode, he, ih]

theorem Escaped.plain (h : Escaped p q d) (hdots : (∀ x ∈ p, x = 46) ∨ ∀ x ∈ d, x = 46) :
    p = d := by
  induction h with
  | nil => rfl
  | literal hb h ih =>
    simp only [List.forall_mem_cons] at hdots
    rw [ih (hdots.imp And.right And.right)]
  | triplet he hu h ih =>
    simp only [List.forall_mem_cons] at hdots
    rcases hdots with hdots | hdots
    · exact absurd hdots.1 (by decide)
    · exact absurd hdots.1 (unescaped_special hu (by decide))

theorem Escaped.mem_iff (h : Escaped p q d) (hb : b ∈ [46, 47, 92]) : b ∈ p ↔ b ∈ d := by
  induction h with
  | nil => exact .rfl
  | literal _ h ih => rw [List.mem_cons, List.mem_cons, ih]
  | @triplet high low e p q d he hu h ih =>
    have hdigits := decodeHexByte_special he hb
    have hbyte := unescaped_special hu hb
    have hpercent : b ≠ 37 := by
      rintro rfl
      revert hb
      decide
    simp [ih, hpercent, hdigits.1.symm, hdigits.2.symm, hbyte.symm]

theorem Escaped.head (h : Escaped p q d) : p.head? = some 47 ↔ d.head? = some 47 := by
  cases h with
  | nil | literal _ _ => exact .rfl
  | triplet he hu _ => simpa using unescaped_special hu (by decide)

theorem repeatsSeparator_cons : repeatsSeparator (b :: p) =
    (decide (b = 47 ∧ p.head? = some 47) || repeatsSeparator p) := by
  cases p <;> simp [repeatsSeparator, eq_comm]

theorem Escaped.repeats (h : Escaped p q d) : repeatsSeparator p = repeatsSeparator d := by
  induction h with
  | nil => rfl
  | literal hb h ih => simp [repeatsSeparator_cons, ih, h.head]
  | @triplet high low e p q d he hu h ih =>
    have hdigits := decodeHexByte_special he (show (47 : UInt8) ∈ _ by decide)
    have hbyte := unescaped_special hu (show (47 : UInt8) ∈ _ by decide)
    simp [repeatsSeparator_cons, hdigits.1, hdigits.2, hbyte, ih]

theorem exists_splitAt (sep : UInt8) (p : Bytes) : ∃ s ss, splitAt sep p = s :: ss := by
  cases p with
  | nil => exact ⟨[], [], rfl⟩
  | cons b p =>
    rw [splitAt]
    split_ifs
    · exact ⟨_, _, rfl⟩
    · split <;> exact ⟨_, _, rfl⟩

theorem splitAt_cons {sep : UInt8} {s : Bytes} {ss : List Bytes} (hb : b ≠ sep)
    (h : splitAt sep p = s :: ss) : splitAt sep (b :: p) = (b :: s) :: ss := by
  rw [splitAt, if_neg hb, h]

/-- **Segments**: the segments of what a path stands for are what its segments stand for. -/
theorem Escaped.split (h : Escaped p q d) :
    List.Forall₂ (fun s t => ∃ r, Escaped s r t) (splitAt 47 p) (splitAt 47 d) := by
  induction h with
  | nil => exact .cons ⟨[], .nil⟩ .nil
  | @literal b p q d hb h ih =>
    by_cases hsep : b = 47
    · rw [splitAt, if_pos hsep, splitAt, if_pos hsep]
      exact .cons ⟨[], .nil⟩ ih
    · obtain ⟨s, ss, hs⟩ := exists_splitAt 47 p
      obtain ⟨t, ts, ht⟩ := exists_splitAt 47 d
      rw [hs, ht] at ih
      rw [splitAt_cons hsep hs, splitAt_cons hsep ht]
      obtain ⟨⟨r, hr⟩, hrest⟩ := List.forall₂_cons.mp ih
      exact .cons ⟨_, .literal hb hr⟩ hrest
  | @triplet high low e p q d he hu h ih =>
    obtain ⟨s, ss, hs⟩ := exists_splitAt 47 p
    obtain ⟨t, ts, ht⟩ := exists_splitAt 47 d
    have hdigits := decodeHexByte_special he (show (47 : UInt8) ∈ _ by decide)
    rw [hs, ht] at ih
    rw [splitAt_cons (by decide) (splitAt_cons hdigits.1 (splitAt_cons hdigits.2 hs)),
      splitAt_cons (unescaped_special hu (by decide)) ht]
    obtain ⟨⟨r, hr⟩, hrest⟩ := List.forall₂_cons.mp ih
    exact .cons ⟨_, .triplet he hu hr⟩ hrest

theorem Escaped.map_decode (h : Escaped p q d) :
    (splitAt 47 p).map percentDecode = splitAt 47 d := by
  have heq : List.Forall₂ (· = ·) ((splitAt 47 p).map percentDecode) (splitAt 47 d) := by
    refine List.forall₂_map_left_iff.mpr (h.split.imp fun s t ⟨r, hr⟩ => hr.decode)
  exact List.forall₂_eq_eq_eq ▸ heq

theorem Escaped.dots_iff (h : Escaped p q d) {dots : Bytes} (hdots : ∀ x ∈ dots, x = 46) :
    dots ∈ splitAt 47 p ↔ dots ∈ splitAt 47 d := by
  have hsplit := h.split
  generalize splitAt 47 p = ps, splitAt 47 d = ds at hsplit
  induction hsplit with
  | nil => exact .rfl
  | @cons s t ps ds hst _ ih =>
    obtain ⟨r, hr⟩ := hst
    have hhead : dots = s ↔ dots = t :=
      ⟨fun hs => hs.trans (hr.plain (.inl (hs ▸ hdots))),
        fun ht => ht.trans (hr.plain (.inr (ht ▸ hdots))).symm⟩
    rw [List.mem_cons, List.mem_cons]
    exact or_congr hhead ih

/-! ## Safe paths -/

theorem ambiguous_iff : ambiguous p = true ↔
    92 ∈ p ∨ repeatsSeparator p = true ∨ [46] ∈ splitAt 47 p ∨ [46, 46] ∈ splitAt 47 p := by
  simp only [ambiguous, Bool.or_eq_true, List.contains_iff_mem, List.any_eq_true, beq_iff_eq]
  grind

/-- The checks hold of a path iff they hold of what it stands for. -/
theorem Escaped.ambiguous_eq (h : Escaped p q d) : ambiguous p = ambiguous d := by
  rw [Bool.eq_iff_iff, ambiguous_iff, ambiguous_iff, h.mem_iff (by decide), h.repeats,
    h.dots_iff (by simp), h.dots_iff (by simp)]

theorem canonicalizeHttpPath_escaped {path canonical : String}
    (h : canonicalizeHttpPath path = some canonical) :
    ambiguous (utf8Bytes path) = false ∧ ∃ d, Escaped (utf8Bytes path) (utf8Bytes canonical) d := by
  unfold canonicalizeHttpPath at h
  split_ifs at h with hclear
  obtain ⟨⟨changed, bytes⟩, hescapes, h⟩ := Option.bind_eq_some_iff.mp h
  obtain ⟨d, hd, hsame⟩ := escapes_escaped hescapes
  refine ⟨Bool.eq_false_iff.mpr hclear, d, ?_⟩
  cases changed with
  | true => rwa [fromUtf8_eq_some.mp h]
  | false =>
    cases h
    rwa [hsame rfl] at hd

theorem Escaped.canonicalize {path : String} (h : Escaped (utf8Bytes path) (utf8Bytes path) d)
    (hd : ambiguous d = false) : canonicalizeHttpPath path = some path := by
  rw [canonicalizeHttpPath, h.ambiguous_eq, hd, h.escapes_eq rfl]
  rfl

theorem of_mem_splitAt {sep : UInt8} {s : Bytes} (hs : s ∈ splitAt sep p) :
    ∀ x ∈ s, x ≠ sep ∧ x ∈ p := by
  induction p generalizing s with
  | nil => simp_all [splitAt]
  | cons b p ih =>
    have hlift : ∀ {s}, s ∈ splitAt sep p → ∀ x ∈ s, x ≠ sep ∧ x ∈ b :: p := fun hs x hx =>
      (ih hs x hx).imp_right (List.mem_cons_of_mem b)
    by_cases hb : b = sep
    · rw [splitAt, if_pos hb] at hs
      rcases List.mem_cons.mp hs with rfl | hs
      · simp
      · exact hlift hs
    · obtain ⟨u, us, hu⟩ := exists_splitAt sep p
      rw [hu] at hlift
      rw [splitAt_cons hb hu] at hs
      rcases List.mem_cons.mp hs with rfl | hs
      · exact List.forall_mem_cons.mpr ⟨⟨hb, List.mem_cons_self⟩, hlift List.mem_cons_self⟩
      · exact hlift (List.mem_cons_of_mem _ hs)

theorem nil_notMem_splitAt (h : repeatsSeparator p = false) :
    [] ∉ (splitAt 47 p).tail.dropLast := by
  induction p with
  | nil => simp [splitAt]
  | cons b p ih =>
    rw [repeatsSeparator_cons, Bool.or_eq_false_iff] at h
    obtain ⟨u, us, hu⟩ := exists_splitAt 47 p
    have hrest := ih h.2
    rw [hu] at hrest
    by_cases hb : b = 47
    · rw [splitAt, if_pos hb, List.tail_cons, hu]
      cases us with
      | nil => simp
      | cons v vs =>
        rw [List.dropLast_cons_cons, List.mem_cons, not_or]
        refine ⟨?_, hrest⟩
        -- an empty segment that is not the last begins with the next separator
        rintro rfl
        cases p with
        | nil => simp [splitAt] at hu
        | cons c p =>
          have hc : c ≠ 47 := by simpa [hb] using h.1
          obtain ⟨w, ws, hw⟩ := exists_splitAt 47 p
          rw [splitAt_cons hc hw] at hu
          cases hu
    · rw [splitAt_cons hb hu]
      exact hrest

/-- **Canonical paths are safe.** The canonical form of a path is its own, is as long and stands for
the same bytes; and no segment of what it stands for is `.` or `..`, has a separator or a backslash,
or is empty between two others. -/
theorem canonicalizeHttpPath_safe (path canonical : String)
    (h : canonicalizeHttpPath path = some canonical) :
    let segments := (splitAt 47 (utf8Bytes path)).map percentDecode
    canonicalizeHttpPath canonical = some canonical ∧
    (utf8Bytes canonical).length = (utf8Bytes path).length ∧
    percentDecode (utf8Bytes canonical) = percentDecode (utf8Bytes path) ∧
    segments = splitAt 47 (percentDecode (utf8Bytes path)) ∧
    (∀ s ∈ segments, s ≠ [46] ∧ s ≠ [46, 46] ∧ 47 ∉ s ∧ 92 ∉ s) ∧ [] ∉ segments.tail.dropLast := by
  intro segments
  obtain ⟨hclear, d, hd⟩ := canonicalizeHttpPath_escaped h
  rw [hd.ambiguous_eq] at hclear
  have hsafe := ambiguous_iff.not.mp (Bool.eq_false_iff.mp hclear)
  push Not at hsafe
  have hsegments : segments = splitAt 47 d := hd.map_decode
  rw [hsegments, hd.decode]
  refine ⟨hd.canonical.canonicalize hclear, hd.length, hd.canonical.decode, rfl, fun s hs => ?_,
    nil_notMem_splitAt (Bool.eq_false_iff.mpr hsafe.2.1)⟩
  refine ⟨?_, ?_, fun hx => (of_mem_splitAt hs 47 hx).1 rfl,
    fun hx => hsafe.1 (of_mem_splitAt hs 92 hx).2⟩
  · rintro rfl
    exact hsafe.2.2.1 hs
  · rintro rfl
    exact hsafe.2.2.2 hs

/-- A path with a lower-case triplet. -/
theorem canonicalizeHttpPath_safe_triplet :
    canonicalizeHttpPath "/a%c3%A9/" = some "/a%C3%A9/" ∧
    canonicalizeHttpPath "/a%C3%A9/" = some "/a%C3%A9/" := by
  have h : canonicalizeHttpPath "/a%c3%A9/" = some "/a%C3%A9/" := by
    change fromUtf8 (utf8Bytes "/a%C3%A9/") = _
    exact fromUtf8_eq_some.mpr rfl
  exact ⟨h, (canonicalizeHttpPath_safe _ _ h).1⟩

end Oxiroute.Config
