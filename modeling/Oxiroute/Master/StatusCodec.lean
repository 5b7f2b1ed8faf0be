import Mathlib.Data.List.Chain
import Oxiroute.Master.Status

/-!
# The worker status codec is exact

Both sides of the codec of `status.rs` are described by one pure encoding, `statusBytes`:

* `encodeStatus_eq_ok`: `encode_status` succeeds iff the status meets its limits (`StatusFits`),
  and returns its encoding;
* `decodeStatus_eq_ok`: `decode_status` accepts a frame iff its payload is the encoding of a
  status within the same limits whose event cursors increase up to the announced one.

The encodings of the parts are put together in the order both sides process the fields.
-/

namespace Oxiroute.Master

open Lib Prog Supervision List

/-! ## The encoding -/

def optionalBytes {α : Type} (enc : α → List UInt8) : Option α → List UInt8
  | some value => [1] ++ enc value
  | none => [0]

def stringBytes (value : String) : List UInt8 :=
  beBytes 2 (utf8Bytes value).length ++ utf8Bytes value

/-- A string within `MAX_STATUS_STRING_BYTES`. -/
def StringFits (value : String) : Prop := (utf8Bytes value).length ≤ maxStatusStringBytes

def optionalStringBytes : Option String → List UInt8 := optionalBytes stringBytes

/-- An optional string within the bound. -/
def OptionalFits (value : Option String) : Prop := ∀ s ∈ value, StringFits s

def wordBytes (value : UInt64) : List UInt8 := beBytes 8 value.toNat

def flagBytes (value : Bool) : List UInt8 := [value.toUInt8]

def generationBytes (g : WorkerGenerationStatus) : List UInt8 :=
  optionalStringBytes g.diskRevision ++ (optionalStringBytes g.candidateRevision ++
    (optionalStringBytes g.activeRevision ++ (optionalStringBytes g.previousRevision ++
      (optionalStringBytes g.quarantinedRevision ++ (flagBytes g.activeAccepting ++
        (flagBytes g.degraded ++ (optionalStringBytes g.lastFailure ++ (wordBytes g.prepares ++
          (wordBytes g.activations ++ (wordBytes g.failures ++ wordBytes g.rollbacks))))))))))

structure GenerationFits (g : WorkerGenerationStatus) : Prop where
  diskRevision : OptionalFits g.diskRevision
  candidateRevision : OptionalFits g.candidateRevision
  activeRevision : OptionalFits g.activeRevision
  previousRevision : OptionalFits g.previousRevision
  quarantinedRevision : OptionalFits g.quarantinedRevision
  lastFailure : OptionalFits g.lastFailure

theorem generationFits_iff {g : WorkerGenerationStatus} : GenerationFits g ↔
    OptionalFits g.diskRevision ∧ OptionalFits g.candidateRevision ∧ OptionalFits g.activeRevision ∧
      OptionalFits g.previousRevision ∧ OptionalFits g.quarantinedRevision ∧
        OptionalFits g.lastFailure :=
  ⟨fun ⟨h1, h2, h3, h4, h5, h6⟩ => ⟨h1, h2, h3, h4, h5, h6⟩,
    fun ⟨h1, h2, h3, h4, h5, h6⟩ => ⟨h1, h2, h3, h4, h5, h6⟩⟩

def metricsBytes (m : WorkerMetrics) : List UInt8 :=
  wordBytes m.acceptedConnections ++ (wordBytes m.rejectedConnections ++
    (wordBytes m.activeConnections ++ (wordBytes m.bytesReceived ++ wordBytes m.bytesSent)))

def listenerBytes (l : WorkerListenerStatus) : List UInt8 :=
  stringBytes l.name ++ (stringBytes l.protocol ++ (stringBytes l.bind ++
    ([encodeAdministrativeState l.administrativeState] ++ ([encodeListenerState l.state] ++
      (wordBytes l.acceptedConnections ++ (wordBytes l.rejectedConnections ++
        (wordBytes l.activeConnections ++ (wordBytes l.bytesReceived ++
          wordBytes l.bytesSent))))))))

structure ListenerFits (l : WorkerListenerStatus) : Prop where
  name : StringFits l.name
  protocol : StringFits l.protocol
  bind : StringFits l.bind

theorem listenerFits_iff {l : WorkerListenerStatus} :
    ListenerFits l ↔ StringFits l.name ∧ StringFits l.protocol ∧ StringFits l.bind :=
  ⟨fun ⟨h1, h2, h3⟩ => ⟨h1, h2, h3⟩, fun ⟨h1, h2, h3⟩ => ⟨h1, h2, h3⟩⟩

def eventBytes (e : WorkerEventRecord) : List UInt8 :=
  wordBytes e.cursor ++ (optionalBytes wordBytes e.timestampUnixMs ++ (stringBytes e.event ++
    (stringBytes e.outcome ++ (optionalStringBytes e.revision ++
      (optionalStringBytes e.certificate ++ (optionalStringBytes e.correlationId ++
        (optionalStringBytes e.source ++ optionalStringBytes e.operation)))))))

/-- An event with a cursor, whose strings fit. -/
structure EventFits (e : WorkerEventRecord) : Prop where
  cursor : e.cursor ≠ 0
  event : StringFits e.event
  outcome : StringFits e.outcome
  revision : OptionalFits e.revision
  certificate : OptionalFits e.certificate
  correlationId : OptionalFits e.correlationId
  source : OptionalFits e.source
  operation : OptionalFits e.operation

theorem eventFits_iff {e : WorkerEventRecord} : EventFits e ↔
    e.cursor ≠ 0 ∧ StringFits e.event ∧ StringFits e.outcome ∧ OptionalFits e.revision ∧
      OptionalFits e.certificate ∧ OptionalFits e.correlationId ∧ OptionalFits e.source ∧
        OptionalFits e.operation :=
  ⟨fun ⟨h0, h1, h2, h3, h4, h5, h6, h7⟩ => ⟨h0, h1, h2, h3, h4, h5, h6, h7⟩,
    fun ⟨h0, h1, h2, h3, h4, h5, h6, h7⟩ => ⟨h0, h1, h2, h3, h4, h5, h6, h7⟩⟩

def statusBytes (s : WorkerStatus) : List UInt8 :=
  beBytes 2 statusFormatVersion.toNat ++ (beBytes 2 controlProtocolVersion.toNat ++
    (wordBytes s.sequence ++ (wordBytes s.generationId ++ ([encodeLifecycle s.lifecycle] ++
      ([statusFlags s] ++ ([encodeAdministrativeState s.administrativeState] ++
        (generationBytes s.generation ++ (optionalBytes metricsBytes s.metrics ++
          (beBytes 2 s.listeners.length ++ (s.listeners.flatMap listenerBytes ++
            (optionalStringBytes s.degradation ++ (wordBytes s.eventCursor ++
              (flagBytes s.eventCursorLost ++ (beBytes 2 s.events.length ++
                s.events.flatMap eventBytes))))))))))))))

/-- A status within the limits of the protocol. -/
structure StatusFits (s : WorkerStatus) : Prop where
  sequence : s.sequence ≠ 0
  listenerCount : s.listeners.length ≤ maxStatusListeners
  eventCount : s.events.length ≤ maxStatusEvents
  generation : GenerationFits s.generation
  listeners : ∀ l ∈ s.listeners, ListenerFits l
  degradation : OptionalFits s.degradation
  events : ∀ e ∈ s.events, EventFits e

/-! ## The encoder writes it -/

section write

open Supervision.BoundedWireWriter

theorem encodeString_writes {value : String} :
    Writes (encodeString value) (stringBytes value) (StringFits value) := by
  unfold encodeString StringFits
  by_cases h : maxStatusStringBytes < (utf8Bytes value).length
  · intro w w'
    simp only [if_pos h, throw_run, Prod.mk.injEq, reduceCtorEq, false_and, false_iff]
    omega
  · have hlen := UInt16.toNat_ofNat_of_lt' (lt_of_le_of_lt (not_lt.mp h) (by decide))
    rw [if_neg h]
    refine (u16_writes.seq (bytes_writes _)).congr ?_ ?_
    · rw [hlen]
      rfl
    · simpa using h

theorem encodeOptional_writes {α : Type} {encode : α → StatusEncode} {enc : α → List UInt8}
    {valid : α → Prop} (h : ∀ {a}, Writes (encode a) (enc a) (valid a)) {value : Option α} :
    Writes (encodeOptional encode value) (optionalBytes enc value) (∀ a ∈ value, valid a) := by
  cases value with
  | none => exact u8_writes.congr rfl (by simp)
  | some value => exact (u8_writes.seq h).congr rfl (by simp)

theorem encodeOptionalString_writes {value : Option String} :
    Writes (encodeOptionalString value) (optionalStringBytes value) (OptionalFits value) :=
  encodeOptional_writes encodeString_writes

theorem encodeFlag_writes {value : Bool} :
    Writes (encodeFlag value) (flagBytes value) True := u8_writes

theorem encodeGeneration_writes {g : WorkerGenerationStatus} :
    Writes (encodeGeneration g) (generationBytes g) (GenerationFits g) := by
  refine ((encodeOptionalString_writes.seq (encodeOptionalString_writes.seq
    (encodeOptionalString_writes.seq (encodeOptionalString_writes.seq
    (encodeOptionalString_writes.seq (encodeFlag_writes.seq (encodeFlag_writes.seq
    (encodeOptionalString_writes.seq (u64_writes.seq (u64_writes.seq (u64_writes.seq
    u64_writes)))))))))))).congr rfl ?_
  simp [generationFits_iff]

theorem encodeMetrics_writes {m : WorkerMetrics} : Writes (encodeMetrics m) (metricsBytes m) True :=
  (u64_writes.seq (u64_writes.seq (u64_writes.seq (u64_writes.seq u64_writes)))).congr rfl (by simp)

theorem encodeListener_writes {l : WorkerListenerStatus} :
    Writes (encodeListener l) (listenerBytes l) (ListenerFits l) := by
  refine ((encodeString_writes.seq (encodeString_writes.seq
    (encodeString_writes.seq (u8_writes.seq (u8_writes.seq (u64_writes.seq (u64_writes.seq
    (u64_writes.seq (u64_writes.seq u64_writes)))))))))).congr rfl ?_
  simp [listenerFits_iff]

theorem encodeEvent_writes {e : WorkerEventRecord} :
    Writes (encodeEvent e) (eventBytes e) (EventFits e) := by
  refine (Writes.guarded (u64_writes.seq
    ((encodeOptional_writes u64_writes).seq (encodeString_writes.seq
    (encodeString_writes.seq (encodeOptionalString_writes.seq (encodeOptionalString_writes.seq
    (encodeOptionalString_writes.seq (encodeOptionalString_writes.seq
    encodeOptionalString_writes))))))))).congr rfl ?_
  simp [eventFits_iff]

theorem count_toNat {n : ℕ} (h : n ≤ 64) : (UInt16.ofNat n).toNat = n :=
  UInt16.toNat_ofNat_of_lt' (lt_of_le_of_lt h (by decide))

theorem encodeStatusBody_writes {s : WorkerStatus} (hl : s.listeners.length ≤ maxStatusListeners)
    (he : s.events.length ≤ maxStatusEvents) : Writes (encodeStatusBody s) (statusBytes s)
      (GenerationFits s.generation ∧ (∀ l ∈ s.listeners, ListenerFits l) ∧
        OptionalFits s.degradation ∧ ∀ e ∈ s.events, EventFits e) := by
  refine (u16_writes.seq (u16_writes.seq (u64_writes.seq
    (u64_writes.seq (u8_writes.seq (u8_writes.seq (u8_writes.seq (encodeGeneration_writes.seq
    ((encodeOptional_writes encodeMetrics_writes).seq (u16_writes.seq
    ((Writes.forEach encodeListener_writes _).seq (encodeOptionalString_writes.seq
    (u64_writes.seq (encodeFlag_writes.seq
    (u16_writes.seq (Writes.forEach encodeEvent_writes s.events)))))))))))))))).congr ?_ ?_
  · rw [count_toNat hl, count_toNat he]
    rfl
  · simp

end write

theorem encodeStatus_eq_ok {s : WorkerStatus} {payload : List UInt8} :
    encodeStatus s = .ok payload ↔
      StatusFits s ∧ (statusBytes s).length ≤ maxStatusBytes ∧ payload = statusBytes s := by
  unfold encodeStatus
  constructor
  · intro h
    split at h
    · cases h
    · rename_i hseq
      obtain ⟨hseq, hl⟩ := not_or.mp hseq
      split at h
      · cases h
      · rename_i he
        have hw := encodeStatusBody_writes (not_lt.mp hl) (not_lt.mp he)
        obtain ⟨⟨h1, h2, h3, h4⟩, hlen, hp⟩ :=
          (Supervision.BoundedWireWriter.encode_eq_ok hw).mp h
        exact ⟨⟨hseq, not_lt.mp hl, not_lt.mp he, h1, h2, h3, h4⟩, hlen, hp⟩
  · rintro ⟨hs, hlen, rfl⟩
    have hw := encodeStatusBody_writes hs.listenerCount hs.eventCount
    have hseq := not_or.mpr ⟨hs.sequence, not_lt.mpr hs.listenerCount⟩
    rw [if_neg hseq, if_neg (not_lt.mpr hs.eventCount)]
    exact (Supervision.BoundedWireWriter.encode_eq_ok hw).mpr
      ⟨⟨hs.generation, hs.listeners, hs.degradation, hs.events⟩, hlen, rfl⟩

/-! ## The decoder reads it -/

section read

open Supervision.BoundedWireReader

theorem decodeFlag_decodes : Decodes decodeFlag flagBytes fun _ => True where
  run value rest _ := by
    cases value <;> rfl
  exact {r value r'} h := by
    obtain ⟨tag, s, -, hr, h⟩ := u8_decodes.bind_exact h
    rw [hr]
    split at h
    · obtain ⟨rfl, rfl⟩ : false = value ∧ s = r' := by simpa using h
      exact ⟨trivial, rfl⟩
    · obtain ⟨rfl, rfl⟩ : true = value ∧ s = r' := by simpa using h
      exact ⟨trivial, rfl⟩
    · cases h

theorem decodeString_decodes : Decodes decodeString stringBytes StringFits where
  run value rest hfits := by
    have hlen : (UInt16.ofNat (utf8Bytes value).length).toNat = (utf8Bytes value).length :=
      UInt16.toNat_ofNat_of_lt' (lt_of_le_of_lt hfits (by decide))
    have hutf8 : fromUtf8 (utf8Bytes value) = some value := Lib.fromUtf8_eq_some.mpr rfl
    rw [decodeString, stringBytes, append_assoc, ← hlen, u16_decodes.bind_run trivial, hlen,
      if_neg (not_lt.mpr hfits), bytes_decodes.bind_run rfl, hutf8]
    rfl
  exact {r value r'} h := by
    obtain ⟨n, s, -, hr, h⟩ := u16_decodes.bind_exact h
    obtain ⟨hle, h⟩ := guard_eq_ok.mp h
    obtain ⟨v, s', hv, hs, h⟩ := bytes_decodes.bind_exact h
    cases hutf8 : fromUtf8 v with
    | none => simp [hutf8] at h
    | some str =>
      obtain ⟨rfl, rfl⟩ : str = value ∧ s' = r' := by simpa [hutf8] using h
      obtain rfl := Lib.fromUtf8_eq_some.mp hutf8
      rw [hr, hs, stringBytes, hv, append_assoc]
      exact ⟨by unfold StringFits; omega, rfl⟩

theorem decodeOptional_decodes {α : Type} {x : StatusDecode α} {enc : α → List UInt8}
    {valid : α → Prop} (hx : Decodes x enc valid) :
    Decodes (decodeOptional x) (optionalBytes enc) fun o => ∀ a ∈ o, valid a where
  run value rest hv := by
    unfold decodeOptional
    cases value with
    | none =>
      rfl
    | some value =>
      rw [optionalBytes, append_assoc, u8_decodes.bind_run trivial]
      change run (_ >>= _) _ = _
      rw [hx.bind_run (hv value rfl)]
      rfl
  exact {r value r'} h := by
    obtain ⟨tag, s, -, hr, h⟩ := u8_decodes.bind_exact h
    rw [hr]
    split at h
    · obtain ⟨rfl, rfl⟩ : none = value ∧ s = r' := by simpa using h
      exact ⟨by simp, rfl⟩
    · obtain ⟨v, s', hv, hs, h⟩ := hx.bind_exact h
      obtain ⟨rfl, rfl⟩ : some v = value ∧ s' = r' := by simpa using h
      exact ⟨by simpa using hv, by rw [hs, optionalBytes, append_assoc]⟩
    · cases h

theorem decodeOptionalString_decodes :
    Decodes decodeOptionalString optionalStringBytes OptionalFits :=
  decodeOptional_decodes decodeString_decodes

theorem decodeWord_decodes : Decodes (u64 : StatusDecode UInt64) wordBytes fun _ => True :=
  u64_decodes

theorem decodeLifecycle_decodes :
    Decodes (u8 >>= fun v => ofExcept (decodeLifecycle v)) (fun l => [encodeLifecycle l])
      fun _ => True := by
  refine u8_decodes.via (fun l _ => ⟨trivial, by cases l <;> rfl⟩) ?_
  intro tag l _ h
  unfold decodeLifecycle at h
  split at h
  all_goals cases h
  all_goals exact ⟨trivial, rfl⟩

theorem decodeListenerState_decodes :
    Decodes (u8 >>= fun v => ofExcept (decodeListenerState v))
      (fun l => [encodeListenerState l]) fun _ => True := by
  refine u8_decodes.via (fun l _ => ⟨trivial, by cases l <;> rfl⟩) ?_
  intro tag l _ h
  unfold decodeListenerState at h
  split at h
  all_goals cases h
  all_goals exact ⟨trivial, rfl⟩

theorem decodeAdministrativeState_decodes :
    Decodes (u8 >>= fun v => ofExcept (decodeAdministrativeState v))
      (fun l => [encodeAdministrativeState l]) fun _ => True := by
  refine u8_decodes.via (fun l _ => ⟨trivial, by cases l <;> rfl⟩) ?_
  intro tag l _ h
  unfold decodeAdministrativeState at h
  split at h
  all_goals cases h
  all_goals exact ⟨trivial, rfl⟩

open WorkerGenerationStatus in
theorem decodeGeneration_decodes : Decodes decodeGeneration generationBytes GenerationFits := by
  refine .congr (decodeOptionalString_decodes.field diskRevision fun _ =>
    decodeOptionalString_decodes.field candidateRevision fun _ =>
    decodeOptionalString_decodes.field activeRevision fun _ =>
    decodeOptionalString_decodes.field previousRevision fun _ =>
    decodeOptionalString_decodes.field quarantinedRevision fun _ =>
    decodeFlag_decodes.field activeAccepting fun _ =>
    decodeFlag_decodes.field degraded fun _ =>
    decodeOptionalString_decodes.field lastFailure fun _ =>
    decodeWord_decodes.field prepares fun _ =>
    decodeWord_decodes.field activations fun _ =>
    decodeWord_decodes.field failures fun _ =>
    decodeWord_decodes.field rollbacks fun _ => .record) ?_ ?_
  · simp [generationBytes]
  · simp [generationFits_iff]

open WorkerMetrics in
theorem decodeMetrics_decodes : Decodes decodeMetrics metricsBytes fun _ => True := by
  refine .congr (decodeWord_decodes.field acceptedConnections fun _ =>
    decodeWord_decodes.field rejectedConnections fun _ =>
    decodeWord_decodes.field activeConnections fun _ =>
    decodeWord_decodes.field bytesReceived fun _ =>
    decodeWord_decodes.field bytesSent fun _ => .record) ?_ ?_
  · simp [metricsBytes]
  · simp

open WorkerListenerStatus in
theorem decodeListener_decodes : Decodes decodeListener listenerBytes ListenerFits := by
  refine .congr (decodeString_decodes.field name fun _ =>
    decodeString_decodes.field protocol fun _ =>
    decodeString_decodes.field bind fun _ =>
    decodeAdministrativeState_decodes.field administrativeState fun _ =>
    decodeListenerState_decodes.field state fun _ =>
    decodeWord_decodes.field acceptedConnections fun _ =>
    decodeWord_decodes.field rejectedConnections fun _ =>
    decodeWord_decodes.field activeConnections fun _ =>
    decodeWord_decodes.field bytesReceived fun _ =>
    decodeWord_decodes.field bytesSent fun _ => .record) ?_ ?_
  · simp [listenerBytes]
  · simp [listenerFits_iff]

open WorkerEventRecord in
theorem decodeEvent_decodes : Decodes decodeEvent eventBytes EventFits := by
  refine .congr (decodeWord_decodes.field cursor fun _ => .guarded <|
    (decodeOptional_decodes decodeWord_decodes).field timestampUnixMs fun _ =>
    decodeString_decodes.field event fun _ =>
    decodeString_decodes.field outcome fun _ =>
    decodeOptionalString_decodes.field revision fun _ =>
    decodeOptionalString_decodes.field certificate fun _ =>
    decodeOptionalString_decodes.field correlationId fun _ =>
    decodeOptionalString_decodes.field source fun _ =>
    decodeOptionalString_decodes.field operation fun _ => .record) ?_ ?_
  · simp [eventBytes]
  · simp [eventFits_iff]

/-- The five flags packed as `status_flags` packs them. -/
def packFlags (accepting started failed drained degraded : Bool) : UInt8 :=
  accepting.toUInt8 ||| (started.toUInt8 <<< 1) ||| (failed.toUInt8 <<< 2) |||
    (drained.toUInt8 <<< 3) ||| (degraded.toUInt8 <<< 4)

theorem packFlags_bits (a b c d e : Bool) :
    packFlags a b c d e &&& ~~~0x1f = 0 ∧ (packFlags a b c d e &&& 0x01 != 0) = a ∧
    (packFlags a b c d e &&& 0x02 != 0) = b ∧ (packFlags a b c d e &&& 0x04 != 0) = c ∧
    (packFlags a b c d e &&& 0x08 != 0) = d ∧ (packFlags a b c d e &&& 0x10 != 0) = e := by
  revert a b c d e
  decide

theorem packFlags_of_bits {flags : UInt8} (h : flags &&& ~~~0x1f = 0) :
    packFlags (flags &&& 0x01 != 0) (flags &&& 0x02 != 0) (flags &&& 0x04 != 0)
      (flags &&& 0x08 != 0) (flags &&& 0x10 != 0) = flags := by
  have hall : ∀ n : Fin 256, UInt8.ofFin n &&& ~~~0x1f = 0 →
      packFlags (UInt8.ofFin n &&& 0x01 != 0) (UInt8.ofFin n &&& 0x02 != 0)
        (UInt8.ofFin n &&& 0x04 != 0) (UInt8.ofFin n &&& 0x08 != 0)
        (UInt8.ofFin n &&& 0x10 != 0) = UInt8.ofFin n := by decide +kernel
  exact hall _ h

theorem statusFlags_eq {s : WorkerStatus} :
    statusFlags s = packFlags s.accepting s.runtimeStarted s.runtimeFailed s.drained s.degraded :=
  rfl

/-- The event cursors a status announces: increasing, the last one not above the announced one. -/
structure CursorsAnnounced (s : WorkerStatus) : Prop where
  increasing : s.events.Pairwise fun a b => a.cursor < b.cursor
  last : ∀ e ∈ s.events.getLast?, e.cursor ≤ s.eventCursor

instance : Trans (fun a b : WorkerEventRecord => a.cursor < b.cursor)
    (fun a b : WorkerEventRecord => a.cursor < b.cursor)
    fun a b : WorkerEventRecord => a.cursor < b.cursor := ⟨UInt64.lt_trans⟩

variable {events : List WorkerEventRecord} {s : WorkerStatus}

theorem cursorsStall_eq_false :
    cursorsStall events = false ↔ events.Pairwise fun a b => a.cursor < b.cursor := by
  rw [← isChain_iff_pairwise]
  induction events with
  | nil => simp [cursorsStall]
  | cons a events ih =>
    cases events with
    | nil => simp [cursorsStall]
    | cons b events =>
      rw [isChain_cons_cons, ← ih]
      simp [cursorsStall]

theorem cursorBeyond_eq_false {cursor : UInt64} :
    cursorBeyond events cursor = false ↔ ∀ e ∈ events.getLast?, e.cursor ≤ cursor := by
  unfold cursorBeyond
  cases events.getLast? with
  | none | some e => simp

theorem decodeStatusBody_run (hs : StatusFits s) (hc : CursorsAnnounced s) :
    decodeStatusBody s.generationId (statusBytes s) = (.ok s, []) := by
  have hl := count_toNat hs.listenerCount
  have he := count_toNat hs.eventCount
  have hevents := (decodeEvent_decodes.many _).run s.events [] ⟨rfl, hs.events⟩
  rw [append_nil] at hevents
  have hstall : ¬ cursorsStall s.events = true := by
    rw [cursorsStall_eq_false.mpr hc.increasing]
    simp
  have hbeyond : ¬ cursorBeyond s.events s.eventCursor = true := by
    rw [cursorBeyond_eq_false.mpr hc.last]
    simp
  have hfinish : (finish : StatusDecode Unit) [] = (.ok (), []) := finish_eq_ok.mpr ⟨rfl, rfl⟩
  obtain ⟨hmask, hf1, hf2, hf3, hf4, hf5⟩ :=
    packFlags_bits s.accepting s.runtimeStarted s.runtimeFailed s.drained s.degraded
  rw [decodeStatusBody, statusBytes, ← hl, ← he, u16_decodes.bind_run trivial,
    if_neg (by decide), u16_decodes.bind_run trivial, if_neg (by decide),
    decodeWord_decodes.bind_run trivial, if_neg hs.sequence, decodeWord_decodes.bind_run trivial,
    if_neg (by simp), decodeLifecycle_decodes.bind_run trivial, u8_decodes.bind_run trivial,
    statusFlags_eq, if_neg (by simp [hmask]), decodeAdministrativeState_decodes.bind_run trivial,
    decodeGeneration_decodes.bind_run hs.generation,
    (decodeOptional_decodes decodeMetrics_decodes).bind_run (fun _ _ => trivial),
    u16_decodes.bind_run trivial, hl, if_neg (not_lt.mpr hs.listenerCount),
    (decodeListener_decodes.many _).bind_run ⟨rfl, hs.listeners⟩,
    decodeOptionalString_decodes.bind_run hs.degradation, decodeWord_decodes.bind_run trivial,
    decodeFlag_decodes.bind_run trivial, u16_decodes.bind_run trivial, he,
    if_neg (not_lt.mpr hs.eventCount), bind_ok hevents, if_neg hstall, if_neg hbeyond,
    bind_ok hfinish, hf1, hf2, hf3, hf4, hf5]
  rfl

theorem decodeStatusBody_exact {generation : GenerationId} {payload r : List UInt8}
    (h : decodeStatusBody generation payload = (.ok s, r)) :
    s.generationId = generation ∧ StatusFits s ∧ CursorsAnnounced s ∧ payload = statusBytes s := by
  obtain ⟨format, s1, -, h1, h⟩ := u16_decodes.bind_exact h
  obtain ⟨hformat, h⟩ := guard_eq_ok.mp h
  obtain ⟨version, s2, -, h2, h⟩ := u16_decodes.bind_exact h
  obtain ⟨hversion, h⟩ := guard_eq_ok.mp h
  obtain ⟨sequence, s3, -, h3, h⟩ := decodeWord_decodes.bind_exact h
  obtain ⟨hsequence, h⟩ := guard_eq_ok.mp h
  obtain ⟨generationId, s4, -, h4, h⟩ := decodeWord_decodes.bind_exact h
  obtain ⟨hgeneration, h⟩ := guard_eq_ok.mp h
  obtain ⟨lifecycle, s5, -, h5, h⟩ := decodeLifecycle_decodes.bind_exact h
  obtain ⟨flags, s6, -, h6, h⟩ := u8_decodes.bind_exact h
  obtain ⟨hflags, h⟩ := guard_eq_ok.mp h
  obtain ⟨administrative, s7, -, h7, h⟩ := decodeAdministrativeState_decodes.bind_exact h
  obtain ⟨generationStatus, s8, v8, h8, h⟩ := decodeGeneration_decodes.bind_exact h
  obtain ⟨metrics, s9, -, h9, h⟩ := (decodeOptional_decodes decodeMetrics_decodes).bind_exact h
  obtain ⟨listenerCount, s10, -, h10, h⟩ := u16_decodes.bind_exact h
  obtain ⟨hlisteners, h⟩ := guard_eq_ok.mp h
  obtain ⟨listeners, s11, ⟨hl, v11⟩, h11, h⟩ := (decodeListener_decodes.many _).bind_exact h
  obtain ⟨degradation, s12, v12, h12, h⟩ := decodeOptionalString_decodes.bind_exact h
  obtain ⟨eventCursor, s13, -, h13, h⟩ := decodeWord_decodes.bind_exact h
  obtain ⟨eventCursorLost, s14, -, h14, h⟩ := decodeFlag_decodes.bind_exact h
  obtain ⟨eventCount, s15, -, h15, h⟩ := u16_decodes.bind_exact h
  obtain ⟨hevents, h⟩ := guard_eq_ok.mp h
  obtain ⟨events, s16, ⟨he, v16⟩, h16, h⟩ := (decodeEvent_decodes.many _).bind_exact h
  obtain ⟨hstall, h⟩ := guard_eq_ok.mp h
  obtain ⟨hbeyond, h⟩ := guard_eq_ok.mp h
  obtain ⟨_, s17, hfin, h⟩ := bind_eq_ok.mp h
  obtain ⟨rfl, rfl⟩ := finish_eq_ok.mp hfin
  obtain ⟨rfl, rfl⟩ : _ = s ∧ [] = r := by simpa only [pure_run, Prod.mk.injEq,
    Except.ok.injEq] using h
  have hpack := packFlags_of_bits (Decidable.not_not.mp hflags)
  rw [← hl] at hlisteners
  rw [← he] at hevents
  refine ⟨Decidable.not_not.mp hgeneration, ⟨hsequence, not_lt.mp hlisteners,
    not_lt.mp hevents, v8, v11, v12, v16⟩,
    ⟨cursorsStall_eq_false.mp (eq_false_of_ne_true hstall),
      cursorBeyond_eq_false.mp (eq_false_of_ne_true hbeyond)⟩, ?_⟩
  rw [h1, h2, h3, h4, h5, h6, h7, h8, h9, h10, h11, h12, h13, h14, h15, h16,
    Decidable.not_not.mp hformat, Decidable.not_not.mp hversion, statusBytes, statusFlags_eq, hl,
    he, append_nil]
  rw [hpack]

end read

theorem decodeStatus_eq_ok {frame : AuthenticatedFrame} {s : WorkerStatus} :
    decodeStatus frame = .ok s ↔ frame.messageType = statusMessage ∧ frame.descriptors = 0 ∧
      frame.generation = s.generationId ∧ frame.payload.length ≤ maxStatusBytes ∧
      StatusFits s ∧ CursorsAnnounced s ∧ frame.payload = statusBytes s := by
  simp only [decodeStatus, Lib.guard_eq_ok, ne_eq, Decidable.not_not, not_lt]
  constructor
  · rintro ⟨htype, hdesc, hlen, h⟩
    obtain ⟨hgen, hs, hc, hp⟩ := decodeStatusBody_exact (Prod.ext h rfl)
    exact ⟨htype, hdesc, hgen.symm, hlen, hs, hc, hp⟩
  · rintro ⟨htype, hdesc, hgen, hlen, hs, hc, hp⟩
    refine ⟨htype, hdesc, hlen, ?_⟩
    rw [hgen, hp, decodeStatusBody_run hs hc]

/-- **The status codec is exact.** A status with increasing event cursors that encodes is what its
frame decodes to, and a payload that decodes is the encoding of its status. -/
theorem status_exact : (∀ s payload, encodeStatus s = .ok payload →
      (s.events.Pairwise fun a b => a.cursor < b.cursor) →
      (∀ e ∈ s.events.getLast?, e.cursor ≤ s.eventCursor) →
      ∀ frame : AuthenticatedFrame, frame.messageType = statusMessage → frame.descriptors = 0 →
        frame.generation = s.generationId → frame.payload = payload → decodeStatus frame = .ok s) ∧
    (∀ frame s, decodeStatus frame = .ok s → encodeStatus s = .ok frame.payload) := by
  refine ⟨fun s payload h hinc hlast frame htype hdesc hgen hp => ?_, fun frame s h => ?_⟩
  · obtain ⟨hs, hlen, rfl⟩ := encodeStatus_eq_ok.mp h
    exact decodeStatus_eq_ok.mpr ⟨htype, hdesc, hgen, hp ▸ hlen, hs, ⟨hinc, hlast⟩, hp⟩
  · obtain ⟨_, _, _, hlen, hs, _, hp⟩ := decodeStatus_eq_ok.mp h
    exact encodeStatus_eq_ok.mpr ⟨hs, hp ▸ hlen, hp⟩

end Oxiroute.Master
