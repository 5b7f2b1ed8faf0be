import Oxiroute.Supervision.Identity
import Oxiroute.Supervision.Wire
import Oxiroute.Unix.Descriptor

/-!
# The worker control protocol

Model of `oxiroute-supervisor-master/src/protocol.rs`: the phases a worker is asked for, its
acknowledgements, and the listener manifest of an adoption request.

The manifest codec is exact. `encodeManifest_writes` and `decodeSlots_decodes` describe the two
sides by the same pure encoding `manifestBytes`, put together field by field in the order of the
source, and `manifest_exact` compares the two entry points.

Out of scope: `WorkerControl` (the worker's channel endpoint) and `decode_request`, whose listener
set is built from kernel descriptors.
-/

namespace Oxiroute.Master

open Lib Prog Supervision Unix DescriptorRole Supervision.BoundedWireWriter DescriptorCapabilities
open List (size_toArray append_assoc append_nil length_append drop_append_of_le_length)

def controlProtocolVersion : UInt16 := 2

def maxManifestBytes : ℕ := 16 * 1024

def descriptorManifestVersion : UInt16 := 1

def supportedDescriptorCapabilities : DescriptorCapabilities := DescriptorCapabilities.all

def prefixSize : ℕ := 10

def ackSize : ℕ := 12

abbrev MessageType := UInt16

/-- `ACK`. -/
def ackMessage : MessageType := 0x180

inductive ControlPhase where
  | adoptListeners
  | quiesce
  | activate
  | drain
  | reactivate
  | shutdown
  deriving DecidableEq

inductive ControlOutcome where
  | accepted
  | rejected (code : UInt8)
  deriving DecidableEq

structure ControlAck where
  requestId : UInt64
  phase : ControlPhase
  outcome : ControlOutcome
  deriving DecidableEq

/-- `ControlProtocolError`, as far as the modelled functions return it. -/
inductive ControlProtocolError where
  | unexpectedMessage (messageType : UInt16)
  | unexpectedDescriptors
  | invalidPayload
  | unknownPhase (tag : UInt8)
  | versionMismatch (expected actual : UInt16)
  | manifestVersionMismatch (expected actual : UInt16)
  | unsupportedCapabilities (required supported : UInt16)
  | manifestTooLarge (actual maximum : ℕ)
  | descriptor (error : DescriptorError)
  deriving DecidableEq

/-- `ControlWire`. -/
instance : BoundedWireProtocol ControlProtocolError where
  invalid := .invalidPayload
  tooLarge := .manifestTooLarge

/-- `AuthenticatedFrame`, as far as the master's decoders read it: the header's message type and
generation, the payload, and how many descriptors came with it. -/
structure AuthenticatedFrame where
  messageType : MessageType
  generation : GenerationId
  payload : List UInt8
  descriptors : ℕ

namespace ControlPhase

def tag : ControlPhase → UInt8
  | .adoptListeners => 1
  | .quiesce => 2
  | .activate => 3
  | .drain => 4
  | .reactivate => 5
  | .shutdown => 6

def fromTag (tag : UInt8) : Except ControlProtocolError ControlPhase :=
  match tag with
  | 1 => .ok .adoptListeners
  | 2 => .ok .quiesce
  | 3 => .ok .activate
  | 4 => .ok .drain
  | 5 => .ok .reactivate
  | 6 => .ok .shutdown
  | tag => .error (.unknownPhase tag)

end ControlPhase

/-! ## Acknowledgements -/

def checkVersion (payload : List UInt8) : Except ControlProtocolError Unit :=
  let actual := UInt16.ofNat (ofBeBytes (payload.take 2))
  if actual = controlProtocolVersion then .ok ()
  else .error (.versionMismatch controlProtocolVersion actual)

def decodeAck (frame : AuthenticatedFrame) : Except ControlProtocolError ControlAck :=
  if frame.messageType ≠ ackMessage then .error (.unexpectedMessage frame.messageType)
  else if frame.descriptors ≠ 0 then .error .unexpectedDescriptors
  else if frame.payload.length ≠ ackSize then .error .invalidPayload
  else do
    checkVersion frame.payload
    let outcome := match frame.payload.getD 11 0 with
      | 0 => ControlOutcome.accepted
      | code => .rejected code
    let phase ← ControlPhase.fromTag (frame.payload.getD 10 0)
    pure {
      requestId := UInt64.ofNat (ofBeBytes ((frame.payload.drop 2).take 8))
      phase
      outcome }

def encodeAck (requestId : UInt64) (phase : ControlPhase) (outcome : ControlOutcome) : List UInt8 :=
  beBytes 2 controlProtocolVersion.toNat ++ beBytes 8 requestId.toNat ++ [phase.tag] ++
    [match outcome with
      | .accepted => 0
      | .rejected 0 => 1
      | .rejected code => code]

/-- The ten bytes in front of every request's body: version and request id (`encode_request`). -/
def encodeRequest (requestId : UInt64) : List UInt8 :=
  beBytes 2 controlProtocolVersion.toNat ++ beBytes 8 requestId.toNat

/-! ## Writing a manifest -/

section write

open Supervision.BoundedWireWriter

abbrev Encode := Prog Buffer ControlProtocolError Unit

/-- The role of a slot in `encode_manifest`. -/
def encodeRole : DescriptorRole → Encode
  | .traffic name => do
    u8 1
    lengthPrefixed (utf8Bytes name)
  | .management => u8 2
  | .stats index => do
    u8 3
    u16 index
  | .statsPage index => do
    u8 4
    u16 index
  | .state => u8 5
  | .control => u8 6

/-- The tag of a slot's kind in `encode_manifest`. -/
def kindTag : DescriptorKind → UInt8
  | .tcpListener => 1
  | .unixListener => 2
  | .opaqueObject => 3
  | .datagramListener => 4
  | .quicListener => 5

def encodeBind : Option BindIdentity → Encode
  | none => u8 0
  | some (.tcp (.v4 ip port)) => do
    u8 1
    bytes ip.toList
    u16 port
  | some (.tcp (.v6 ip port flowinfo scopeId)) => do
    u8 2
    bytes ip.toList
    u16 port
    u32 flowinfo
    u32 scopeId
  | some (.unixPath path) => do
    u8 3
    lengthPrefixed path
  | some (.unixAbstract name) => do
    u8 4
    lengthPrefixed name

/-- The mode of a slot in `encode_manifest`. -/
def encodeMode : Option UInt16 → Encode
  | none => u8 0
  | some mode => do
    u8 1
    u16 mode

/-- One round of the loop of `encode_manifest`. -/
def encodeSlot (slot : DescriptorSlot) : Encode := do
  u16 slot.id
  encodeRole slot.role
  u8 (kindTag slot.kind)
  encodeBind slot.bind
  encodeMode slot.mode

/-- `encode_manifest`. The slot count fits a `u16`: a manifest has at most 64 slots. -/
def encodeManifest (manifest : DescriptorManifest) : Encode := do
  u16 descriptorManifestVersion
  u16 manifest.capabilities
  u16 (UInt16.ofNat manifest.slots.length)
  forEach manifest.slots encodeSlot

def encodeAdoptRequest (requestId : UInt64) (manifest : DescriptorManifest) :
    Except ControlProtocolError (List UInt8) :=
  encode (prefixSize + maxManifestBytes) do
    bytes (beBytes 2 controlProtocolVersion.toNat)
    bytes (beBytes 8 requestId.toNat)
    encodeManifest manifest

end write

/-! ## Reading a manifest -/

section read

open Supervision.BoundedWireReader

abbrev Decode := Prog (List UInt8) ControlProtocolError

/-- The role of a slot in `decode_manifest`. -/
def decodeRole : Decode DescriptorRole := do
  match ← u8 with
  | 1 =>
    let name ← lengthPrefixed
    match fromUtf8 name with
    | some name => pure (.traffic name)
    | none => throw .invalidPayload
  | 2 => pure .management
  | 3 => do
    let index ← u16
    pure (.stats index)
  | 4 => do
    let index ← u16
    pure (.statsPage index)
  | 5 => pure .state
  | 6 => pure .control
  | _ => throw .invalidPayload

/-- The kind a tag stands for in `decode_manifest`. -/
def kindOfTag (tag : UInt8) : Except ControlProtocolError DescriptorKind :=
  match tag with
  | 1 => .ok .tcpListener
  | 2 => .ok .unixListener
  | 3 => .ok .opaqueObject
  | 4 => .ok .datagramListener
  | 5 => .ok .quicListener
  | _ => .error .invalidPayload

/-- The octets of an address: `try_from` a slice of the right length. -/
def octets (n : ℕ) (bytes : List UInt8) : Except ControlProtocolError (Vector UInt8 n) :=
  if h : bytes.length = n then .ok ⟨bytes.toArray, by rw [size_toArray, h]⟩
  else .error .invalidPayload

def decodeBind : Decode (Option BindIdentity) := do
  match ← u8 with
  | 0 => pure none
  | 1 => do
    let ip ← (bytes 4 >>= fun b => ofExcept (octets 4 b))
    let port ← u16
    pure (some (.tcp (.v4 ip port)))
  | 2 => do
    let ip ← (bytes 16 >>= fun b => ofExcept (octets 16 b))
    let port ← u16
    let flowinfo ← u32
    let scopeId ← u32
    pure (some (.tcp (.v6 ip port flowinfo scopeId)))
  | 3 => do
    let path ← lengthPrefixed
    pure (some (.unixPath path))
  | 4 => do
    let name ← lengthPrefixed
    pure (some (.unixAbstract name))
  | _ => throw .invalidPayload

/-- The mode of a slot in `decode_manifest`. -/
def decodeMode : Decode (Option UInt16) := do
  match ← u8 with
  | 0 => pure none
  | 1 => do
    let mode ← u16
    pure (some mode)
  | _ => throw .invalidPayload

/-- One round of the loop of `decode_manifest`. -/
def decodeSlot : Decode DescriptorSlot := do
  let id ← u16
  let role ← decodeRole
  let kind ← (u8 >>= fun tag => ofExcept (kindOfTag tag))
  let bind ← decodeBind
  let mode ← decodeMode
  pure { id, role, kind, bind, mode }

/-- `decode_manifest` up to `decoder.finish()`: the announced capabilities and the slots. -/
def decodeSlots : Decode (DescriptorCapabilities × List DescriptorSlot) := do
  let manifestVersion ← u16
  if manifestVersion ≠ descriptorManifestVersion then
    throw (.manifestVersionMismatch descriptorManifestVersion manifestVersion)
  else
    let encodedCapabilities ← u16
    let capabilities ← okOr (fromBits encodedCapabilities)
      (.unsupportedCapabilities encodedCapabilities supportedDescriptorCapabilities)
    let slotCount ← u16
    if maxDescriptorCount < slotCount.toNat then throw .invalidPayload
    else
      let slots ← Lib.readMany decodeSlot slotCount.toNat
      finish
      pure (capabilities, slots)

def decodeManifest (payload : List UInt8) : Except ControlProtocolError DescriptorManifest :=
  if maxManifestBytes < payload.length then
    .error (.manifestTooLarge payload.length maxManifestBytes)
  else do
    let (capabilities, slots) ← (decodeSlots payload).1
    let manifest ← (DescriptorManifest.new slots).mapError .descriptor
    if manifest.capabilities ≠ capabilities then .error .invalidPayload
    else if ¬ contains supportedDescriptorCapabilities capabilities then
      .error (.unsupportedCapabilities capabilities supportedDescriptorCapabilities)
    else .ok manifest

end read

/-! ## The encoding of a manifest -/

def roleBytes : DescriptorRole → List UInt8
  | .traffic name => [1] ++ (beBytes 4 (utf8Bytes name).length ++ utf8Bytes name)
  | .management => [2]
  | .stats index => [3] ++ beBytes 2 index.toNat
  | .statsPage index => [4] ++ beBytes 2 index.toNat
  | .state => [5]
  | .control => [6]

/-- A role whose name has a length prefix that fits. -/
def RoleFits : DescriptorRole → Prop
  | .traffic name => (utf8Bytes name).length < 2 ^ 32
  | _ => True

def bindBytes : Option BindIdentity → List UInt8
  | none => [0]
  | some (.tcp (.v4 ip port)) => [1] ++ (ip.toList ++ beBytes 2 port.toNat)
  | some (.tcp (.v6 ip port flowinfo scopeId)) =>
    [2] ++ (ip.toList ++
      (beBytes 2 port.toNat ++ (beBytes 4 flowinfo.toNat ++ beBytes 4 scopeId.toNat)))
  | some (.unixPath path) => [3] ++ (beBytes 4 path.length ++ path)
  | some (.unixAbstract name) => [4] ++ (beBytes 4 name.length ++ name)

/-- A bind whose path or name has a length prefix that fits. -/
def BindFits : Option BindIdentity → Prop
  | some (.unixPath path) => path.length < 2 ^ 32
  | some (.unixAbstract name) => name.length < 2 ^ 32
  | _ => True

def modeBytes : Option UInt16 → List UInt8
  | none => [0]
  | some mode => [1] ++ beBytes 2 mode.toNat

def slotBytes (slot : DescriptorSlot) : List UInt8 :=
  beBytes 2 slot.id.toNat ++
    (roleBytes slot.role ++ ([kindTag slot.kind] ++ (bindBytes slot.bind ++ modeBytes slot.mode)))

/-- A slot whose length prefixes fit. -/
def SlotFits (slot : DescriptorSlot) : Prop := RoleFits slot.role ∧ BindFits slot.bind

def manifestBytes (capabilities : DescriptorCapabilities) (slots : List DescriptorSlot) :
    List UInt8 :=
  beBytes 2 descriptorManifestVersion.toNat ++ (beBytes 2 capabilities.toNat ++
    (beBytes 2 slots.length ++ slots.flatMap slotBytes))

/-! ### The encoder writes it -/

section write

open Supervision.BoundedWireWriter

theorem encodeRole_writes {role : DescriptorRole} :
    Writes (encodeRole role) (roleBytes role) (RoleFits role) := by
  cases role with
  | traffic name =>
    exact (u8_writes.seq lengthPrefixed_writes).congr rfl (by simp [RoleFits])
  | stats index | statsPage index => exact (u8_writes.seq u16_writes).congr rfl (by simp [RoleFits])
  | management | state | control => exact u8_writes

theorem encodeBind_writes {bind : Option BindIdentity} :
    Writes (encodeBind bind) (bindBytes bind) (BindFits bind) := by
  match bind with
  | none => exact u8_writes
  | some (.tcp (.v4 ip port)) =>
    exact (u8_writes.seq ((bytes_writes _).seq u16_writes)).congr rfl
      (by simp [BindFits])
  | some (.tcp (.v6 ip port flowinfo scopeId)) =>
    exact (u8_writes.seq ((bytes_writes _).seq (u16_writes.seq
      (u32_writes.seq u32_writes)))).congr rfl (by simp [BindFits])
  | some (.unixPath path) =>
    exact (u8_writes.seq lengthPrefixed_writes).congr rfl (by simp [BindFits])
  | some (.unixAbstract name) =>
    exact (u8_writes.seq lengthPrefixed_writes).congr rfl (by simp [BindFits])

theorem encodeMode_writes {mode : Option UInt16} :
    Writes (encodeMode mode) (modeBytes mode) True := by
  cases mode with
  | none => exact u8_writes
  | some mode => exact (u8_writes.seq u16_writes).congr rfl (by simp)

theorem encodeSlot_writes {slot : DescriptorSlot} :
    Writes (encodeSlot slot) (slotBytes slot) (SlotFits slot) :=
  (u16_writes.seq (encodeRole_writes.seq (u8_writes.seq
    (encodeBind_writes.seq encodeMode_writes)))).congr rfl
    (by simp [SlotFits])

theorem slotCount_toNat {slots : List DescriptorSlot} (h : slots.length ≤ maxDescriptorCount) :
    (UInt16.ofNat slots.length).toNat = slots.length :=
  UInt16.toNat_ofNat_of_lt' (lt_of_le_of_lt h (by decide))

theorem encodeManifest_writes (m : DescriptorManifest) :
    Writes (encodeManifest m) (manifestBytes m.capabilities m.slots)
      (∀ slot ∈ m.slots, SlotFits slot) := by
  refine (u16_writes.seq (u16_writes.seq (u16_writes.seq
    (Writes.forEach encodeSlot_writes m.slots)))).congr ?_ (by simp)
  rw [slotCount_toNat m.bounded]
  rfl

end write

/-! ### The decoder reads it -/

section read

open Supervision.BoundedWireReader

theorem decodeRole_decodes : Decodes decodeRole roleBytes RoleFits where
  run role rest hfits := by
    unfold decodeRole
    cases role with
    | traffic name =>
      have hutf8 : fromUtf8 (utf8Bytes name) = some name := Lib.fromUtf8_eq_some.mpr rfl
      rw [roleBytes, append_assoc, u8_decodes.bind_run trivial]
      change run (_ >>= _) _ = _
      rw [lengthPrefixed_decodes.bind_run hfits, hutf8]
      rfl
    | stats index | statsPage index =>
      rw [roleBytes, append_assoc, u8_decodes.bind_run trivial]
      change run (_ >>= _) _ = _
      rw [u16_decodes.bind_run trivial]
      rfl
    | management | state | control =>
      rfl
  exact {r role r'} h := by
    obtain ⟨tag, s, -, hr, h⟩ := u8_decodes.bind_exact h
    rw [hr]
    split at h
    · obtain ⟨name, s', hfits, hs, h⟩ := lengthPrefixed_decodes.bind_exact h
      split at h
      · rename_i str hstr
        obtain ⟨rfl, rfl⟩ : traffic str = role ∧ s' = r' := by simpa using h
        obtain rfl := Lib.fromUtf8_eq_some.mp hstr
        exact ⟨hfits, by rw [hs, roleBytes, append_assoc [1]]⟩
      · cases h
    · obtain ⟨rfl, rfl⟩ : management = role ∧ s = r' := by simpa using h
      exact ⟨trivial, rfl⟩
    · obtain ⟨index, s', -, hs, h⟩ := u16_decodes.bind_exact h
      obtain ⟨rfl, rfl⟩ : stats index = role ∧ s' = r' := by simpa using h
      exact ⟨trivial, by rw [hs, roleBytes, append_assoc]⟩
    · obtain ⟨index, s', -, hs, h⟩ := u16_decodes.bind_exact h
      obtain ⟨rfl, rfl⟩ : statsPage index = role ∧ s' = r' := by simpa using h
      exact ⟨trivial, by rw [hs, roleBytes, append_assoc]⟩
    · obtain ⟨rfl, rfl⟩ : state = role ∧ s = r' := by simpa using h
      exact ⟨trivial, rfl⟩
    · obtain ⟨rfl, rfl⟩ : control = role ∧ s = r' := by simpa using h
      exact ⟨trivial, rfl⟩
    · cases h

theorem decodeKind_decodes :
    Decodes (u8 >>= fun tag => ofExcept (kindOfTag tag)) (fun kind => [kindTag kind])
      fun _ => True := by
  refine u8_decodes.via (fun kind _ => ⟨trivial, by cases kind <;> rfl⟩) ?_
  intro tag kind _ h
  unfold kindOfTag at h
  split at h
  all_goals cases h
  all_goals exact ⟨trivial, rfl⟩

theorem octets_decodes {n : ℕ} :
    Decodes (bytes n >>= fun b => ofExcept (octets n b)) (fun v => v.toList)
      fun _ => True := by
  refine bytes_decodes.via (fun v _ => ⟨by simp, ?_⟩) ?_
  · unfold octets
    rw [dif_pos (by simp)]
    exact congrArg Except.ok (Vector.toArray_inj.mp (by simp [Vector.toList]))
  · intro b v hb h
    unfold octets at h
    rw [dif_pos hb] at h
    cases h
    exact ⟨trivial, by simp⟩

theorem decodeBind_decodes : Decodes decodeBind bindBytes BindFits where
  run bind rest hfits := by
    unfold decodeBind
    match bind, hfits with
    | none, _ =>
      rfl
    | some (.tcp (.v4 ip port)), _ =>
      simp only [bindBytes, append_assoc, u8_decodes.bind_run trivial]
      rw [octets_decodes.bind_run trivial, u16_decodes.bind_run trivial]
      rfl
    | some (.tcp (.v6 ip port flowinfo scopeId)), _ =>
      simp only [bindBytes, append_assoc, u8_decodes.bind_run trivial]
      rw [octets_decodes.bind_run trivial, u16_decodes.bind_run trivial,
        u32_decodes.bind_run trivial, u32_decodes.bind_run trivial]
      rfl
    | some (.unixPath path), hfits =>
      rw [bindBytes, append_assoc [3], u8_decodes.bind_run trivial]
      change run (_ >>= _) _ = _
      rw [lengthPrefixed_decodes.bind_run hfits]
      rfl
    | some (.unixAbstract name), hfits =>
      rw [bindBytes, append_assoc [4], u8_decodes.bind_run trivial]
      change run (_ >>= _) _ = _
      rw [lengthPrefixed_decodes.bind_run hfits]
      rfl
  exact {r bind r'} h := by
    obtain ⟨tag, s, -, hr, h⟩ := u8_decodes.bind_exact h
    rw [hr]
    split at h
    · obtain ⟨rfl, rfl⟩ : none = bind ∧ s = r' := by simpa using h
      exact ⟨trivial, rfl⟩
    · obtain ⟨ip, s1, -, h1, h⟩ := octets_decodes.bind_exact h
      obtain ⟨port, s2, -, h2, h⟩ := u16_decodes.bind_exact h
      obtain ⟨rfl, rfl⟩ : some _ = bind ∧ s2 = r' := by simpa using h
      exact ⟨trivial, by simp [h1, h2, bindBytes]⟩
    · obtain ⟨ip, s1, -, h1, h⟩ := octets_decodes.bind_exact h
      obtain ⟨port, s2, -, h2, h⟩ := u16_decodes.bind_exact h
      obtain ⟨flowinfo, s3, -, h3, h⟩ := u32_decodes.bind_exact h
      obtain ⟨scopeId, s4, -, h4, h⟩ := u32_decodes.bind_exact h
      obtain ⟨rfl, rfl⟩ : some _ = bind ∧ s4 = r' := by
        simpa using h
      exact ⟨trivial, by simp [h1, h2, h3, h4, bindBytes]⟩
    · obtain ⟨path, s1, hfits, h1, h⟩ := lengthPrefixed_decodes.bind_exact h
      obtain ⟨rfl, rfl⟩ : some _ = bind ∧ s1 = r' := by simpa using h
      exact ⟨hfits, by simp [h1, bindBytes]⟩
    · obtain ⟨name, s1, hfits, h1, h⟩ := lengthPrefixed_decodes.bind_exact h
      obtain ⟨rfl, rfl⟩ : some _ = bind ∧ s1 = r' := by simpa using h
      exact ⟨hfits, by simp [h1, bindBytes]⟩
    · cases h

theorem decodeMode_decodes : Decodes decodeMode modeBytes fun _ => True where
  run mode rest _ := by
    unfold decodeMode
    cases mode with
    | none =>
      rfl
    | some mode =>
      rw [modeBytes, append_assoc, u8_decodes.bind_run trivial]
      change run (_ >>= _) _ = _
      rw [u16_decodes.bind_run trivial]
      rfl
  exact {r mode r'} h := by
    obtain ⟨tag, s, -, hr, h⟩ := u8_decodes.bind_exact h
    rw [hr]
    split at h
    · obtain ⟨rfl, rfl⟩ : none = mode ∧ s = r' := by simpa using h
      exact ⟨trivial, rfl⟩
    · obtain ⟨v, s1, -, h1, h⟩ := u16_decodes.bind_exact h
      obtain ⟨rfl, rfl⟩ : some v = mode ∧ s1 = r' := by simpa using h
      exact ⟨trivial, by rw [h1, modeBytes, append_assoc]⟩
    · cases h

open DescriptorSlot in
theorem decodeSlot_decodes : Decodes decodeSlot slotBytes SlotFits := by
  refine .congr (u16_decodes.field DescriptorSlot.id fun _ => decodeRole_decodes.field role fun _ =>
    decodeKind_decodes.field kind fun _ => decodeBind_decodes.field bind fun _ =>
    decodeMode_decodes.field mode fun _ => .record) ?_ ?_
  · simp [slotBytes]
  · simp [SlotFits]

theorem fromBits_eq_some {bits capabilities : UInt16}
    (h : fromBits bits = some capabilities) : capabilities = bits := by
  unfold fromBits at h
  split at h
  · exact (Option.some.inj h).symm
  · cases h

variable {capabilities : DescriptorCapabilities} {slots : List DescriptorSlot}

theorem decodeSlots_run (hcap : fromBits capabilities = some capabilities)
    (hlen : slots.length ≤ maxDescriptorCount) (hfits : ∀ slot ∈ slots, SlotFits slot) :
    decodeSlots (manifestBytes capabilities slots) = (.ok (capabilities, slots), []) := by
  have hcount := slotCount_toNat hlen
  have hmany := (decodeSlot_decodes.many _).run slots [] ⟨rfl, hfits⟩
  rw [append_nil] at hmany
  have hfinish : (finish : Decode Unit) [] = (.ok (), []) := finish_eq_ok.mpr ⟨rfl, rfl⟩
  rw [decodeSlots, manifestBytes, ← hcount, u16_decodes.bind_run trivial, if_neg (by decide),
    u16_decodes.bind_run trivial, hcap, okOr_some, bind_ok pure_run,
    u16_decodes.bind_run trivial, hcount, if_neg (not_lt.mpr hlen), bind_ok hmany,
    bind_ok hfinish, pure_run]

theorem decodeSlots_exact {payload r : List UInt8}
    (h : decodeSlots payload = (.ok (capabilities, slots), r)) :
    payload = manifestBytes capabilities slots ∧ ∀ slot ∈ slots, SlotFits slot := by
  obtain ⟨version, s1, -, h1, h⟩ := u16_decodes.bind_exact h
  obtain ⟨hversion, h⟩ := guard_eq_ok.mp h
  obtain ⟨bits, s2, -, h2, h⟩ := u16_decodes.bind_exact h
  cases hcap : fromBits bits with
  | none =>
    rw [hcap, okOr_none, bind_error throw_run] at h
    exact absurd (congrArg Prod.fst h) (by simp)
  | some caps =>
    rw [hcap, okOr_some, bind_ok pure_run] at h
    obtain ⟨count, s3, -, h3, h⟩ := u16_decodes.bind_exact h
    obtain ⟨hcount, h⟩ := guard_eq_ok.mp h
    obtain ⟨slots', s4, ⟨hlen, hfits⟩, h4, h⟩ := (decodeSlot_decodes.many _).bind_exact h
    obtain ⟨_, s5, hfin, h⟩ := bind_eq_ok.mp h
    obtain ⟨rfl, rfl⟩ := finish_eq_ok.mp hfin
    obtain ⟨⟨rfl, rfl⟩, rfl⟩ : (caps = capabilities ∧ slots' = slots) ∧ [] = r := by simpa using h
    obtain rfl := fromBits_eq_some hcap
    refine ⟨?_, hfits⟩
    rw [h1, h2, h3, h4, Decidable.not_not.mp hversion, manifestBytes, hlen, append_nil]

end read

/-! ### The two entry points -/

variable {m : DescriptorManifest} {payload : List UInt8}

theorem encodeAdoptRequest_eq_ok {requestId : UInt64} :
    encodeAdoptRequest requestId m = .ok payload ↔
      (∀ slot ∈ m.slots, SlotFits slot) ∧
      (manifestBytes m.capabilities m.slots).length ≤ maxManifestBytes ∧
      payload = encodeRequest requestId ++ manifestBytes m.capabilities m.slots := by
  have hw := (bytes_writes
    (beBytes 2 controlProtocolVersion.toNat)).seq
    ((bytes_writes (beBytes 8 requestId.toNat)).seq
      (encodeManifest_writes m))
  rw [encodeAdoptRequest, encode_eq_ok hw]
  simp only [true_and, length_append, Lib.length_beBytes, encodeRequest, prefixSize,
    append_assoc]
  refine and_congr_right fun _ => and_congr_left fun _ => ?_
  omega

theorem supported_capabilities : contains supportedDescriptorCapabilities m.capabilities = true :=
  contains_all m.capabilities_defined

theorem decodeManifest_eq_ok : decodeManifest payload = .ok m ↔
      (∀ slot ∈ m.slots, SlotFits slot) ∧ payload.length ≤ maxManifestBytes ∧
      payload = manifestBytes m.capabilities m.slots := by
  unfold decodeManifest
  constructor
  · intro h
    obtain ⟨hlen, h⟩ := Lib.guard_eq_ok.mp h
    obtain ⟨⟨capabilities, slots⟩, hdec, h⟩ := Lib.bind_eq_ok.mp h
    obtain ⟨m', hnew, h⟩ := Lib.bind_eq_ok.mp h
    obtain ⟨hcap, h⟩ := Lib.guard_eq_ok.mp h
    obtain ⟨-, h⟩ := Lib.guard_eq_ok.mp h
    cases h
    obtain ⟨hbytes, hfits⟩ := decodeSlots_exact (Prod.ext hdec rfl)
    rw [DescriptorManifest.new_eq_ok.mp (Lib.mapError_eq_ok.mp hnew), Decidable.not_not.mp hcap]
    exact ⟨hfits, not_lt.mp hlen, hbytes⟩
  · rintro ⟨hfits, hlen, rfl⟩
    have hrun := decodeSlots_run m.fromBits_capabilities m.bounded hfits
    have hnew : DescriptorManifest.new m.slots = .ok m := DescriptorManifest.new_eq_ok.mpr rfl
    rw [if_neg (not_lt.mpr hlen), hrun]
    simp [bind, Except.bind, hnew, Except.mapError, supported_capabilities]

/-- **The manifest codec is exact.** What is encoded is read back, and a payload that decodes is the
encoding of its manifest under every request id. -/
theorem manifest_exact : (∀ requestId m payload, encodeAdoptRequest requestId m = .ok payload →
      decodeManifest (payload.drop prefixSize) = .ok m) ∧
    (∀ payload m, decodeManifest payload = .ok m →
      ∀ requestId, encodeAdoptRequest requestId m = .ok (encodeRequest requestId ++ payload)) ∧
    (∀ payload payload' m, decodeManifest payload = .ok m → decodeManifest payload' = .ok m →
      payload = payload') := by
  refine ⟨fun requestId m payload h => ?_, fun payload m h requestId => ?_,
    fun payload payload' m h h' => ?_⟩
  · obtain ⟨hfits, hlen, rfl⟩ := encodeAdoptRequest_eq_ok.mp h
    have hdrop : (encodeRequest requestId ++ manifestBytes m.capabilities m.slots).drop
        prefixSize = manifestBytes m.capabilities m.slots := by
      rw [drop_append_of_le_length (by simp [encodeRequest, prefixSize])]
      simp [encodeRequest, prefixSize]
    rw [hdrop]
    exact decodeManifest_eq_ok.mpr ⟨hfits, hlen, rfl⟩
  · obtain ⟨hfits, hlen, rfl⟩ := decodeManifest_eq_ok.mp h
    exact encodeAdoptRequest_eq_ok.mpr ⟨hfits, hlen, rfl⟩
  · rw [(decodeManifest_eq_ok.mp h).2.2, (decodeManifest_eq_ok.mp h').2.2]

end Oxiroute.Master
