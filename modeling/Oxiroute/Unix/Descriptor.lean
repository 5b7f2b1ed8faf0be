import Mathlib.Tactic.Common

/-!
# Descriptor manifests

Model of the manifest half of `oxiroute-supervision-unix/src/descriptor.rs`: what a manifest says
of each transferred descriptor, and the checks `DescriptorManifest::new` makes. A
`DescriptorManifest` carries the outcome of those checks. A `PathBuf` is its bytes, an `Ipv4Addr`
or `Ipv6Addr` its octets.

Out of scope: `DescriptorSet`, which inspects kernel descriptors.
-/

namespace Oxiroute.Unix

def maxDescriptorCount : ℕ := 64

abbrev SlotId := UInt16

/-- `DescriptorCapabilities`, as its bits. -/
abbrev DescriptorCapabilities := UInt16

namespace DescriptorCapabilities

def stream : DescriptorCapabilities := 0x0001

def datagram : DescriptorCapabilities := 0x0002

def quic : DescriptorCapabilities := 0x0004

def all : DescriptorCapabilities := stream ||| datagram ||| quic

def contains (capabilities required : DescriptorCapabilities) : Bool :=
  capabilities &&& required == required

def fromBits (bits : UInt16) : Option DescriptorCapabilities :=
  if bits &&& ~~~all = 0 then some bits else none

theorem contains_all {bits : UInt16} (h : bits &&& ~~~all = 0) : all.contains bits = true := by
  unfold contains
  rw [beq_iff_eq]
  refine UInt16.toBitVec_inj.mp ?_
  ext i hi
  simpa using congrArg (fun v : UInt16 => v.toBitVec[i]) h

end DescriptorCapabilities

inductive DescriptorRole where
  | traffic (name : String)
  | management
  | stats (index : UInt16)
  | statsPage (index : UInt16)
  | state
  | control
  deriving DecidableEq

inductive DescriptorKind where
  | tcpListener
  | unixListener
  | datagramListener
  | quicListener
  | opaqueObject
  deriving DecidableEq

def DescriptorKind.capability : DescriptorKind → DescriptorCapabilities
  | .tcpListener | .unixListener => .stream
  | .datagramListener => .datagram
  | .quicListener => .quic
  | .opaqueObject => 0

/-- `SocketAddr`: an IPv4 or IPv6 address with its port. -/
inductive SocketAddr where
  | v4 (ip : Vector UInt8 4) (port : UInt16)
  | v6 (ip : Vector UInt8 16) (port : UInt16) (flowinfo scopeId : UInt32)
  deriving DecidableEq

inductive BindIdentity where
  | tcp (address : SocketAddr)
  | unixPath (path : List UInt8)
  | unixAbstract (name : List UInt8)
  deriving DecidableEq

structure DescriptorSlot where
  id : SlotId
  role : DescriptorRole
  kind : DescriptorKind
  bind : Option BindIdentity
  mode : Option UInt16
  deriving DecidableEq

/-- `DescriptorError`, as far as a manifest check returns it. -/
inductive DescriptorError where
  | manifestTooLarge (actual maximum : ℕ)
  | duplicateSlot (slot : SlotId)
  | incompatibleBind (slot : SlotId)
  | incompatibleMode (slot : SlotId)
  deriving DecidableEq

/-- The bind a slot names is one its kind can have. -/
def DescriptorSlot.compatible (slot : DescriptorSlot) : Bool :=
  match slot.kind, slot.bind with
  | _, none => true
  | .tcpListener, some (.tcp _) | .datagramListener, some (.tcp _)
  | .quicListener, some (.tcp _) => true
  | .unixListener, some (.unixPath _) | .unixListener, some (.unixAbstract _) => true
  | _, _ => false

/-- A slot that may carry a file mode: a listener on a filesystem path. -/
def DescriptorSlot.hasPath (slot : DescriptorSlot) : Bool :=
  match slot.kind, slot.bind with
  | .unixListener, some (.unixPath _) => true
  | _, _ => false

/-- The loop of `DescriptorManifest::new` over the slots, after the ids already seen. -/
def checkSlots : List SlotId → List DescriptorSlot → Except DescriptorError Unit
  | _, [] => .ok ()
  | ids, slot :: slots =>
    if slot.id ∈ ids then .error (.duplicateSlot slot.id)
    else if ¬ slot.compatible then .error (.incompatibleBind slot.id)
    else if slot.mode.isSome ∧ ¬ slot.hasPath then .error (.incompatibleMode slot.id)
    else checkSlots (slot.id :: ids) slots

/-- `DescriptorManifest`: slots that passed the checks of `new`. -/
structure DescriptorManifest where
  slots : List DescriptorSlot
  bounded : slots.length ≤ maxDescriptorCount
  checked : checkSlots [] slots = .ok ()

namespace DescriptorManifest

def new (slots : List DescriptorSlot) : Except DescriptorError DescriptorManifest :=
  if hlen : maxDescriptorCount < slots.length then
    .error (.manifestTooLarge slots.length maxDescriptorCount)
  else
    match hc : checkSlots [] slots with
    | .ok () => .ok ⟨slots, Nat.not_lt.mp hlen, hc⟩
    | .error e => .error e

def capabilities (m : DescriptorManifest) : DescriptorCapabilities :=
  m.slots.foldl (fun all slot => all ||| slot.kind.capability) 0

variable {m : DescriptorManifest}

theorem new_eq_ok {slots : List DescriptorSlot} : new slots = .ok m ↔ m.slots = slots := by
  unfold new
  constructor
  · intro h
    split at h
    · cases h
    · split at h
      · cases h
        rfl
      · cases h
  · rintro rfl
    rw [dif_neg (Nat.not_lt.mpr m.bounded)]
    split
    · rfl
    · rename_i e he
      rw [m.checked] at he
      cases he

theorem capabilities_defined : m.capabilities &&& ~~~DescriptorCapabilities.all = 0 := by
  suffices h : ∀ (slots : List DescriptorSlot) (acc : DescriptorCapabilities),
      acc &&& ~~~DescriptorCapabilities.all = 0 → slots.foldl _ acc &&&
        ~~~DescriptorCapabilities.all = 0 by
    exact h m.slots 0 (by decide)
  intro slots
  induction slots with
  | nil => exact fun _ h => h
  | cons slot slots ih =>
    intro acc hacc
    refine ih _ ?_
    have hdist : (acc ||| slot.kind.capability) &&& ~~~DescriptorCapabilities.all =
        (acc &&& ~~~DescriptorCapabilities.all) |||
          (slot.kind.capability &&& ~~~DescriptorCapabilities.all) :=
      UInt16.toBitVec_inj.mp BitVec.and_or_distrib_right
    rw [hdist, hacc]
    cases slot.kind <;> decide

theorem fromBits_capabilities :
    DescriptorCapabilities.fromBits m.capabilities = some m.capabilities :=
  if_pos m.capabilities_defined

end DescriptorManifest

end Oxiroute.Unix
