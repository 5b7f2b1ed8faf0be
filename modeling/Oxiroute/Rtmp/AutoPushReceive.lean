import Oxiroute.Rtmp.Event

/-!
# Packets of an auto-push peer

Model of `receive_loop`, `read_packet` and `decode_media` of
`crates/oxiroute-rtmp/src/auto_push.rs`, with the `Reader` of `auto_push/wire.rs`. The socket
delivers its bytes in chunks of any size, and a read may time out before the next one; what the
socket still has to deliver is a list of `Arrival`s. `receive` returns the frames it hands on and
how it ends: it stops at a bad packet, or waits, with what it has read of the next packet. The stop
flag and the AMF decoder of metadata are outside.

`read_exact` drops what it has read when a timeout ends it, and the loop then goes on as if a packet
began there. `receiveLoop_eq` says that the frames depend on the bytes alone if no timeout comes
inside a packet. `decodeAll` is the same on bytes that are all there.
-/

namespace Oxiroute.Rtmp.AutoPush

open Lib Http List Option

/-- What a read of the socket meets next. -/
inductive Arrival where
  | chunk (bytes : Bytes)
  | timeout
  deriving DecidableEq

/-- The result of a read, with what is left of the arrivals. `blocked` waits for more. -/
inductive ReadResult (α : Type) where
  | done (value : α) (rest : List Arrival)
  | timeout (rest : List Arrival)
  | invalid
  | blocked (unfinished : Bytes)
  deriving DecidableEq

inductive LoopEnd where
  | stopped
  | waiting (unfinished : Bytes)
  deriving DecidableEq

/-- What the loop has handed on. -/
structure Received (Frame : Type) where
  frames : List Frame
  ending : LoopEnd
  deriving DecidableEq

def protocolMagic : Bytes := [0x4f, 0x52, 0x41, 0x50]

def protocolVersion : UInt8 := 1

def packetMedia : UInt8 := 3

def maxPacketBytes : ℕ := 16 * 1024 * 1024 + 256

/-! ## The body of a packet -/

/-- A `Reader` keeps what is left of the bytes. -/
abbrev Reader := StateT Bytes Option

/-- `Reader::bytes` and `Reader::array`. -/
def Reader.bytes (length : ℕ) : Reader Bytes := fun left =>
  if length ≤ left.length then some (left.take length, left.drop length) else none

/-- `u8`, `u16`, `u32` and `u64`, by their width. -/
def Reader.number (width : ℕ) : Reader ℕ := ofBeBytes <$> Reader.bytes width

def Reader.string (maximum : ℕ) : Reader String := do
  let length ← Reader.number 2
  if length = 0 ∨ maximum < length then failure
  let value ← Reader.bytes length
  StateT.lift (fromUtf8 value)

def Reader.finish : Reader Unit := fun left => if left.isEmpty then some ((), left) else none

structure SourceToken where
  workerId : Bytes
  sessionId : String
  incarnation : UInt64
  deriving DecidableEq

structure AutoPushFrame where
  application : String
  streamName : String
  token : SourceToken
  sequence : UInt64
  event : MediaEvent
  deriving DecidableEq

def eventKind : MediaEventKind → ℕ
  | .metadata => 0
  | .aacSequenceHeader => 1
  | .audio => 2
  | .avcSequenceHeader => 3
  | .hevcSequenceHeader => 4
  | .av1SequenceHeader => 5
  | .videoKeyframe => 6
  | .videoInterframe => 7
  | .videoDisposable => 8

variable (decodeMetadata : Bytes → Option StreamMetadata)

def decodeEvent (kind : ℕ) (timestamp : UInt32) (payload : Bytes) : Option MediaEvent :=
  if kind = 0 then (MediaEvent.fromWire decodeMetadata timestamp payload).toOption
  else if 8 < kind then none
  else do
    let event ← (if kind = 1 ∨ kind = 2 then MediaEvent.audio timestamp payload
      else MediaEvent.video timestamp payload).toOption
    if eventKind event.kind ≠ kind then none else some event

def decodeMedia (serviceId : String) (body : Bytes) : Option AutoPushFrame :=
  if maxPacketBytes < body.length then none
  else
    StateT.run' (do
      let receivedService ← Reader.string 256
      if receivedService ≠ serviceId then failure
      let workerId ← Reader.bytes 16
      let sessionId ← Reader.string 64
      let incarnation ← Reader.number 8
      let sequence ← Reader.number 8
      let application ← Reader.string 512
      let streamName ← Reader.string 512
      let kind ← Reader.number 1
      let timestamp ← Reader.number 4
      let payloadLength ← Reader.number 4
      let payload ← Reader.bytes payloadLength
      Reader.finish
      let event ← StateT.lift (decodeEvent decodeMetadata kind (.ofNat timestamp) payload)
      return { application, streamName, event, token := ⟨workerId, sessionId, .ofNat incarnation⟩,
               sequence := .ofNat sequence }) body

/-! ## The loop -/

/-- `read_exact` of `n` bytes, of which some have been read. -/
def readExact (n : ℕ) (read : Bytes) : List Arrival → ReadResult Bytes
  | [] => if n ≤ read.length then .done (read.take n) [.chunk (read.drop n)] else .blocked read
  | .timeout :: rest =>
    if n ≤ read.length then .done (read.take n) (.chunk (read.drop n) :: .timeout :: rest)
    else .timeout rest
  | .chunk bytes :: rest =>
    if n ≤ read.length then .done (read.take n) (.chunk (read.drop n) :: .chunk bytes :: rest)
    else readExact n (read ++ bytes) rest

/-- The kind and the length of a packet, from its header. -/
def packetHeader (header : Bytes) : Option (UInt8 × ℕ) :=
  let length := ofBeBytes ((header.drop 6).take 4)
  if header.take 4 ≠ protocolMagic ∨ header.getD 4 0 ≠ protocolVersion then none
  else if maxPacketBytes < length then none
  else some (header.getD 5 0, length)

def readPacket (arrivals : List Arrival) : ReadResult (UInt8 × Bytes) :=
  match readExact 10 [] arrivals with
  | .timeout rest => .timeout rest
  | .invalid => .invalid
  | .blocked unfinished => .blocked unfinished
  | .done header rest =>
    match packetHeader header with
    | none => .invalid
    | some (kind, length) =>
      match readExact length [] rest with
      | .timeout rest => .timeout rest
      | .invalid => .invalid
      | .blocked unfinished => .blocked (header ++ unfinished)
      | .done body rest => .done (kind, body) rest

variable {Frame : Type}

/-- `receive_loop`, with fuel. `decode` is `decode_media` at the service of the worker. -/
def receiveLoop (decode : Bytes → Option Frame) : ℕ → List Arrival → Received Frame
  | 0, _ => ⟨[], .waiting []⟩
  | fuel + 1, arrivals =>
    match readPacket arrivals with
    | .timeout rest => receiveLoop decode fuel rest
    | .invalid => ⟨[], .stopped⟩
    | .blocked unfinished => ⟨[], .waiting unfinished⟩
    | .done (kind, body) rest =>
      if kind ≠ packetMedia then ⟨[], .stopped⟩
      else
        match decode body with
        | none => ⟨[], .stopped⟩
        | some frame =>
          let later := receiveLoop decode fuel rest
          ⟨frame :: later.frames, later.ending⟩

def bytesOf (arrivals : List Arrival) : Bytes :=
  arrivals.flatMap fun
    | .chunk bytes => bytes
    | .timeout => []

/-- Enough fuel: every round takes ten bytes or a timeout. -/
def fuelFor (arrivals : List Arrival) : ℕ := (bytesOf arrivals).length + arrivals.count .timeout + 1

def receive (serviceId : String) (arrivals : List Arrival) : Received AutoPushFrame :=
  receiveLoop (decodeMedia decodeMetadata serviceId) (fuelFor arrivals) arrivals

/-! ## Up to the first timeout -/

/-- The bytes before the first timeout. -/
def burst : List Arrival → Bytes
  | [] => []
  | .timeout :: _ => []
  | .chunk bytes :: rest => bytes ++ burst rest

/-- What comes after the first timeout. -/
def afterTimeout : List Arrival → Option (List Arrival)
  | [] => none
  | .timeout :: rest => some rest
  | .chunk _ :: rest => afterTimeout rest

theorem readExact_cases (n : ℕ) (read : Bytes) (arrivals : List Arrival) :
    (n ≤ (read ++ burst arrivals).length ∧ ∃ rest,
      readExact n read arrivals = .done ((read ++ burst arrivals).take n) rest ∧
        burst rest = (read ++ burst arrivals).drop n ∧ afterTimeout rest = afterTimeout arrivals) ∨
    (read ++ burst arrivals).length < n ∧ readExact n read arrivals =
      (afterTimeout arrivals).elim (.blocked (read ++ burst arrivals)) .timeout := by
  induction arrivals generalizing read with
  | nil =>
    rw [burst, append_nil, readExact]
    split_ifs with h
    · exact .inl ⟨h, _, rfl, append_nil _, rfl⟩
    · exact .inr ⟨Nat.lt_of_not_le h, rfl⟩
  | cons arrival arrivals ih =>
    cases arrival with
    | timeout =>
      rw [burst, append_nil, readExact]
      split_ifs with h
      · exact .inl ⟨h, _, rfl, append_nil _, rfl⟩
      · exact .inr ⟨Nat.lt_of_not_le h, rfl⟩
    | chunk bytes =>
      rw [burst, readExact, ← append_assoc]
      split_ifs with h
      · refine .inl ⟨?_, .chunk (read.drop n) :: .chunk bytes :: arrivals, ?_, ?_, rfl⟩
        · rw [length_append, length_append]
          omega
        · rw [append_assoc, take_append_of_le_length h]
        · rw [burst, burst, append_assoc, drop_append_of_le_length h]
      · exact ih _

/-- One round on bytes that are all there. -/
def decodeOne (bytes : Bytes) : Option (Option ((UInt8 × Bytes) × Bytes)) :=
  if bytes.length < 10 then none
  else
    match packetHeader (bytes.take 10) with
    | none => some none
    | some (kind, length) =>
      if bytes.length < 10 + length then none
      else some (some ((kind, (bytes.drop 10).take length), bytes.drop (10 + length)))

variable (arrivals : List Arrival)

/-- `read_packet` finds a packet or a bad header in the bytes before the first timeout, or loses
them. -/
theorem readPacket_cases :
    match decodeOne (burst arrivals) with
    | none => readPacket arrivals = (afterTimeout arrivals).elim (.blocked (burst arrivals))
        .timeout
    | some none => readPacket arrivals = .invalid
    | some (some (packet, left)) => ∃ rest, readPacket arrivals = .done packet rest ∧
        burst rest = left ∧ afterTimeout rest = afterTimeout arrivals := by
  unfold decodeOne readPacket
  rcases readExact_cases 10 [] arrivals with ⟨hle, rest, hread, hburst, hafter⟩ | ⟨hlt, hread⟩
  · rw [nil_append] at hle hread hburst
    rw [hread, if_neg (Nat.not_lt.mpr hle)]
    dsimp only
    cases packetHeader _ with
    | none => rfl
    | some header =>
      obtain ⟨kind, length⟩ := header
      dsimp only
      rcases readExact_cases length [] rest with ⟨hbody, rest', hread', hburst', hafter'⟩
        | ⟨hbody, hread'⟩
      · rw [nil_append, hburst, length_drop] at hbody
        rw [nil_append, hburst] at hread' hburst'
        rw [if_neg (by omega), hread']
        exact ⟨rest', rfl, by rw [hburst', drop_drop], hafter'.trans hafter⟩
      · rw [nil_append, hburst, length_drop] at hbody
        rw [nil_append, hburst, hafter] at hread'
        rw [if_pos (by omega), hread']
        cases afterTimeout arrivals with
        | none => exact congrArg _ (take_append_drop 10 _)
        | some rest => rfl
  · rw [nil_append] at hlt hread
    rw [hread, if_pos hlt]
    cases afterTimeout arrivals with
    | none | some rest => rfl

theorem bytesOf_eq :
    bytesOf arrivals = burst arrivals ++ (afterTimeout arrivals).elim [] bytesOf := by
  induction arrivals with
  | nil => rfl
  | cons arrival arrivals ih =>
    cases arrival with
    | timeout => rfl
    | chunk bytes =>
      rw [burst, afterTimeout, append_assoc, ← ih]
      rfl

theorem count_timeout :
    arrivals.count .timeout = (afterTimeout arrivals).elim 0 fun rest =>
      rest.count .timeout + 1 := by
  induction arrivals with
  | nil => rfl
  | cons arrival arrivals ih =>
    cases arrival with
    | timeout => exact count_cons_self
    | chunk bytes =>
      exact ih

/-! ## Bytes that are all there -/

/-- The loop on bytes that are all there, with fuel. -/
def decodeAll (decode : Bytes → Option Frame) : ℕ → Bytes → Received Frame
  | 0, bytes => ⟨[], .waiting bytes⟩
  | fuel + 1, bytes =>
    match decodeOne bytes with
    | none => ⟨[], .waiting bytes⟩
    | some none => ⟨[], .stopped⟩
    | some (some ((kind, body), rest)) =>
      if kind ≠ packetMedia then ⟨[], .stopped⟩
      else
        match decode body with
        | none => ⟨[], .stopped⟩
        | some frame =>
          let later := decodeAll decode fuel rest
          ⟨frame :: later.frames, later.ending⟩

/-- What the loop does with bytes that are all there. -/
def decodeBytes (decode : Bytes → Option Frame) (bytes : Bytes) : Received Frame :=
  decodeAll decode (bytes.length + 1) bytes

variable {bytes : Bytes}

theorem decodeOne_append {result : Option ((UInt8 × Bytes) × Bytes)}
    (h : decodeOne bytes = some result) {more : Bytes} :
    decodeOne (bytes ++ more) = some (result.map fun r => (r.1, r.2 ++ more)) := by
  unfold decodeOne at h ⊢
  split at h
  · cases h
  have htake : (bytes ++ more).take 10 = bytes.take 10 := take_append_of_le_length (by omega)
  rw [length_append, if_neg (by omega), htake]
  split at h
  · cases h
    rfl
  · split at h
    · cases h
    · cases h
      rw [if_neg (by omega), drop_append_of_le_length (by omega),
        drop_append_of_le_length (by omega), take_append_of_le_length (by rw [length_drop]; omega)]
      rfl

/-- A round takes the bytes of its packet off the front, whatever follows them. -/
theorem decodeOne_eq_some {left : Bytes} {packet : UInt8 × Bytes}
    (h : decodeOne bytes = some (some (packet, left))) :
    ∃ taken, bytes = taken ++ left ∧ 0 < taken.length ∧
      ∀ more, decodeOne (taken ++ more) = some (some (packet, more)) := by
  unfold decodeOne at h
  split at h
  · cases h
  split at h
  · cases h
  rename_i kind length hheader
  split at h
  · cases h
  cases h
  have htaken : (bytes.take (10 + length)).length = 10 + length := length_take_of_le (by omega)
  refine ⟨bytes.take _, (take_append_drop _ bytes).symm, by omega, fun more => ?_⟩
  have hone : decodeOne (bytes.take (10 + length)) =
      some (some ((kind, (bytes.drop 10).take length), [])) := by
    have htake : (bytes.take (10 + length)).take 10 = bytes.take 10 := by
      rw [take_take, Nat.min_eq_left (by omega)]
    rw [decodeOne, htaken, if_neg (by omega), htake, hheader]
    dsimp only
    rw [if_neg (by omega), drop_take, Nat.add_sub_cancel_left, take_take, Nat.min_self,
      drop_eq_nil_of_le htaken.le]
  exact (decodeOne_append hone).trans rfl

variable {decode : Bytes → Option Frame} {fuel : ℕ} {seen : Bytes} {arrivals : List Arrival}

theorem decodeAll_fuel (h : bytes.length < fuel) :
    decodeAll decode fuel bytes = decodeBytes decode bytes := by
  induction fuel using Nat.strong_induction_on generalizing bytes with
  | _ fuel ih =>
    obtain ⟨fuel, rfl⟩ := Nat.exists_eq_succ_of_ne_zero (Nat.ne_zero_of_lt h)
    rw [decodeBytes, decodeAll, decodeAll]
    cases hone : decodeOne bytes with
    | none => rfl
    | some result =>
      cases result with
      | none => rfl
      | some packet =>
        obtain ⟨⟨kind, body⟩, left⟩ := packet
        obtain ⟨taken, rfl, hpos, -⟩ := decodeOne_eq_some hone
        rw [length_append] at h ⊢
        dsimp only
        rw [ih fuel (Nat.lt_succ_self _) (by omega)]
        by_cases hsmall : taken.length + left.length < fuel + 1
        · rw [ih _ hsmall (by omega)]
        · omega

theorem decodeBytes_eq :
    decodeBytes decode bytes =
      match decodeOne bytes with
      | none => ⟨[], .waiting bytes⟩
      | some none => ⟨[], .stopped⟩
      | some (some ((kind, body), rest)) =>
        if kind ≠ packetMedia then ⟨[], .stopped⟩
        else
          match decode body with
          | none => ⟨[], .stopped⟩
          | some frame =>
            ⟨frame :: (decodeBytes decode rest).frames, (decodeBytes decode rest).ending⟩ := by
  rw [decodeBytes, decodeAll]
  cases hone : decodeOne bytes with
  | none => rfl
  | some result =>
    cases result with
    | none => rfl
    | some packet =>
      obtain ⟨taken, rfl, hpos, -⟩ := decodeOne_eq_some hone
      rw [length_append]
      dsimp only
      rw [decodeAll_fuel (by omega)]

/-! ## Timeouts between packets -/

/-- What has arrived before each timeout, behind some bytes. -/
def timeoutPoints (seen : Bytes) : List Arrival → List Bytes
  | [] => []
  | .timeout :: rest => seen :: timeoutPoints seen rest
  | .chunk bytes :: rest => timeoutPoints (seen ++ bytes) rest

theorem timeoutPoints_eq : timeoutPoints seen arrivals = (afterTimeout arrivals).elim [] fun rest =>
      (seen ++ burst arrivals) :: timeoutPoints (seen ++ burst arrivals) rest := by
  induction arrivals generalizing seen with
  | nil => rfl
  | cons arrival arrivals ih =>
    cases arrival with
    | timeout =>
      rw [burst, append_nil]
      rfl
    | chunk bytes =>
      rw [timeoutPoints, ih, burst, append_assoc]
      rfl

/-- A timeout finds the loop between two packets, or ended. -/
def Settled (decode : Bytes → Option Frame) (bytes : Bytes) : Prop :=
  (decodeBytes decode bytes).ending = .stopped ∨ (decodeBytes decode bytes).ending = .waiting []

instance (decode : Bytes → Option Frame) (bytes : Bytes) : Decidable (Settled decode bytes) :=
  inferInstanceAs (Decidable (_ ∨ _))

/-- The loop, if every timeout finds it between two packets. `seen` are the packets that it has
read. -/
theorem receiveLoop_eq (hfuel : fuelFor arrivals ≤ fuel)
    (hseen : ∀ more, (decodeBytes decode (seen ++ more)).ending = (decodeBytes decode more).ending)
    (h : ∀ bytes ∈ timeoutPoints seen arrivals, Settled decode bytes) :
    receiveLoop decode fuel arrivals = decodeBytes decode (bytesOf arrivals) := by
  induction fuel generalizing arrivals seen with
  | zero => exact absurd hfuel (Nat.not_succ_le_zero _)
  | succ fuel ih =>
    have hpacket := readPacket_cases arrivals
    have hbytes := bytesOf_eq arrivals
    have hcount := count_timeout arrivals
    rw [timeoutPoints_eq] at h
    rw [fuelFor, hbytes, length_append] at hfuel
    rw [receiveLoop, decodeBytes_eq, hbytes]
    cases hone : decodeOne (burst arrivals) with
    | none =>
      rw [hone] at hpacket
      rw [hpacket]
      cases hafter : afterTimeout arrivals with
      | none =>
        rw [elim_none, elim_none, append_nil, hone]
      | some rest =>
        -- the timeout has found nothing of a packet
        rw [hafter] at h hfuel hcount
        have hsettled := h _ mem_cons_self
        have hwaiting :
          (decodeBytes decode (burst arrivals)).ending = .waiting (burst arrivals) := by
          rw [decodeBytes_eq, hone]
        rw [Settled, hseen, hwaiting] at hsettled
        have hempty : burst arrivals = [] := by simpa using hsettled
        rw [hempty, append_nil] at h
        rw [elim_some, elim_some, hempty, nil_append, ← decodeBytes_eq]
        refine ih ?_ hseen (fun bytes hmem => h bytes (mem_cons_of_mem _ hmem))
        simp only [elim_some] at hfuel hcount
        rw [fuelFor]
        omega
    | some result =>
      rw [decodeOne_append hone]
      rw [hone] at hpacket
      cases result with
      | none => rw [hpacket]; rfl
      | some packet =>
        obtain ⟨⟨kind, body⟩, left⟩ := packet
        obtain ⟨rest, hread, hburst, hafter⟩ := hpacket
        obtain ⟨taken, htaken, hpos, hagain⟩ := decodeOne_eq_some hone
        have hrest : bytesOf rest = left ++ (afterTimeout arrivals).elim [] bytesOf := by
          rw [bytesOf_eq rest, hburst, hafter]
        rw [hread, map_some]
        dsimp only
        by_cases hkind : kind = packetMedia
        · cases hdecode : decode body with
          | none => rfl
          | some frame =>
            have hstep : ∀ more, (decodeBytes decode (seen ++ taken ++ more)).ending =
                (decodeBytes decode more).ending := by
              intro more
              rw [append_assoc, hseen, decodeBytes_eq, hagain]
              simp [hkind, hdecode]
            have hpoints : timeoutPoints (seen ++ taken) rest = (afterTimeout arrivals).elim []
                fun rest => (seen ++ burst arrivals) :: timeoutPoints (seen ++ burst arrivals)
                  rest := by
              rw [timeoutPoints_eq, hburst, hafter, append_assoc, ← htaken]
            have hless : fuelFor rest ≤ fuel := by
              have hcount' := count_timeout rest
              rw [hafter, ← hcount] at hcount'
              rw [htaken, length_append] at hfuel
              rw [fuelFor, hrest, length_append, hcount']
              omega
            rw [ih hless hstep (hpoints ▸ h), hrest]
        · rw [if_pos hkind, if_pos hkind]

/-- **The frames depend on the bytes alone**, if no timeout comes inside a packet. -/
theorem receive_eq_of_settled {serviceId : String} {arrivals : List Arrival}
    (h : ∀ bytes ∈ timeoutPoints [] arrivals,
      Settled (decodeMedia decodeMetadata serviceId) bytes) :
    receive decodeMetadata serviceId arrivals =
      receive decodeMetadata serviceId [.chunk (bytesOf arrivals)] := by
  have hall : ∀ {arrivals : List Arrival}, (∀ bytes ∈ timeoutPoints [] arrivals,
      Settled (decodeMedia decodeMetadata serviceId) bytes) →
      receive decodeMetadata serviceId arrivals =
        decodeBytes (decodeMedia decodeMetadata serviceId) (bytesOf arrivals) :=
    fun h => receiveLoop_eq (Nat.le_refl _) (fun _ => rfl) h
  rw [hall h, hall (fun _ hmem => absurd hmem not_mem_nil)]
  exact congrArg _ (append_nil _).symm

/-- A packet of the service `s` with an audio event of one byte, for the stream `b` of `a`. -/
def smallPacket : Bytes :=
  protocolMagic ++ [protocolVersion, packetMedia, 0, 0, 0, 54, 0, 1, 115] ++ replicate 16 7 ++
    [0, 1, 97] ++ beBytes 8 1 ++ beBytes 8 1 ++ [0, 1, 97, 0, 1, 98, 2] ++ beBytes 4 0 ++
    beBytes 4 1 ++ [0xb3]

def smallFrame : AutoPushFrame where
  application := "a"
  streamName := "b"
  token := ⟨replicate 16 7, "a", 1⟩
  sequence := 1
  event := ⟨.audio, 0, [0xb3], none, none, none, by decide, MediaEvent.classified_audio rfl⟩

theorem receive_eq_of_settled_chunks :
    receive (fun _ => none) "s"
        [.timeout, .chunk (smallPacket.take 7), .chunk (smallPacket.drop 7), .timeout] =
      receive (fun _ => none) "s" [.chunk smallPacket] :=
  receive_eq_of_settled (fun _ => none) (by decide)

/-- A timeout behind the seventh byte of the packet: it is never handed on. -/
theorem receive_loses_packet :
    receive (fun _ => none) "s" [.chunk smallPacket] = ⟨[smallFrame], .waiting []⟩ ∧
      receive (fun _ => none) "s"
          [.chunk (smallPacket.take 7), .timeout, .chunk (smallPacket.drop 7)] =
        ⟨[], .stopped⟩ := by
  decide

end Oxiroute.Rtmp.AutoPush
