import Oxiroute.Rtmp.MediaParser

/-!
# The transport stream of a segment

Model of `TsMuxer` of `crates/oxiroute-rtmp/src/media_segmenter.rs`. What is written is one unit
after another, two tables and then a PES packet for every sample that is accepted, and a unit is cut
into packets of 188 bytes.

* `run_written`: the packets give back the units, and the counter of every PID counts them.
* `pes_fields`: the PTS field of every sample has its marker bits and the presentation time, but not
  its prefix, and the length of the packet is wrong for every audio sample.
-/

namespace Oxiroute.Rtmp

open Lib Http List

/-- `AvcConfig`. The length of a NAL unit has one to four bytes. -/
structure AvcConfig where
  nalLengthSize : ℕ
  sps : List Bytes
  pps : List Bytes
  positive : 0 < nalLengthSize

structure AacConfig where
  profile : UInt8
  sampleRateIndex : UInt8
  channelConfiguration : UInt8

/-- `TsMuxer`. A PID that has no counter yet counts from zero. -/
structure TsMuxer where
  bytes : Bytes
  video : AvcConfig
  audio : AacConfig
  continuity : UInt16 → UInt8

/-- An event that `write_video` or `write_audio` is called with. -/
inductive TsSample where
  | video (payload : Bytes) (timestampMs startTimestampMs : UInt32) (keyframe : Bool)
  | audio (payload : Bytes) (timestampMs startTimestampMs : UInt32)

namespace TsMuxer

def videoPid : UInt16 := 0x0101

def audioPid : UInt16 := 0x0102

def pmtPid : UInt16 := 0x1000

/-- The adaptation field before `n` bytes of payload, filled up from the array `[0xff; 188]`. -/
def adaptation (n : ℕ) : Bytes :=
  if n < 184 then UInt8.ofNat (183 - n) :: (0 :: replicate 182 0xff).take (183 - n) else []

/-- A packet of `write_payload`. -/
def packet (pid : UInt16) (start : Bool) (continuity : UInt8) (chunk : Bytes) : Bytes :=
  let first := ((pid >>> 8) &&& 0x1f).toUInt8 ||| ((if start then 1 else 0 : UInt8) <<< 6)
  let control : UInt8 := if chunk.length < 184 then 0x30 else 0x10
  0x47 :: first :: (pid &&& 0xff).toUInt8 :: ((continuity &&& 0x0f) ||| control) ::
    (adaptation chunk.length ++ chunk)

/-- The loop of `write_payload`: the packets, and the counter after them. -/
def packets (pid : UInt16) (start : Bool) (continuity : UInt8) (payload : Bytes) :
    List Bytes × UInt8 :=
  if payload = [] then ([], continuity)
  else
    let (rest, next) := packets pid false ((continuity + 1) &&& 0x0f) (payload.drop 184)
    (packet pid start continuity (payload.take 184) :: rest, next)
termination_by payload.length
decreasing_by
  have := length_pos_iff.mpr ‹_›
  simp
  omega

def writePayload (pid : UInt16) (start : Bool) (payload : Bytes) (m : TsMuxer) : TsMuxer :=
  let (written, next) := packets pid start (m.continuity pid) payload
  { m with
    bytes := m.bytes ++ written.flatten
    continuity := Function.update m.continuity pid next }

/-- One bit of `mpeg_crc32`. -/
def mpegCrc32Bit (crc : UInt32) : UInt32 :=
  if crc &&& 0x80000000 ≠ 0 then (crc <<< 1) ^^^ 0x04c11db7 else crc <<< 1

def mpegCrc32 (bytes : Bytes) : UInt32 :=
  bytes.foldl (fun crc byte => mpegCrc32Bit^[8] (crc ^^^ byte.toUInt32 <<< (24 : UInt32)))
    0xffffffff

/-- The payload of `write_psi`, with the checksum its callers append to the table. -/
def psi (table : Bytes) : Bytes := 0 :: table ++ beBytes 4 (mpegCrc32 table).toNat

/-- The payload of `write_pat`. -/
def pat : Bytes :=
  psi [0x00, 0xb0, 0x0d, 0x00, 0x01, 0xc1, 0x00, 0x00, 0x00, 0x01, 0xf0, 0x00]

/-- The payload of `write_pmt`. -/
def pmt : Bytes :=
  psi [0x02, 0xb0, 0x17, 0x00, 0x01, 0xc1, 0x00, 0x00, 0xe1, 0x01, 0xf0, 0x00, 0x1b, 0xe1, 0x01,
    0xf0, 0x00, 0x0f, 0xe1, 0x02, 0xf0, 0x00]

/-- `TsMuxer::new`. -/
def new (video : AvcConfig) (audio : AacConfig) : TsMuxer :=
  writePayload pmtPid true pmt (writePayload 0 true pat ⟨[], video, audio, fun _ => 0⟩)

/-- `encode_pts`; no byte is over 255. -/
def encodePts (value : ℕ) (marker : Bool) : Bytes :=
  let value := value % 2 ^ 33
  [UInt8.ofNat (16 * marker.toNat + 2 * (value / 2 ^ 30 % 8) + 1),
    UInt8.ofNat (value / 2 ^ 22 % 256), UInt8.ofNat (2 * (value / 2 ^ 15 % 128) + 1),
    UInt8.ofNat (value / 2 ^ 7 % 256), UInt8.ofNat (2 * (value % 128) + 1)]

/-- The packet of `write_pes`; the decoding time is not written. -/
def pes (streamId : UInt8) (pts : ℕ) (payload : Bytes) : Bytes :=
  let packetLength :=
    if streamId = 0xe0 then 0
    else if payload.length + 13 < 2 ^ 16 then payload.length + 13 else 0
  [0, 0, 1, streamId] ++
    (beBytes 2 packetLength ++ ([0x80, 0x80, 5] ++ (encodePts pts false ++ payload)))

/-- `append_length_prefixed_nalus`: what it appends. -/
def lengthPrefixedNalus (video : AvcConfig) (bytes : Bytes) : Option Bytes :=
  if bytes = [] then some []
  else if bytes.length < video.nalLengthSize then none
  else
    let length := ofBeBytes (bytes.take video.nalLengthSize)
    let rest := bytes.drop video.nalLengthSize
    if rest.length < length then none
    else do
      let nalus ← lengthPrefixedNalus video (rest.drop length)
      some ((if rest.take length = [] then [] else [0, 0, 0, 1] ++ rest.take length) ++ nalus)
termination_by bytes.length
decreasing_by
  have := length_pos_iff.mpr ‹_›
  have := video.positive
  simp only [length_drop]
  omega

def signed24 (a b c : UInt8) : ℤ :=
  let value : ℤ := ofBeBytes [a, b, c]
  if 2 ^ 23 ≤ value then value - 2 ^ 24 else value

/-- `relative_timestamp`, and with a composition time `relative_timestamp_with_composition`. -/
def relativeTimestamp (timestampMs startTimestampMs : UInt32) (compositionTime : ℤ) : ℕ :=
  90000 + ((timestampMs.toNat : ℤ) + compositionTime - startTimestampMs.toNat).toNat * 90

/-- The start codes and parameter sets that `write_video` puts before a keyframe. -/
def keyframeStart (video : AvcConfig) : Bytes :=
  [0, 0, 0, 1, 0x09, 0xf0] ++ (video.sps ++ video.pps).flatMap fun nalu => [0, 0, 0, 1] ++ nalu

/-- The header of `write_audio`. -/
def adts (audio : AacConfig) (frameLength : ℕ) : Bytes :=
  [0xff, 0xf1, (audio.profile <<< 6) ||| (audio.sampleRateIndex <<< 2) |||
      (audio.channelConfiguration >>> 2),
    ((audio.channelConfiguration &&& 0x03) <<< 6) ||| UInt8.ofNat (frameLength / 2 ^ 11 % 4),
    UInt8.ofNat (frameLength / 2 ^ 3 % 256), UInt8.ofNat (frameLength % 8 * 2 ^ 5) ||| 0x1f, 0xfc]

def presentationTime : TsSample → ℕ
  | .video (_ :: _ :: a :: b :: c :: _) timestampMs startTimestampMs _ =>
    relativeTimestamp timestampMs startTimestampMs (signed24 a b c)
  | .video _ timestampMs startTimestampMs _ => relativeTimestamp timestampMs startTimestampMs 0
  | .audio _ timestampMs startTimestampMs => relativeTimestamp timestampMs startTimestampMs 0

/-- The payload of the PES packet that `write_video` and `write_audio` make of a sample. -/
def accessUnit (video : AvcConfig) (audio : AacConfig) : TsSample → Option Bytes
  | .video payload _ _ keyframe =>
    if payload.length < 9 ∨ payload[1]? ≠ some 1 then none
    else do
      let nalus ← lengthPrefixedNalus video (payload.drop 5)
      let accessUnit := (if keyframe then keyframeStart video else []) ++ nalus
      if accessUnit = [] then none else some accessUnit
  | .audio payload _ _ =>
    if payload.length < 3 ∨ (payload.headD 0) >>> 4 ≠ 10 ∨ payload[1]? ≠ some 1 then none
    else if 0x1fff < (payload.drop 2).length + 7 then none
    else some (adts audio ((payload.drop 2).length + 7) ++ payload.drop 2)

/-- The PES packet of a sample, and its PID. -/
def unit (video : AvcConfig) (audio : AacConfig) (sample : TsSample) : Option (UInt16 × Bytes) :=
  (accessUnit video audio sample).map fun payload =>
    match sample with
    | .video .. => (videoPid, pes 0xe0 (presentationTime sample) payload)
    | .audio .. => (audioPid, pes 0xc0 (presentationTime sample) payload)

/-- `write_video` and `write_audio`. -/
def write (m : TsMuxer) (sample : TsSample) : TsMuxer :=
  match unit m.video m.audio sample with
  | none => m
  | some (pid, payload) => m.writePayload pid true payload

/-! ## Packets -/

/-- The payload-unit-start flag of a packet. -/
def startOf (p : Bytes) : Bool := p.getD 1 0 &&& 0x40 ≠ 0

def pidOf (p : Bytes) : UInt16 := ((p.getD 1 0).toUInt16 &&& 0x1f) <<< 8 ||| (p.getD 2 0).toUInt16

def counterOf (p : Bytes) : UInt8 := p.getD 3 0 &&& 0x0f

/-- A packet without its header and adaptation field. -/
def bodyOf (p : Bytes) : Bytes :=
  if p.getD 3 0 &&& 0x20 ≠ 0 then p.drop (5 + (p.getD 4 0).toNat) else p.drop 4

def pids : List UInt16 := [0, pmtPid, videoPid, audioPid]

/-- What a reader finds in a packet. -/
structure Carries (p : Bytes) (pid : UInt16) (start : Bool) (counter : ℕ) (chunk : Bytes) :
    Prop where
  length : p.length = 188
  sync : p.head? = some 0x47
  pid : pidOf p = pid
  start : startOf p = start
  counter : counterOf p = UInt8.ofNat (counter % 16)
  body : bodyOf p = chunk

theorem length_adaptation {n : ℕ} (h : n ≤ 184) : (adaptation n).length + n = 184 := by
  unfold adaptation
  split_ifs
  · rw [length_cons, length_take, length_cons, length_replicate]
    omega
  · rw [length_nil]
    omega

variable {pid : UInt16} {start : Bool} {counter : ℕ} {chunk payload : Bytes} {written : List Bytes}

theorem carries_packet (hpid : pid ∈ pids) (hchunk : chunk.length ≤ 184) :
    Carries (packet pid start (UInt8.ofNat (counter % 16)) chunk) pid start counter chunk := by
  have hfirst : ∀ pid ∈ pids, ∀ start : Bool,
      let first := ((pid >>> 8) &&& 0x1f).toUInt8 ||| ((if start then 1 else 0 : UInt8) <<< 6)
      decide (first &&& 0x40 ≠ 0) = start ∧
        (first.toUInt16 &&& 0x1f) <<< 8 ||| (pid &&& 0xff).toUInt8.toUInt16 = pid := by
    rw [pids, forall_mem_cons, forall_mem_cons, forall_mem_cons, forall_mem_singleton]
    decide
  have hcontrol : ∀ n < 16, ∀ long : Bool,
      let control : UInt8 := (UInt8.ofNat n &&& 0x0f) ||| if long then 0x30 else 0x10
      control &&& 0x0f = UInt8.ofNat n ∧ decide (control &&& 0x20 ≠ 0) = long := by decide
  obtain ⟨hstart, hpid⟩ := hfirst pid hpid start
  obtain ⟨hcounter, hflag⟩ :=
    hcontrol _ (Nat.mod_lt counter (by decide)) (decide (chunk.length < 184))
  simp only [decide_eq_true_eq] at hcounter hflag
  refine ⟨?_, rfl, hpid, hstart, hcounter, ?_⟩
  · have := length_adaptation hchunk
    simp [packet]
    omega
  · by_cases hshort : chunk.length < 184
    · have hbyte : (UInt8.ofNat (183 - chunk.length)).toNat = 183 - chunk.length :=
        Nat.mod_eq_of_lt (by omega)
      rw [bodyOf, if_pos]
      · simp only [packet, adaptation, if_pos hshort]
        change drop (5 + (UInt8.ofNat (183 - chunk.length)).toNat) _ = _
        rw [hbyte, add_comm]
        change drop (183 - chunk.length) (_ ++ chunk) = _
        refine drop_left' ?_
        rw [length_take, length_cons, length_replicate]
        omega
      · exact of_decide_eq_true (hflag.trans (decide_eq_true hshort))
    · rw [bodyOf, if_neg]
      · simp [packet, adaptation, if_neg hshort]
      · exact of_decide_eq_false (hflag.trans (decide_eq_false hshort))

/-- The packets of a unit, the first with its start flag, counted from `counter` on. -/
inductive Cut (pid : UInt16) : Bool → ℕ → Bytes → List Bytes → Prop where
  | nil {start : Bool} {counter : ℕ} : Cut pid start counter [] []
  | cons {start : Bool} {counter : ℕ} {chunk payload p : Bytes} {rest : List Bytes} :
    Carries p pid start counter chunk → Cut pid false (counter + 1) payload rest →
      Cut pid start counter (chunk ++ payload) (p :: rest)

theorem packets_eq (hpid : pid ∈ pids) (start : Bool) (counter : ℕ) (payload : Bytes) :
    ∃ written, packets pid start (UInt8.ofNat (counter % 16)) payload =
        (written, UInt8.ofNat ((counter + written.length) % 16)) ∧
      Cut pid start counter payload written := by
  induction hn : payload.length using Nat.strong_induction_on
    generalizing start counter payload with
  | _ n ih =>
    rw [packets]
    split_ifs with hnil
    · exact ⟨[], rfl, hnil ▸ .nil⟩
    · have hpos := length_pos_iff.mpr hnil
      obtain ⟨rest, hrest, hcut⟩ := ih (payload.drop 184).length (by rw [length_drop]; omega) false
        (counter + 1) (payload.drop 184) rfl
      have hnext : ∀ n < 16, (UInt8.ofNat n + 1) &&& 0x0f = UInt8.ofNat ((n + 1) % 16) := by decide
      rw [hnext _ (Nat.mod_lt _ (by decide)), Nat.mod_add_mod, hrest]
      refine ⟨_, by rw [length_cons, add_right_comm, ← add_assoc], ?_⟩
      have hpacket : Carries _ pid start counter (payload.take 184) :=
        carries_packet hpid (length_take_le 184 payload)
      have hcons := Cut.cons hpacket hcut
      rwa [take_append_drop] at hcons

theorem Cut.body (h : Cut pid start counter payload written) :
    written.flatMap bodyOf = payload := by
  induction h with
  | nil => rfl
  | cons hp _ ih => rw [flatMap_cons, hp.body, ih]

theorem Cut.getElem? (h : Cut pid start counter payload written) {i : ℕ} {p : Bytes}
    (hi : written[i]? = some p) :
    ∃ chunk, Carries p pid (start && decide (i = 0)) (counter + i) chunk := by
  induction h generalizing i with
  | nil => cases hi
  | @cons start counter chunk _ _ _ hp _ ih =>
    cases i with
    | zero =>
      cases hi
      exact ⟨chunk, by simpa using hp⟩
    | succ i =>
      obtain ⟨chunk, hcarries⟩ := ih hi
      rw [add_right_comm, add_assoc] at hcarries
      exact ⟨chunk, by simpa using hcarries⟩

theorem Cut.counters (h : Cut pid start counter payload written) :
    written.map counterOf = (range' counter written.length).map fun i => UInt8.ofNat (i % 16) := by
  induction h with
  | nil => rfl
  | cons hp _ ih => rw [map_cons, length_cons, range'_succ, map_cons, hp.counter, ih]

/-! ## The stream -/

/-- The units that are written: the two tables and the samples that are accepted. -/
def units (video : AvcConfig) (audio : AacConfig) (samples : List TsSample) :
    List (UInt16 × Bytes) :=
  (0, pat) :: (pmtPid, pmt) :: samples.filterMap (unit video audio)

theorem foldl_write (samples : List TsSample) (m : TsMuxer) : samples.foldl write m =
    (samples.filterMap (unit m.video m.audio)).foldl
      (fun m u => m.writePayload u.1 true u.2) m := by
  induction samples generalizing m with
  | nil => rfl
  | cons sample samples ih =>
    rw [foldl_cons, ih, write]
    cases hunit : unit m.video m.audio sample with
    | none => rw [filterMap_cons_none hunit]
    | some u => rw [filterMap_cons_some hunit, foldl_cons]; rfl

variable {video : AvcConfig} {audio : AacConfig} {samples : List TsSample}

theorem mem_pids {u : UInt16 × Bytes} (hu : u ∈ units video audio samples) : u.1 ∈ pids := by
  simp only [units, mem_cons, mem_filterMap] at hu
  rcases hu with rfl | rfl | ⟨sample, -, hunit⟩
  · decide
  · decide
  · obtain ⟨payload, -, rfl⟩ := Option.map_eq_some_iff.mp hunit
    cases sample
    · exact show videoPid ∈ pids by decide
    · exact show audioPid ∈ pids by decide

/-- Every counter goes on from where it is. -/
theorem foldl_writePayload {us : List (UInt16 × Bytes)} (hus : ∀ u ∈ us, u.1 ∈ pids) {m : TsMuxer}
    {count : UInt16 → ℕ} (hm : ∀ pid, m.continuity pid = UInt8.ofNat (count pid % 16)) :
    ∃ written : List (List Bytes),
      (us.foldl (fun m u => m.writePayload u.1 true u.2) m).bytes =
        m.bytes ++ written.flatten.flatten ∧
      Forall₂ (fun u ps => ∃ counter, Cut u.1 true counter u.2 ps) us written ∧
      ∀ pid, (written.flatten.filter (pidOf · = pid)).map counterOf =
        (range' (count pid) (written.flatten.filter (pidOf · = pid)).length).map fun i =>
          UInt8.ofNat (i % 16) := by
  induction us generalizing m count with
  | nil => exact ⟨[], (append_nil _).symm, .nil, fun _ => rfl⟩
  | cons u us ih =>
    obtain ⟨ps, hps, hcut⟩ := packets_eq (hus u mem_cons_self) true (count u.1) u.2
    rw [← hm] at hps
    have hnext : ∀ pid, (m.writePayload u.1 true u.2).continuity pid =
        UInt8.ofNat (Function.update count u.1 (count u.1 + ps.length) pid % 16) := by
      intro pid
      simp only [writePayload, hps]
      by_cases hpid : pid = u.1
      · rw [hpid, Function.update_self, Function.update_self]
      · rw [Function.update_of_ne hpid, Function.update_of_ne hpid, hm]
    obtain ⟨written, hbytes, hall, hcounters⟩ :=
      ih (fun u' hu' => hus u' (mem_cons_of_mem _ hu')) hnext
    refine ⟨ps :: written, ?_, .cons ⟨_, hcut⟩ hall, fun pid => ?_⟩
    · rw [foldl_cons, hbytes]
      simp [writePayload, hps]
    · have hpids : ∀ p ∈ ps, pidOf p = u.1 := by
        intro p hp
        obtain ⟨i, hi⟩ := getElem?_of_mem hp
        obtain ⟨chunk, hcarries⟩ := hcut.getElem? hi
        exact hcarries.pid
      rw [flatten_cons, filter_append, map_append, length_append, hcounters, ← range'_append_1,
        map_append]
      by_cases hpid : pid = u.1
      · have hfilter : ps.filter (pidOf · = pid) = ps :=
          filter_eq_self.mpr fun p hp => decide_eq_true ((hpids p hp).trans hpid.symm)
        rw [hfilter, hpid, Function.update_self, hcut.counters]
      · have hfilter : ps.filter (pidOf · = pid) = [] :=
          filter_eq_nil_iff.mpr fun p hp => by simpa [hpids p hp] using Ne.symm hpid
        rw [hfilter, Function.update_of_ne hpid]
        rfl

/-- **The transport stream**: the packets of every unit carry its bytes, the first one and no other
with the start flag, all have 188 bytes and the sync byte, and those of a PID are counted. -/
theorem run_written (video : AvcConfig) (audio : AacConfig) (samples : List TsSample) :
    ∃ written : List (List Bytes),
      (samples.foldl write (new video audio)).bytes = written.flatten.flatten ∧
      Forall₂ (fun u ps => ps.flatMap bodyOf = u.2 ∧ ∀ i p, ps[i]? = some p →
        p.length = 188 ∧ p.head? = some 0x47 ∧ pidOf p = u.1 ∧ startOf p = decide (i = 0))
        (units video audio samples) written ∧
      ∀ pid, (written.flatten.filter (pidOf · = pid)).map counterOf =
        (range (written.flatten.filter (pidOf · = pid)).length).map fun i =>
          UInt8.ofNat (i % 16) := by
  have hstart : ∀ pid : UInt16, (⟨[], video, audio, fun _ => 0⟩ : TsMuxer).continuity pid =
      UInt8.ofNat (0 % 16) := fun _ => rfl
  obtain ⟨written, hbytes, hall, hcounters⟩ :=
    foldl_writePayload (fun u (hu : u ∈ units video audio samples) => mem_pids hu) hstart
  refine ⟨written, ?_, hall.imp ?_, fun pid => ?_⟩
  · rw [foldl_write]
    exact hbytes
  · rintro u ps ⟨counter, hcut⟩
    refine ⟨hcut.body, fun i p hi => ?_⟩
    obtain ⟨chunk, hp⟩ := hcut.getElem? hi
    exact ⟨hp.length, hp.sync, hp.pid, hp.start⟩
  · rw [hcounters pid, range_eq_range']

/-! ## PES packets -/

/-- `PES_packet_length`. -/
def pesLength (p : Bytes) : ℕ := ofBeBytes ((p.drop 4).take 2)

/-- The four bits before the PTS. -/
def ptsPrefix (p : Bytes) : UInt8 := p.getD 9 0 >>> 4

/-- The time the five bytes of a PTS stand for. -/
def ptsOf (p : Bytes) : ℕ :=
  (p.getD 9 0).toNat / 2 % 8 * 2 ^ 30 + (p.getD 10 0).toNat * 2 ^ 22 +
    (p.getD 11 0).toNat / 2 * 2 ^ 15 + (p.getD 12 0).toNat * 2 ^ 7 + (p.getD 13 0).toNat / 2

def adtsLength (frame : Bytes) : ℕ :=
  (frame.getD 3 0).toNat % 4 * 2 ^ 11 + (frame.getD 4 0).toNat * 2 ^ 3 +
    (frame.getD 5 0).toNat / 2 ^ 5

variable {streamId : UInt8} {pts : ℕ}

theorem pes_pts (streamId : UInt8) (pts : ℕ) (payload : Bytes) :
    ptsPrefix (pes streamId pts payload) = 0 ∧
      (∀ i ∈ [9, 11, 13], (pes streamId pts payload).getD i 0 &&& 1 = 1) ∧
      ptsOf (pes streamId pts payload) = pts % 2 ^ 33 := by
  have hfirst : ∀ n < 8, UInt8.ofNat (16 * 0 + 2 * n + 1) >>> 4 = 0 := by decide
  have hmarker : ∀ n < 128, UInt8.ofNat (2 * n + 1) &&& 1 = 1 := by decide
  refine ⟨hfirst _ (Nat.mod_lt _ (by decide)), ?_, ?_⟩
  · simp only [forall_mem_cons, not_mem_nil, false_implies, implies_true, and_true]
    refine ⟨?_, hmarker _ (Nat.mod_lt _ (by decide)), hmarker _ (Nat.mod_lt _ (by decide))⟩
    have := hmarker _ (show pts % 2 ^ 33 / 2 ^ 30 % 8 < 128 by omega)
    rwa [← zero_add (2 * _)] at this
  · change (UInt8.ofNat (16 * 0 + 2 * (pts % 2 ^ 33 / 2 ^ 30 % 8) + 1)).toNat / 2 % 8 * 2 ^ 30 +
      (UInt8.ofNat (pts % 2 ^ 33 / 2 ^ 22 % 256)).toNat * 2 ^ 22 +
      (UInt8.ofNat (2 * (pts % 2 ^ 33 / 2 ^ 15 % 128) + 1)).toNat / 2 * 2 ^ 15 +
      (UInt8.ofNat (pts % 2 ^ 33 / 2 ^ 7 % 256)).toNat * 2 ^ 7 +
      (UInt8.ofNat (2 * (pts % 2 ^ 33 % 128) + 1)).toNat / 2 = _
    simp only [UInt8.toNat_ofNat']
    omega

theorem pesLength_pes (h : streamId = 0xe0 ∨ payload.length + 13 < 2 ^ 16) :
    pesLength (pes streamId pts payload) =
      if streamId = 0xe0 then 0 else payload.length + 13 := by
  change ofBeBytes (beBytes 2 _) = _
  split_ifs with hid hlt
  · rfl
  · exact ofBeBytes_beBytes hlt
  · exact absurd (h.resolve_left hid) hlt

theorem length_pes : (pes streamId pts payload).length = payload.length + 14 := by
  simp [pes, encodePts]
  omega

theorem adtsLength_adts {n : ℕ} (h : n ≤ 0x1fff) (raw : Bytes) :
    adtsLength (adts audio n ++ raw) = n := by
  have hthird : ∀ a < 4, ∀ b < 4, ((UInt8.ofNat a <<< 6) ||| UInt8.ofNat b).toNat % 4 = b := by
    decide
  have hfifth : ∀ a < 8, (UInt8.ofNat (a * 2 ^ 5) ||| 0x1f).toNat / 2 ^ 5 = a := by decide
  have hlow : audio.channelConfiguration &&& 0x03 =
      UInt8.ofNat (audio.channelConfiguration.toNat % 4) := by
    rw [← UInt8.toNat_inj, UInt8.toNat_and, UInt8.toNat_ofNat']
    exact (Nat.and_two_pow_sub_one_eq_mod _ 2).trans (by omega)
  change (((audio.channelConfiguration &&& 0x03) <<< 6) ||| UInt8.ofNat (n / 2 ^ 11 % 4)).toNat %
      4 * 2 ^ 11 + (UInt8.ofNat (n / 2 ^ 3 % 256)).toNat * 2 ^ 3 +
      (UInt8.ofNat (n % 8 * 2 ^ 5) ||| 0x1f).toNat / 2 ^ 5 = n
  rw [hlow, hthird _ (Nat.mod_lt _ (by decide)) _ (Nat.mod_lt _ (by decide)),
    hfifth _ (Nat.mod_lt _ (by decide)), UInt8.toNat_ofNat']
  omega

/-- **PES packets**: the marker bits and the value of the PTS are right, and so is the length in an
ADTS header. But the prefix of the PTS is never `0010`, and the length of a packet is right only for
video. -/
theorem pes_fields (video : AvcConfig) (audio : AacConfig) :
    (∀ sample pid p, unit video audio sample = some (pid, p) →
      (pesLength p = p.length - 6 ∨ pid = videoPid ∧ pesLength p = 0 ↔ pid = videoPid) ∧
        ptsPrefix p ≠ 2 ∧ (∀ i ∈ [9, 11, 13], p.getD i 0 &&& 1 = 1) ∧
        ptsOf p = presentationTime sample % 2 ^ 33) ∧
      ∀ payload timestampMs startTimestampMs frame,
        accessUnit video audio (.audio payload timestampMs startTimestampMs) = some frame →
          adtsLength frame = frame.length ∧ frame.drop 7 = payload.drop 2 := by
  constructor
  · intro sample pid p hunit
    obtain ⟨payload, haccess, heq⟩ := Option.map_eq_some_iff.mp hunit
    cases sample with
    | video =>
      cases heq
      obtain ⟨hlead, hmarkers, hpts⟩ := pes_pts 0xe0 _ payload
      exact ⟨⟨fun _ => rfl, fun _ => .inr ⟨rfl, pesLength_pes (.inl rfl)⟩⟩, by rw [hlead]; decide,
        hmarkers, hpts⟩
    | audio bytes =>
      cases heq
      obtain ⟨hlead, hmarkers, hpts⟩ := pes_pts 0xc0 _ payload
      refine ⟨⟨?_, fun h => absurd h (by decide)⟩, by rw [hlead]; decide, hmarkers, hpts⟩
      rintro (hlength | ⟨h, -⟩)
      · have hfits : payload.length + 13 < 2 ^ 16 := by
          simp only [accessUnit] at haccess
          split_ifs at haccess
          cases haccess
          simp [adts] at *
          omega
        rw [pesLength_pes (.inr hfits), length_pes, if_neg (by decide)] at hlength
        omega
      · exact h
  · intro payload timestampMs startTimestampMs frame haccess
    simp only [accessUnit] at haccess
    split_ifs at haccess with hbad hlong
    cases haccess
    refine ⟨?_, rfl⟩
    rw [adtsLength_adts (by omega), length_append]
    simp [adts]
    omega

/-- An audio frame of one byte: 16 bytes follow the length, which is 21. -/
theorem pes_fields_audio : ∃ p, unit ⟨4, [], [], by decide⟩ ⟨1, 4, 2⟩ (.audio [0xaf, 1, 0] 0 0) =
    some (audioPid, p) ∧ p.length - 6 = 16 ∧ pesLength p = 21 ∧ ptsPrefix p = 0 :=
  ⟨_, rfl, by decide, by decide, by decide⟩

end TsMuxer

end Oxiroute.Rtmp
