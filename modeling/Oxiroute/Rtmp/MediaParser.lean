import Oxiroute.Lib.Panic
import Oxiroute.Rtmp.Event

/-!
# Codec configurations

Model of `crates/oxiroute-rtmp/src/media_parser.rs`: the AAC and the AVC configuration in the
payload of a sequence header. Indices and ranges are those of the source and may panic;
`parseAacConfiguration_ok` and `parseAvcConfiguration_ok` say that they never do, and how long the
parts are.
-/

namespace Oxiroute.Rtmp

open Lib Http

structure AacConfiguration where
  audioObjectType : UInt8
  sampleRateIndex : UInt8
  channelConfiguration : UInt8
  audioSpecificConfig : Bytes
  trailing : Bytes
  deriving DecidableEq

structure AvcConfiguration where
  profile : UInt8
  compatibility : UInt8
  level : UInt8
  nalLengthSize : ℕ
  sps : List Bytes
  pps : List Bytes
  configurationRecord : Bytes
  trailing : Bytes
  deriving DecidableEq

def parseAacConfiguration (payload : Bytes) : Panics (Option AacConfiguration) :=
  if payload.length < 4 then .ok none
  else do
    let soundHeader ← index payload 0
    let packetType ← index payload 1
    if soundHeader >>> 4 ≠ 10 ∨ packetType ≠ 0 then .ok none
    else do
      let first ← index payload 2
      let second ← index payload 3
      let audioSpecificConfig ← range payload 2 4
      let trailing ← range payload 4 payload.length
      .ok (some {
        audioObjectType := first >>> 3
        sampleRateIndex := ((first &&& 0x07) <<< 1) ||| (second >>> 7)
        channelConfiguration := (second >>> 3) &&& 0x0f
        audioSpecificConfig := audioSpecificConfig
        trailing := trailing })

/-- `parse_parameter_sets`: the parameter sets at the cursor, and the cursor behind them. -/
def parseParameterSets (payload : Bytes) : ℕ → ℕ → Option (List Bytes × ℕ)
  | cursor, 0 => some ([], cursor)
  | cursor, count + 1 => do
    let lengthEnd ← checkedAddSize cursor 2
    let length ← getRange payload cursor lengthEnd
    let stop ← checkedAddSize lengthEnd (ofBeBytes length)
    let parameterSet ← getRange payload lengthEnd stop
    let (parameterSets, cursor) ← parseParameterSets payload stop count
    some (parameterSet :: parameterSets, cursor)

/-- The parameter sets of `parse_avc_configuration`, and the cursor behind them. -/
def parseAvcParameterSets (payload : Bytes) (spsCount : ℕ) :
    Option (List Bytes × List Bytes × ℕ) := do
  let (sps, cursor) ← parseParameterSets payload 11 spsCount
  let ppsCount ← payload[cursor]?
  let cursor ← checkedAddSize cursor 1
  let (pps, cursor) ← parseParameterSets payload cursor ppsCount.toNat
  some (sps, pps, cursor)

/-- The part of `parse_avc_configuration` behind its checks. -/
def parseAvcRecord (payload : Bytes) : Panics (Option AvcConfiguration) := do
  let spsCount ← index payload 10
  match parseAvcParameterSets payload (spsCount &&& 0x1f).toNat with
  | none => .ok none
  | some (sps, pps, cursor) =>
    let profile ← index payload 6
    let compatibility ← index payload 7
    let level ← index payload 8
    let lengthSize ← index payload 9
    let configurationRecord ← range payload 5 cursor
    let trailing ← range payload cursor payload.length
    .ok (some {
      profile := profile
      compatibility := compatibility
      level := level
      nalLengthSize := (lengthSize &&& 0x03).toNat + 1
      sps := sps
      pps := pps
      configurationRecord := configurationRecord
      trailing := trailing })

def parseAvcConfiguration (payload : Bytes) : Panics (Option AvcConfiguration) :=
  if payload.length < 11 then .ok none
  else do
    let videoHeader ← index payload 0
    let packetType ← index payload 1
    let version ← index payload 5
    if videoHeader &&& 0x0f ≠ 7 ∨ packetType ≠ 0 ∨ version ≠ 1 then .ok none
    else parseAvcRecord payload

/-! ## No panic -/

theorem parseAacConfiguration_ok {payload : Bytes} :
    ∃ parsed, parseAacConfiguration payload = .ok parsed ∧
      ∀ c, parsed = some c →
        c.audioSpecificConfig.length = 2 ∧ c.trailing.length + 4 = payload.length := by
  unfold parseAacConfiguration
  split_ifs with hlength
  · exact ⟨none, rfl, fun _ h => nomatch h⟩
  have h4 : 4 ≤ payload.length := by omega
  simp only [index_of_lt (show 0 < payload.length by omega),
    index_of_lt (show 1 < payload.length by omega), index_of_lt (show 2 < payload.length by omega),
    index_of_lt (show 3 < payload.length by omega), range_of_le (show 2 ≤ 4 by omega) h4,
    range_of_le h4 le_rfl, bind_ok]
  split_ifs
  · exact ⟨none, rfl, fun _ h => nomatch h⟩
  · refine ⟨_, rfl, ?_⟩
    rintro c ⟨⟩
    simp only [List.length_drop, List.length_take]
    omega

variable {payload : Bytes}

theorem parseParameterSets_bounds {sets : List Bytes} {stop : ℕ} :
    ∀ {count cursor : ℕ}, parseParameterSets payload cursor count = some (sets, stop) →
      cursor ≤ payload.length → cursor ≤ stop ∧ stop ≤ payload.length := by
  intro count
  induction count generalizing sets with
  | zero =>
    intro cursor h hcursor
    cases h
    exact ⟨le_rfl, hcursor⟩
  | succ count ih =>
    intro cursor h _
    simp only [parseParameterSets, Option.bind_eq_bind, Option.bind_eq_some_iff] at h
    obtain ⟨lengthEnd, hlengthEnd, length, hlength, setEnd, hsetEnd, set, hset, rest, hrest,
      heq⟩ := h
    cases heq
    obtain ⟨hle, hbound, -⟩ := getRange_eq_some hset
    obtain ⟨hle', -, -⟩ := getRange_eq_some hlength
    obtain ⟨hstop, hstop'⟩ := ih hrest hbound
    exact ⟨by omega, hstop'⟩

theorem parseAvcParameterSets_bounds {sps pps : List Bytes} {spsCount stop : ℕ}
    (h : parseAvcParameterSets payload spsCount = some (sps, pps, stop))
    (hlength : 11 ≤ payload.length) : 11 ≤ stop ∧ stop ≤ payload.length := by
  simp only [parseAvcParameterSets, Option.bind_eq_bind, Option.bind_eq_some_iff] at h
  obtain ⟨⟨_, cursor⟩, hsps, count, hcount, next, hnext, ⟨_, _⟩, hpps, heq⟩ := h
  cases heq
  obtain ⟨hcursor, _⟩ := parseParameterSets_bounds hsps hlength
  obtain ⟨hlt, -⟩ := List.getElem?_eq_some_iff.mp hcount
  rw [checkedAddSize_eq_some hnext] at hpps
  obtain ⟨hstop, hbound⟩ := parseParameterSets_bounds hpps hlt
  exact ⟨by omega, hbound⟩

theorem parseAvcRecord_ok (hlength : 11 ≤ payload.length) :
    ∃ parsed, parseAvcRecord payload = .ok parsed ∧
      ∀ c, parsed = some c → c.configurationRecord.length ≤ payload.length := by
  unfold parseAvcRecord
  rw [index_of_lt (show 10 < payload.length by omega), bind_ok]
  split
  · exact ⟨none, rfl, fun _ h => nomatch h⟩
  · rename_i sps pps cursor hsets
    obtain ⟨hcursor, hbound⟩ := parseAvcParameterSets_bounds hsets hlength
    simp only [index_of_lt (show 6 < payload.length by omega),
      index_of_lt (show 7 < payload.length by omega),
        index_of_lt (show 8 < payload.length by omega),
      index_of_lt (show 9 < payload.length by omega), range_of_le (show 5 ≤ cursor by omega) hbound,
      range_of_le hbound le_rfl, bind_ok]
    refine ⟨_, rfl, ?_⟩
    rintro c ⟨⟩
    simp only [List.length_drop, List.length_take]
    omega

theorem parseAvcConfiguration_ok : ∃ parsed, parseAvcConfiguration payload = .ok parsed ∧
      ∀ c, parsed = some c → c.configurationRecord.length ≤ payload.length := by
  unfold parseAvcConfiguration
  split_ifs with hlength
  · exact ⟨none, rfl, fun _ h => nomatch h⟩
  simp only [index_of_lt (show 0 < payload.length by omega),
    index_of_lt (show 1 < payload.length by omega), index_of_lt (show 5 < payload.length by omega),
    bind_ok]
  split_ifs
  · exact ⟨none, rfl, fun _ h => nomatch h⟩
  · exact parseAvcRecord_ok (by omega)

end Oxiroute.Rtmp
