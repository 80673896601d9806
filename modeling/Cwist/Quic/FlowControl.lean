import Cwist.Basic
import Cwist.Lib.Varint

/-!
# QUIC flow control

The receive windows of a connection and of its streams, and the frames that raise the limits of the peer.
-/

namespace Cwist.Quic

def maxVarint : UInt64 := ((1 : UInt64) <<< 62) - 1
def frameMaxData : UInt8 := 0x10
def frameMaxStreamData : UInt8 := 0x11
def minInitialWindow : UInt64 := 1024 * 1024

def clampWindow (window : UInt64) : UInt64 := if window < minInitialWindow then minInitialWindow else window

def saturatingAdd (value increment : UInt64) : UInt64 :=
  if value > maxVarint - increment then maxVarint else value + increment

def varintSize (value : UInt64) : Nat :=
  if value < (1 : UInt64) <<< 6 then 1 else if value < (1 : UInt64) <<< 14 then 2
  else if value < (1 : UInt64) <<< 30 then 4 else 8

def writeLoop : Nat → UInt64 → Bytes → Bytes
  | 0, _, out => out
  | i + 1, value, out => writeLoop i (value >>> 8) (value.toUInt8 :: out)

def writeVarint (value : UInt64) (size : Nat) : Bytes :=
  let class_ : UInt8 := if size = 1 then 0 else if size = 2 then 1 else if size = 4 then 2 else 3
  match writeLoop size value [] with
  | [] => []
  | first :: rest => (first ||| class_ <<< 6) :: rest

def shouldUpdate (consumed maximum window : UInt64) : Bool := consumed ≥ maximum || consumed + window / 2 ≥ maximum

inductive NetQuality where
  | excellent
  | normal
  | highRtt
  | poor
  deriving DecidableEq

structure ConnFc where
  srttUs : UInt64 := 0
  rttvarUs : UInt64 := 0
  minRttUs : UInt64 := 0
  rttInitialized : Bool := false
  quality : NetQuality := .normal
  maxData : UInt64
  connConsumed : UInt64 := 0
  connWindowSize : UInt64
  connMinWindow : UInt64
  connMaxWindow : UInt64
  baseStreamWindow : UInt64
  streamMinWindow : UInt64
  streamMaxWindow : UInt64
  deriving DecidableEq

structure StreamFc where
  streamId : UInt64
  maxStreamData : UInt64
  streamConsumed : UInt64 := 0
  streamWindowSize : UInt64
  deriving DecidableEq

def ConnFc.init (initialConnWindow initialStreamWindow maxConnWindow maxStreamWindow : UInt64) : ConnFc :=
  let initialConnWindow := clampWindow initialConnWindow
  let initialStreamWindow := clampWindow initialStreamWindow
  let maxConnWindow := clampWindow maxConnWindow
  let maxStreamWindow := clampWindow maxStreamWindow
  { maxData := initialConnWindow
    connWindowSize := initialConnWindow
    connMinWindow := initialConnWindow
    connMaxWindow := if maxConnWindow < initialConnWindow then initialConnWindow else maxConnWindow
    baseStreamWindow := initialStreamWindow
    streamMinWindow := initialStreamWindow
    streamMaxWindow := if maxStreamWindow < initialStreamWindow then initialStreamWindow else maxStreamWindow }

def StreamFc.init (streamId initialStreamWindow : UInt64) : StreamFc :=
  { streamId, maxStreamData := clampWindow initialStreamWindow, streamWindowSize := clampWindow initialStreamWindow }

def ConnFc.evaluateQuality (fc : ConnFc) : ConnFc :=
  if !fc.rttInitialized then fc
  else if fc.srttUs ≤ 50000 then { fc with quality := .excellent }
  else if fc.srttUs ≤ 150000 then { fc with quality := .normal }
  else if fc.srttUs ≤ 500000 then { fc with quality := .highRtt }
  else { fc with quality := .poor }

def ConnFc.updateRtt (fc : ConnFc) (rttSampleUs : UInt64) : ConnFc :=
  if rttSampleUs = 0 then fc
  else if !fc.rttInitialized then
    ConnFc.evaluateQuality
      { fc with srttUs := rttSampleUs, rttvarUs := rttSampleUs / 2, minRttUs := rttSampleUs, rttInitialized := true }
  else
    let difference := if fc.srttUs > rttSampleUs then fc.srttUs - rttSampleUs else rttSampleUs - fc.srttUs
    ConnFc.evaluateQuality
      { fc with
        rttvarUs := (3 * fc.rttvarUs + difference) / 4
        srttUs := (7 * fc.srttUs + rttSampleUs) / 8
        minRttUs := if rttSampleUs < fc.minRttUs then rttSampleUs else fc.minRttUs }

def grow (window maximum : UInt64) : UInt64 :=
  if window < maximum then if window * 2 > maximum then maximum else window * 2 else window

def NetQuality.good : NetQuality → Bool
  | .excellent | .normal => true
  | .highRtt | .poor => false

def ConnFc.adjustWindow (fc : ConnFc) : ConnFc :=
  if fc.quality.good then fc else { fc with connWindowSize := grow fc.connWindowSize fc.connMaxWindow }

def StreamFc.adjustWindow (fc : ConnFc) (sfc : StreamFc) : StreamFc :=
  if fc.quality.good then sfc else { sfc with streamWindowSize := grow sfc.streamWindowSize fc.streamMaxWindow }

def ConnFc.consume (fc : ConnFc) (bytes : UInt64) : ConnFc :=
  { fc with connConsumed := saturatingAdd fc.connConsumed bytes }

def StreamFc.consume (sfc : StreamFc) (bytes : UInt64) : StreamFc :=
  { sfc with streamConsumed := saturatingAdd sfc.streamConsumed bytes }

def raisedLimit (consumed window limit : UInt64) : UInt64 :=
  let maximum := saturatingAdd consumed window
  if maximum < limit then limit else maximum

def ConnFc.maybeSendMaxData (fc : ConnFc) (bufLen : Nat) (force : Bool) : ConnFc × Option Bytes :=
  if !force && !shouldUpdate fc.connConsumed fc.maxData fc.connWindowSize then (fc, none)
  else
    let maximum := raisedLimit fc.connConsumed fc.connWindowSize fc.maxData
    let valueSize := varintSize maximum
    if bufLen < 1 + valueSize then (fc, none)
    else ({ fc with maxData := maximum }, some (frameMaxData :: writeVarint maximum valueSize))

def StreamFc.maybeSendMaxStreamData (sfc : StreamFc) (bufLen : Nat) (force : Bool) : StreamFc × Option Bytes :=
  if !force && !shouldUpdate sfc.streamConsumed sfc.maxStreamData sfc.streamWindowSize then (sfc, none)
  else
    let maximum := raisedLimit sfc.streamConsumed sfc.streamWindowSize sfc.maxStreamData
    let idSize := varintSize sfc.streamId
    let valueSize := varintSize maximum
    if bufLen < 1 + idSize + valueSize then (sfc, none)
    else ({ sfc with maxStreamData := maximum },
      some (frameMaxStreamData :: writeVarint sfc.streamId idSize ++ writeVarint maximum valueSize))

lemma maxVarint_toNat : maxVarint.toNat = 2 ^ 62 - 1 := by decide

lemma writeLoop_eq (i : Nat) (value : UInt64) (out : Bytes) : writeLoop i value out = Varint.octets i value.toNat ++ out := by
  induction i generalizing value out with
  | zero => rfl
  | succ i ih =>
    have shifted : (value >>> 8).toNat = value.toNat / 256 := by
      exact Nat.shiftRight_eq_div_pow _ _
    have low : value.toUInt8 = UInt8.ofNat value.toNat := by
      apply UInt8.toNat_inj.mp
      rw [UInt64.toNat_toUInt8, UInt8.toNat_ofNat']
    rw [writeLoop, ih, shifted, Varint.octets_concat, low, List.append_assoc, List.singleton_append]

lemma tag_toNat : ∀ class_ < 4, ∀ b < 64, (UInt8.ofNat b ||| UInt8.ofNat class_ <<< 6).toNat = 64 * class_ + b := by
  decide

lemma decode_class {value : UInt64} {class_ : Nat} (small : class_ < 4)
    (fits : value.toNat < 64 * 256 ^ (2 ^ class_ - 1)) (rest : Bytes) :
    Varint.decode (writeVarint value (2 ^ class_) ++ rest) = some (value.toNat, rest) := by
  have high := Nat.div_lt_of_lt_mul (by rwa [mul_comm])
  have code : (if 2 ^ class_ = 1 then 0 else if 2 ^ class_ = 2 then 1 else if 2 ^ class_ = 4 then 2 else 3 : UInt8) =
      UInt8.ofNat class_ := by
    clear fits high
    revert class_
    decide
  have octets : Varint.octets (2 ^ class_) value.toNat =
      UInt8.ofNat (value.toNat / 256 ^ (2 ^ class_ - 1)) :: Varint.octets (2 ^ class_ - 1) value.toNat := by
    obtain ⟨more, size⟩ : ∃ more, 2 ^ class_ = more + 1 := ⟨_, (Nat.succ_pred_eq_of_pos (Nat.two_pow_pos _)).symm⟩
    rw [size]
    rfl
  rw [writeVarint, writeLoop_eq, List.append_nil, octets, code]
  exact Varint.decode_tagged (tag_toNat class_ small _ high) fits rest

lemma decode_writeVarint {value : UInt64} (fits : value.toNat < 2 ^ 62) (rest : Bytes) :
    Varint.decode (writeVarint value (varintSize value) ++ rest) = some (value.toNat, rest) := by
  unfold varintSize
  split
  next below => exact @decode_class value 0 (by decide) (UInt64.lt_iff_toNat_lt.mp below) rest
  split
  next below => exact @decode_class value 1 (by decide) (UInt64.lt_iff_toNat_lt.mp below) rest
  split
  next below => exact @decode_class value 2 (by decide) (UInt64.lt_iff_toNat_lt.mp below) rest
  · exact @decode_class value 3 (by decide) fits rest

end Cwist.Quic
