import Mathlib

/-!
# Flow control

`http2_flow_control.c`: the adaptive receive windows of a connection and of its streams, the RTT estimate that tunes
them, and the token bucket that paces what is sent. The fields are the unsigned integers of the source, reduced where it
lets them wrap.
-/

namespace Cwist.Http2

def initialConnectionWindow : Nat := 1536 * 1024
def initialStreamWindow : Nat := 1024 * 1024
def maxWindow : Nat := 0x7fffffff

def sub32 (a b : Nat) : Nat := (a + 2 ^ 32 - b % 2 ^ 32) % 2 ^ 32

def toInt32 (z : Int) : Int := z.bmod (2 ^ 32)

lemma sub32_of_le {a b : Nat} (fits : b ≤ a) (bound : a < 2 ^ 32) : sub32 a b = a - b := by
  unfold sub32
  omega

inductive NetworkQuality where
  | normal | highRtt | unstable
  deriving DecidableEq, Repr

/-- The connection. `pendingUpdate` has been consumed and is not yet returned to the peer as credit. -/
structure FlowControl where
  receiveWindow : Nat
  targetWindow : Nat
  minWindow : Nat
  maxWindow : Nat
  pendingUpdate : Nat := 0
  sendWindow : Nat
  srttUs : Nat := 0
  rttvarUs : Nat := 0
  rttInitialized : Bool := false
  networkQuality : NetworkQuality := .normal
  lastWindowUpdateUs : Nat := 0
  pacingTokens : Nat
  pacingRateBytesPerSec : Nat
  pacingLastUs : Nat := 0
  deriving DecidableEq, Repr

/-- The send window is signed: a smaller initial window can make it negative. -/
structure StreamFlowControl where
  streamId : Nat
  receiveWindow : Nat
  targetWindow : Nat
  minWindow : Nat
  maxWindow : Nat
  pendingUpdate : Nat := 0
  sendWindow : Int
  lastWindowUpdateUs : Nat := 0
  deriving DecidableEq, Repr

def windowClamp (value minimum maximum : Nat) : Nat :=
  if value < minimum then minimum else if value > maximum then maximum else value

def absDiff (left right : Nat) : Nat := if left ≥ right then left - right else right - left

def initialWindows (default initial maximum : Nat) : Nat × Nat :=
  let initial := if initial < default then default else initial
  let maximum := if maximum < initial then initial else maximum
  (initial, if maximum > maxWindow then maxWindow else maximum)

def FlowControl.init (initial maximum : Nat) : FlowControl :=
  let (initial, maximum) := initialWindows initialConnectionWindow initial maximum
  { receiveWindow := initial
    targetWindow := initial
    minWindow := initial
    maxWindow := maximum
    sendWindow := initial
    pacingTokens := initial / 2
    pacingRateBytesPerSec := initial * 10 % 2 ^ 32 }

def StreamFlowControl.init (streamId initial maximum : Nat) : StreamFlowControl :=
  let (initial, maximum) := initialWindows initialStreamWindow initial maximum
  { streamId
    receiveWindow := initial
    targetWindow := initial
    minWindow := initial
    maxWindow := maximum
    sendWindow := toInt32 initial }

namespace FlowControl

section

variable (fc : FlowControl)

def delayUs : Nat := (fc.srttUs + 4 * fc.rttvarUs) % 2 ^ 64

def quality : NetworkQuality :=
  if fc.rttvarUs > fc.srttUs / 2 then .unstable
  else if fc.delayUs ≥ 200000 then .highRtt
  else .normal

def multiplier : Nat :=
  let base := if fc.delayUs / 200000 < 1 then 1 else fc.delayUs / 200000
  if fc.quality ≠ .normal then base + 1 else base

def adjust : FlowControl :=
  if fc.rttInitialized then
    let target := windowClamp (fc.minWindow * fc.multiplier % 2 ^ 64) fc.minWindow fc.maxWindow
    let rate := target * 1000000 / (if fc.srttUs ≠ 0 then fc.srttUs else 1)
    let floor := fc.minWindow * 10
    { fc with
      networkQuality := fc.quality
      targetWindow := target
      pacingRateBytesPerSec := if rate < floor then floor else rate }
  else fc

def updateRtt (sampleUs : Nat) : FlowControl :=
  if sampleUs = 0 then fc
  else if fc.rttInitialized then
    let difference := absDiff fc.srttUs sampleUs
    adjust { fc with
      rttvarUs := (3 * fc.rttvarUs + difference) % 2 ^ 64 / 4
      srttUs := (7 * fc.srttUs + sampleUs) % 2 ^ 64 / 8 }
  else
    adjust { fc with srttUs := sampleUs, rttvarUs := sampleUs / 2, rttInitialized := true }

def receive (bytes : Nat) : Option FlowControl :=
  if bytes > fc.receiveWindow then none
  else some { fc with receiveWindow := fc.receiveWindow - bytes }

end

end FlowControl

def StreamFlowControl.receive (fc : StreamFlowControl) (bytes : Nat) : Option StreamFlowControl :=
  if bytes > fc.receiveWindow then none
  else some { fc with receiveWindow := fc.receiveWindow - bytes }

def consumed (pending bytes : Nat) : Nat :=
  if bytes > 2 ^ 32 - 1 - pending then 2 ^ 32 - 1 else pending + bytes

def FlowControl.consume (fc : FlowControl) (bytes : Nat) : FlowControl :=
  { fc with pendingUpdate := consumed fc.pendingUpdate bytes }

def StreamFlowControl.consume (fc : StreamFlowControl) (bytes : Nat) : StreamFlowControl :=
  { fc with pendingUpdate := consumed fc.pendingUpdate bytes }

def retuneTarget (pending srttUs intervalUs current minimum maximum : Nat) : Nat :=
  if intervalUs = 0 then current
  else
    let target := windowClamp (2 * pending * srttUs % 2 ^ 64 / intervalUs) minimum maximum
    if target > current * 2 then windowClamp (current * 2) minimum maximum
    else if target < current / 2 then windowClamp (current / 2) minimum maximum
    else target

def increment (pending receiveWindow targetWindow : Nat) : Nat :=
  let topUp := if receiveWindow < targetWindow then targetWindow - receiveWindow else 0
  if pending > topUp then pending else topUp

def credited (window increment : Nat) : Nat :=
  if increment > sub32 maxWindow window then maxWindow else window + increment

def refillDue (pending target : Nat) (force : Bool) : Bool :=
  !(pending == 0 || (!force && pending < target / 2))

def FlowControl.retuned (fc : FlowControl) (nowUs pending current minimum maximum : Nat) : Nat :=
  if fc.rttInitialized && fc.lastWindowUpdateUs != 0 && nowUs > fc.lastWindowUpdateUs then
    retuneTarget pending fc.srttUs (nowUs - fc.lastWindowUpdateUs) current minimum maximum
  else current

/-- The increment to write, if one is due. -/
def FlowControl.maybeWindowUpdate (fc : FlowControl) (nowUs : Nat) (force : Bool) : FlowControl × Option Nat :=
  if refillDue fc.pendingUpdate fc.targetWindow force then
    let target := fc.retuned nowUs fc.pendingUpdate fc.targetWindow fc.minWindow fc.maxWindow
    let credit := increment fc.pendingUpdate fc.receiveWindow target
    ({ fc with
        targetWindow := target
        receiveWindow := credited fc.receiveWindow credit
        pendingUpdate := 0
        lastWindowUpdateUs := nowUs }, some credit)
  else (fc, none)

def StreamFlowControl.maybeWindowUpdate (fc : FlowControl) (sfc : StreamFlowControl) (nowUs : Nat)
    (force : Bool) : StreamFlowControl × Option Nat :=
  if sfc.streamId = 0 ∨ sfc.streamId % 2 = 0 then (sfc, none)
  else if refillDue sfc.pendingUpdate sfc.targetWindow force then
    let target := fc.retuned nowUs sfc.pendingUpdate sfc.targetWindow sfc.minWindow sfc.maxWindow
    let credit := increment sfc.pendingUpdate sfc.receiveWindow target
    ({ sfc with
        targetWindow := target
        receiveWindow := credited sfc.receiveWindow credit
        pendingUpdate := 0
        lastWindowUpdateUs := nowUs }, some credit)
  else (sfc, none)

def StreamFlowControl.adjustSendWindow (sfc : StreamFlowControl) (delta : Int) : StreamFlowControl :=
  let next := sfc.sendWindow + delta
  { sfc with sendWindow := if next > Http2.maxWindow then Http2.maxWindow else toInt32 next }

namespace FlowControl

section

variable (fc : FlowControl)

def fillUs : Nat :=
  fc.targetWindow * 1000000 / (if fc.pacingRateBytesPerSec ≠ 0 then fc.pacingRateBytesPerSec else 1) + 1

/-- A refill. It counts at most the time in which the bucket fills. -/
def accrue (nowUs : Nat) : FlowControl :=
  if fc.pacingLastUs = 0 then { fc with pacingLastUs := nowUs }
  else if nowUs > fc.pacingLastUs then
    let elapsed := min (nowUs - fc.pacingLastUs) fc.fillUs
    let added := elapsed * fc.pacingRateBytesPerSec % 2 ^ 64 / 1000000
    { fc with
      pacingTokens := min ((fc.pacingTokens + added) % 2 ^ 64) fc.targetWindow
      pacingLastUs := nowUs }
  else fc

def pacingAllowance (sfc : StreamFlowControl) (requested nowUs : Nat) : Nat × FlowControl :=
  if sfc.sendWindow ≤ 0 then (0, fc)
  else
    let fc := fc.accrue nowUs
    (min (min (min requested fc.sendWindow) sfc.sendWindow.toNat) fc.pacingTokens, fc)

/-- Both windows and the bucket pay for the octets, or nothing changes but the refill. -/
def reserveSend (sfc : StreamFlowControl) (bytes nowUs : Nat) : FlowControl × StreamFlowControl :=
  let (allowed, fc) := fc.pacingAllowance sfc bytes nowUs
  if allowed < bytes then (fc, sfc)
  else
    ({ fc with
        sendWindow := sub32 fc.sendWindow bytes
        pacingTokens := fc.pacingTokens - bytes },
     { sfc with sendWindow := toInt32 (sfc.sendWindow - bytes) })

end

end FlowControl

end Cwist.Http2
