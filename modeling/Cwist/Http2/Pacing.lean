import Cwist.Http2.FlowRuns
import Cwist.Http2.Sender

/-!
# Pacing

The token bucket of a connection in every state that calls on the flow-control module reach: what reservations
between two retunes take from it, and when a reservation of what an allowance has vetted goes through.
-/

namespace Cwist.Http2
open FlowControl Cwist.Http2.Flow

open H2 (sendAllowance commitSend)

def FlowControl.addSendWindow (fc : FlowControl) (increment : Nat) : FlowControl :=
  { fc with
    sendWindow :=
      if increment > sub32 Http2.maxWindow fc.sendWindow then Http2.maxWindow else (fc.sendWindow + increment) % 2 ^ 32 }

def StreamFlowControl.addSendWindow (sfc : StreamFlowControl) (increment : Nat) : StreamFlowControl :=
  sfc.adjustSendWindow increment

/-- The calls on a connection and one of its streams. `others` is a reservation for another stream, which shares the
bucket; an allowance for it is a reservation of nothing. -/
inductive FlowCall where
  | receiving (c : Call)
  | open (connection : UInt32) (stream : Int)
  | addSendWindow (side : Side) (increment : Nat)
  | adjustSendWindow (delta : Int)
  | sendAllowance (requested nowUs : Nat)
  | commitSend (bytes nowUs : Nat)
  | pacingAllowance (requested nowUs : Nat)
  | reserveSend (bytes nowUs : Nat)
  | others (sfc : StreamFlowControl) (bytes nowUs : Nat)

namespace Flow

def perform (flow : Flow) : FlowCall → Flow
  | .receiving c => flow.call c
  | .open connection stream =>
    ⟨{ flow.fc with sendWindow := connection.toNat }, { flow.sfc with sendWindow := toInt32 stream }⟩
  | .addSendWindow .connection increment => { flow with fc := flow.fc.addSendWindow increment }
  | .addSendWindow .stream increment => { flow with sfc := flow.sfc.addSendWindow increment }
  | .adjustSendWindow delta => { flow with sfc := flow.sfc.adjustSendWindow delta }
  | .sendAllowance requested nowUs => { flow with fc := (sendAllowance flow.fc flow.sfc requested nowUs).2 }
  | .commitSend bytes nowUs =>
    ⟨(commitSend flow.fc flow.sfc bytes nowUs).1, (commitSend flow.fc flow.sfc bytes nowUs).2⟩
  | .pacingAllowance requested nowUs => { flow with fc := (flow.fc.pacingAllowance flow.sfc requested nowUs).2 }
  | .reserveSend bytes nowUs =>
    ⟨(flow.fc.reserveSend flow.sfc bytes nowUs).1, (flow.fc.reserveSend flow.sfc bytes nowUs).2⟩
  | .others sfc bytes nowUs => { flow with fc := (flow.fc.reserveSend sfc bytes nowUs).1 }

def performAll (flow : Flow) (calls : List FlowCall) : Flow := calls.foldl perform flow

/-- A connection and a stream as they are set up, with arguments of type `uint32_t`. -/
def setUp (initial maximum streamId streamInitial streamMaximum : UInt32) : Flow :=
  init initial.toNat maximum.toNat streamId.toNat streamInitial.toNat streamMaximum.toNat

end Flow

/-! ### Sizes -/

/-- No window, and no number of tokens, leaves `uint32_t`, and the rate is that of a window in a microsecond at most. -/
structure FlowControl.Sane (fc : FlowControl) : Prop where
  minimum : fc.minWindow < 2 ^ 32
  maximum : fc.maxWindow < 2 ^ 32
  target : fc.targetWindow < 2 ^ 32
  send : fc.sendWindow < 2 ^ 32
  tokens : fc.pacingTokens < 2 ^ 32
  rate : fc.pacingRateBytesPerSec ≤ 2 ^ 32 * 1000000

variable {fc : FlowControl} {sfc : StreamFlowControl} {bytes nowUs : Nat}

namespace FlowControl

lemma sub32_lt (a b : Nat) : sub32 a b < 2 ^ 32 := by
  unfold sub32
  exact Nat.mod_lt _ (Nat.two_pow_pos 32)

lemma windowClamp_lt {value minimum maximum bound : Nat} (low : minimum < bound) (high : maximum < bound) :
    windowClamp value minimum maximum < bound := by
  unfold windowClamp
  split
  · exact low
  · split <;> omega

lemma initialWindows_lt {default initial maximum bound : Nat} (low : default < bound) (first : initial < bound)
    (second : maximum < bound) (limit : Http2.maxWindow < bound) :
    (initialWindows default initial maximum).1 < bound ∧ (initialWindows default initial maximum).2 < bound := by
  unfold initialWindows
  dsimp only
  split_ifs <;> omega

lemma init_sane (initial maximum : UInt32) : (FlowControl.init initial.toNat maximum.toNat).Sane := by
  have first := initial.toNat_lt
  have second := maximum.toNat_lt
  obtain ⟨start, top⟩ := initialWindows_lt (show initialConnectionWindow < 2 ^ 32 by decide) first second (by decide)
  refine ⟨start, top, start, start, (Nat.div_le_self _ _).trans_lt start, ?_⟩
  have reduced := Nat.mod_lt ((initialWindows initialConnectionWindow initial.toNat maximum.toNat).1 * 10) (Nat.two_pow_pos 32)
  exact reduced.le.trans (Nat.le_mul_of_pos_right _ (by decide))

section
variable (sane : fc.Sane)
include sane

lemma adjust_sane : fc.adjust.Sane := by
  unfold adjust
  split
  · have small : windowClamp (fc.minWindow * fc.multiplier % 2 ^ 64) fc.minWindow fc.maxWindow < 2 ^ 32 :=
      windowClamp_lt sane.minimum sane.maximum
    have low := sane.minimum
    have fastest := (Nat.div_le_self (windowClamp (fc.minWindow * fc.multiplier % 2 ^ 64) fc.minWindow fc.maxWindow * 1000000)
      (if fc.srttUs ≠ 0 then fc.srttUs else 1)).trans (Nat.mul_le_mul_right 1000000 small.le)
    refine { sane with target := small, rate := ?_ }
    dsimp only
    generalize windowClamp (fc.minWindow * fc.multiplier % 2 ^ 64) fc.minWindow fc.maxWindow * 1000000 /
      (if fc.srttUs ≠ 0 then fc.srttUs else 1) = rate at fastest ⊢
    split
    · exact Nat.mul_le_mul low.le (show 10 ≤ 1000000 by decide)
    · exact fastest
  · exact sane

lemma updateRtt_sane (sampleUs : Nat) : (fc.updateRtt sampleUs).Sane := by
  unfold updateRtt
  split
  · exact sane
  split
  · apply adjust_sane
    exact { sane with }
  · apply adjust_sane
    exact { sane with }

lemma retuned_lt (nowUs pending : Nat) :
    fc.retuned nowUs pending fc.targetWindow fc.minWindow fc.maxWindow < 2 ^ 32 := by
  have clamped (value : Nat) : windowClamp value fc.minWindow fc.maxWindow < 2 ^ 32 :=
    windowClamp_lt sane.minimum sane.maximum
  unfold retuned retuneTarget
  split
  · split
    · exact sane.target
    dsimp only
    split
    · exact clamped _
    split
    · exact clamped _
    · exact clamped _
  · exact sane.target

lemma maybeWindowUpdateInto_sane (bufferLen nowUs : Nat) (force : Bool) :
    (fc.maybeWindowUpdateInto bufferLen nowUs force).1.Sane := by
  have small := retuned_lt sane nowUs fc.pendingUpdate
  unfold maybeWindowUpdateInto maybeWindowUpdate
  split
  · exact { sane with target := small }
  split
  · exact { sane with target := small }
  · exact sane

lemma addSendWindow_sane (increment : Nat) : (fc.addSendWindow increment).Sane := by
  refine { sane with send := ?_ }
  unfold addSendWindow
  dsimp only
  split
  · decide
  · exact Nat.mod_lt _ (Nat.two_pow_pos 32)

end

/-! ### The bucket -/

/-- What a refill at `nowUs` adds. -/
def added (fc : FlowControl) (nowUs : Nat) : Nat :=
  min (nowUs - fc.pacingLastUs) fc.fillUs * fc.pacingRateBytesPerSec / 1000000

section
variable (sane : fc.Sane)
include sane

lemma fill_product (nowUs : Nat) : min (nowUs - fc.pacingLastUs) fc.fillUs * fc.pacingRateBytesPerSec < 2 ^ 64 := by
  have full : fc.fillUs * fc.pacingRateBytesPerSec ≤ fc.targetWindow * 1000000 + fc.pacingRateBytesPerSec := by
    unfold fillUs
    rw [add_mul, one_mul]
    by_cases still : fc.pacingRateBytesPerSec = 0
    · simp [still]
    · rw [if_pos still]
      exact Nat.add_le_add_right (Nat.div_mul_le_self _ _) _
  have capped := Nat.mul_le_mul_right fc.pacingRateBytesPerSec (min_le_right (nowUs - fc.pacingLastUs) fc.fillUs)
  have target := sane.target
  have rate := sane.rate
  omega

lemma added_lt (nowUs : Nat) : fc.pacingTokens + fc.added nowUs < 2 ^ 64 := by
  have product := fill_product sane nowUs
  have tokens := sane.tokens
  unfold added
  omega

/-- A refill, without the reductions of the machine. -/
lemma accrue_refills (started : fc.pacingLastUs ≠ 0) (later : fc.pacingLastUs < nowUs) : fc.accrue nowUs =
      { fc with pacingTokens := min (fc.pacingTokens + fc.added nowUs) fc.targetWindow, pacingLastUs := nowUs } := by
  unfold accrue
  rw [if_neg started, if_pos later]
  dsimp only
  rw [Nat.mod_eq_of_lt (fill_product sane nowUs)]
  have whole := added_lt sane nowUs
  rw [added] at whole
  rw [Nat.mod_eq_of_lt whole, added]

lemma accrue_cases (nowUs : Nat) : fc.pacingLastUs = 0 ∧ fc.accrue nowUs = { fc with pacingLastUs := nowUs } ∨
      nowUs ≤ fc.pacingLastUs ∧ fc.accrue nowUs = fc ∨
      fc.pacingLastUs ≠ 0 ∧ fc.pacingLastUs < nowUs ∧ fc.accrue nowUs =
        { fc with pacingTokens := min (fc.pacingTokens + fc.added nowUs) fc.targetWindow, pacingLastUs := nowUs } := by
  by_cases started : fc.pacingLastUs = 0
  · exact .inl ⟨started, by rw [accrue, if_pos started]⟩
  by_cases later : fc.pacingLastUs < nowUs
  · exact .inr (.inr ⟨started, later, accrue_refills sane started later⟩)
  · exact .inr (.inl ⟨not_lt.mp later, by rw [accrue, if_neg started, if_neg later]⟩)

lemma accrue_sane (nowUs : Nat) : (fc.accrue nowUs).Sane := by
  rcases accrue_cases sane nowUs with ⟨-, same⟩ | ⟨-, same⟩ | ⟨-, -, same⟩ <;> rw [same]
  · exact { sane with }
  · exact sane
  · exact { sane with tokens := (min_le_right _ _).trans_lt sane.target }

lemma pacingAllowance_sane (sfc : StreamFlowControl) (requested nowUs : Nat) :
    (fc.pacingAllowance sfc requested nowUs).2.Sane := by
  unfold pacingAllowance
  split
  · exact sane
  · exact accrue_sane sane nowUs

end

/-- What `cwist_http2_flow_control_reserve_send` returns. -/
def reserves (fc : FlowControl) (sfc : StreamFlowControl) (bytes nowUs : Nat) : Bool :=
  !decide ((fc.pacingAllowance sfc bytes nowUs).1 < bytes)

def spend (fc : FlowControl) (bytes : Nat) : FlowControl :=
  { fc with sendWindow := sub32 fc.sendWindow bytes, pacingTokens := fc.pacingTokens - bytes }

lemma reserveSend_refused (refused : fc.reserves sfc bytes nowUs = false) :
    fc.reserveSend sfc bytes nowUs = ((fc.pacingAllowance sfc bytes nowUs).2, sfc) := by
  have short : (fc.pacingAllowance sfc bytes nowUs).1 < bytes := by simpa [reserves] using refused
  unfold reserveSend
  dsimp only
  rw [if_pos short]

lemma reserveSend_granted (granted : fc.reserves sfc bytes nowUs = true) : fc.reserveSend sfc bytes nowUs =
      ((fc.pacingAllowance sfc bytes nowUs).2.spend bytes, { sfc with sendWindow := toInt32 (sfc.sendWindow - bytes) }) := by
  have enough : ¬(fc.pacingAllowance sfc bytes nowUs).1 < bytes := by simpa [reserves] using granted
  unfold reserveSend
  dsimp only
  rw [if_neg enough]
  rfl

lemma Sane.with_send (sane : fc.Sane) {sendWindow pacingTokens : Nat} (send : sendWindow < 2 ^ 32)
    (tokens : pacingTokens < 2 ^ 32) : { fc with sendWindow, pacingTokens }.Sane := { sane with send, tokens }

lemma spend_sane (sane : fc.Sane) (bytes : Nat) : (fc.spend bytes).Sane := by
  unfold spend
  exact sane.with_send (sub32_lt _ _) ((Nat.sub_le _ _).trans_lt sane.tokens)

lemma reserveSend_sane (sane : fc.Sane) (sfc : StreamFlowControl) (bytes nowUs : Nat) :
    (fc.reserveSend sfc bytes nowUs).1.Sane := by
  have asked := pacingAllowance_sane sane sfc bytes nowUs
  cases answer : fc.reserves sfc bytes nowUs with
  | false => rwa [reserveSend_refused answer]
  | true =>
    rw [reserveSend_granted answer]
    exact spend_sane asked bytes

end FlowControl

namespace Flow

/-- Sizes of a connection and a stream. -/
def Sane (flow : Flow) : Prop := flow.fc.Sane ∧ flow.sfc.sendWindow < 2 ^ 31

variable {flow : Flow}

lemma toInt32_lt (z : Int) : toInt32 z < 2 ^ 31 := by
  unfold toInt32
  have upper := Int.bmod_lt (x := z) (m := 2 ^ 32) (by decide)
  omega

lemma adjustSendWindow_lt (sfc : StreamFlowControl) (delta : Int) : (sfc.adjustSendWindow delta).sendWindow < 2 ^ 31 := by
  unfold StreamFlowControl.adjustSendWindow
  dsimp only
  split
  · decide
  · exact toInt32_lt _

lemma call_sane (sane : flow.Sane) (c : Call) : (flow.call c).Sane := by
  obtain ⟨fine, small⟩ := sane
  cases c with
  | receive side bytes =>
    cases side
    · refine ⟨?_, small⟩
      show ((flow.fc.receive bytes).getD flow.fc).Sane
      unfold FlowControl.receive
      split
      · exact fine
      · exact { fine with }
    · refine ⟨fine, ?_⟩
      show ((flow.sfc.receive bytes).getD flow.sfc).sendWindow < 2 ^ 31
      unfold StreamFlowControl.receive
      split <;> exact small
  | consume side bytes =>
    cases side
    · exact ⟨{ fine with }, small⟩
    · exact ⟨fine, small⟩
  | updateRtt sampleUs => exact ⟨updateRtt_sane fine sampleUs, small⟩
  | maybeWindowUpdate side bufferLen nowUs force =>
    cases side
    · exact ⟨maybeWindowUpdateInto_sane fine bufferLen nowUs force, small⟩
    · refine ⟨fine, ?_⟩
      show (flow.sfc.maybeWindowUpdateInto flow.fc bufferLen nowUs force).1.sendWindow < 2 ^ 31
      unfold StreamFlowControl.maybeWindowUpdateInto StreamFlowControl.maybeWindowUpdate
      split_ifs <;> exact small

lemma sendAllowance_sane (sane : fc.Sane) (sfc : StreamFlowControl) (requested nowUs : Nat) :
    (sendAllowance fc sfc requested nowUs).2.Sane := by
  unfold sendAllowance
  split
  · exact sane
  dsimp only
  generalize (if ((min requested fc.sendWindow : Nat) : Int) > sfc.sendWindow then _ else _) = allowed
  split
  · exact pacingAllowance_sane sane _ _ _
  · exact sane

lemma commitSend_sane (sane : fc.Sane) (sfc : StreamFlowControl) (bytes nowUs : Nat) :
    (commitSend fc sfc bytes nowUs).1.Sane := by
  unfold commitSend
  split
  · exact reserveSend_sane sane sfc bytes nowUs
  · exact sane.with_send (sub32_lt _ _) sane.tokens

lemma reserveSend_small (small : sfc.sendWindow < 2 ^ 31) (bytes nowUs : Nat) :
    (fc.reserveSend sfc bytes nowUs).2.sendWindow < 2 ^ 31 := by
  cases answer : fc.reserves sfc bytes nowUs with
  | false => rwa [reserveSend_refused answer]
  | true =>
    rw [reserveSend_granted answer]
    exact toInt32_lt _

lemma commitSend_small (small : sfc.sendWindow < 2 ^ 31) (bytes nowUs : Nat) :
    (commitSend fc sfc bytes nowUs).2.sendWindow < 2 ^ 31 := by
  unfold commitSend
  split
  · exact reserveSend_small small bytes nowUs
  · exact toInt32_lt _

lemma perform_sane (sane : flow.Sane) (c : FlowCall) : (flow.perform c).Sane := by
  cases c with
  | receiving c => exact call_sane sane c
  | «open» connection stream => exact ⟨sane.1.with_send connection.toNat_lt sane.1.tokens, toInt32_lt _⟩
  | addSendWindow side increment =>
    cases side
    · exact ⟨addSendWindow_sane sane.1 increment, sane.2⟩
    · exact ⟨sane.1, adjustSendWindow_lt _ _⟩
  | adjustSendWindow delta => exact ⟨sane.1, adjustSendWindow_lt _ _⟩
  | sendAllowance requested nowUs => exact ⟨sendAllowance_sane sane.1 _ _ _, sane.2⟩
  | commitSend bytes nowUs => exact ⟨commitSend_sane sane.1 _ _ _, commitSend_small sane.2 _ _⟩
  | pacingAllowance requested nowUs => exact ⟨pacingAllowance_sane sane.1 _ _ _, sane.2⟩
  | reserveSend bytes nowUs => exact ⟨reserveSend_sane sane.1 _ _ _, reserveSend_small sane.2 _ _⟩
  | others sfc bytes nowUs => exact ⟨reserveSend_sane sane.1 sfc bytes nowUs, sane.2⟩

lemma performAll_sane (sane : flow.Sane) (calls : List FlowCall) : (flow.performAll calls).Sane := by
  induction calls generalizing flow with
  | nil => exact sane
  | cons c rest ih => exact ih (perform_sane sane c)

lemma setUp_sane (initial maximum streamId streamInitial streamMaximum : UInt32) :
    (setUp initial maximum streamId streamInitial streamMaximum).Sane := by
  unfold setUp init
  constructor
  · exact init_sane initial maximum
  · unfold StreamFlowControl.init
    obtain ⟨first, last⟩ := initialWindows initialStreamWindow streamInitial.toNat streamMaximum.toNat
    dsimp only
    exact toInt32_lt first

end Flow

/-! ### Reservations between two retunes -/

inductive PacingCall where
  | pacingAllowance (sfc : StreamFlowControl) (requested : Nat)
  | reserveSend (sfc : StreamFlowControl) (bytes : Nat)

namespace FlowControl

def pace (fc : FlowControl) (nowUs : Nat) : PacingCall → FlowControl
  | .pacingAllowance sfc requested => (fc.pacingAllowance sfc requested nowUs).2
  | .reserveSend sfc bytes => (fc.reserveSend sfc bytes nowUs).1

/-- The octets that a call reserves. -/
def reserved (fc : FlowControl) (nowUs : Nat) : PacingCall → Nat
  | .pacingAllowance .. => 0
  | .reserveSend sfc bytes => if fc.reserves sfc bytes nowUs then bytes else 0

def reservedAll : FlowControl → List (Nat × PacingCall) → Nat
  | _, [] => 0
  | fc, (nowUs, c) :: calls => fc.reserved nowUs c + reservedAll (fc.pace nowUs c) calls

/-- Where the time of a bucket begins that is first used at `nowUs`. -/
def since (fc : FlowControl) (nowUs : Nat) : Nat := if fc.pacingLastUs = 0 then nowUs else fc.pacingLastUs

variable {fc' : FlowControl}

/-- What a call leaves: the rate, and no more tokens than the time since the last refill allows. -/
structure Paced (fc : FlowControl) (nowUs taken : Nat) (fc' : FlowControl) : Prop where
  sane : fc'.Sane
  rate : fc'.pacingRateBytesPerSec = fc.pacingRateBytesPerSec
  tokens : fc'.pacingLastUs = fc.pacingLastUs ∧ fc'.pacingTokens + taken ≤ fc.pacingTokens ∨
    fc'.pacingLastUs = nowUs ∧ fc.since nowUs ≤ nowUs ∧
      fc'.pacingTokens + taken ≤ fc.pacingTokens + (nowUs - fc.since nowUs) * fc.pacingRateBytesPerSec / 1000000

lemma added_le (fc : FlowControl) (nowUs : Nat) :
    fc.added nowUs ≤ (nowUs - fc.pacingLastUs) * fc.pacingRateBytesPerSec / 1000000 :=
  Nat.div_le_div_right (Nat.mul_le_mul_right _ (min_le_left _ _))

lemma Paced.idle (sane : fc.Sane) : fc.Paced nowUs 0 fc := ⟨sane, rfl, .inl ⟨rfl, le_refl _⟩⟩

lemma Paced.accrue (sane : fc.Sane) (nowUs : Nat) : fc.Paced nowUs 0 (fc.accrue nowUs) := by
  have fine := accrue_sane sane nowUs
  rcases accrue_cases sane nowUs with ⟨unset, same⟩ | ⟨-, same⟩ | ⟨started, later, same⟩
  · rw [same] at fine ⊢
    exact ⟨fine, rfl, .inr ⟨rfl, by rw [since, if_pos unset], Nat.le_add_right _ _⟩⟩
  · rw [same]
    exact .idle sane
  · rw [same] at fine ⊢
    have begins : fc.since nowUs = fc.pacingLastUs := if_neg started
    refine ⟨fine, rfl, .inr ⟨rfl, begins ▸ later.le, ?_⟩⟩
    rw [begins]
    exact (min_le_left _ _).trans (Nat.add_le_add_left (added_le fc nowUs) _)

lemma Paced.pacingAllowance (sane : fc.Sane) (sfc : StreamFlowControl) (requested nowUs : Nat) :
    fc.Paced nowUs 0 (fc.pacingAllowance sfc requested nowUs).2 ∧
      (fc.pacingAllowance sfc requested nowUs).1 ≤ (fc.pacingAllowance sfc requested nowUs).2.pacingTokens := by
  unfold FlowControl.pacingAllowance
  split
  · exact ⟨.idle sane, Nat.zero_le _⟩
  · exact ⟨.accrue sane nowUs, min_le_right _ _⟩

lemma Paced.with_send {sendWindow pacingTokens : Nat} (paced : fc.Paced nowUs 0 fc') (send : sendWindow < 2 ^ 32)
    (left : pacingTokens + bytes ≤ fc'.pacingTokens) : fc.Paced nowUs bytes { fc' with sendWindow, pacingTokens } := by
  have small := paced.sane.tokens
  refine ⟨paced.sane.with_send send (by omega), paced.rate, ?_⟩
  rcases paced.tokens with ⟨same, tokens⟩ | ⟨moved, ordered, tokens⟩
  · exact .inl ⟨same, left.trans tokens⟩
  · exact .inr ⟨moved, ordered, left.trans tokens⟩

lemma Paced.spend (paced : fc.Paced nowUs 0 fc') (enough : bytes ≤ fc'.pacingTokens) :
    fc.Paced nowUs bytes (fc'.spend bytes) := by
  unfold FlowControl.spend
  exact paced.with_send (sub32_lt _ _) (Nat.sub_add_cancel enough).le

lemma pace_paced (sane : fc.Sane) (nowUs : Nat) (c : PacingCall) : fc.Paced nowUs (fc.reserved nowUs c) (fc.pace nowUs c) := by
  cases c with
  | pacingAllowance sfc requested => exact (Paced.pacingAllowance sane sfc requested nowUs).1
  | reserveSend sfc bytes =>
    obtain ⟨asked, within⟩ := Paced.pacingAllowance sane sfc bytes nowUs
    unfold pace reserved
    dsimp only
    cases answer : fc.reserves sfc bytes nowUs with
    | false =>
      rw [reserveSend_refused answer]
      exact asked
    | true =>
      rw [reserveSend_granted answer]
      have granted : ¬(fc.pacingAllowance sfc bytes nowUs).1 < bytes := by simpa [reserves] using answer
      exact asked.spend ((not_lt.mp granted).trans within)

/-- The induction is on the calls; `start` is not after the first of them. -/
lemma reservedAll_le (sane : fc.Sane) {start finish : Nat} (calls : List (Nat × PacingCall))
    (sorted : (calls.map (·.1)).Pairwise (· ≤ ·)) (within : ∀ c ∈ calls, start ≤ c.1 ∧ c.1 ≤ finish) :
    fc.reservedAll calls ≤ fc.pacingTokens + (finish - fc.since start) * fc.pacingRateBytesPerSec / 1000000 := by
  induction calls generalizing fc start with
  | nil => exact Nat.zero_le _
  | cons first calls ih =>
    obtain ⟨nowUs, c⟩ := first
    obtain ⟨later, sorted⟩ := List.pairwise_cons.mp sorted
    obtain ⟨begun, ended⟩ := within (nowUs, c) List.mem_cons_self
    have step := pace_paced sane nowUs c
    have rest : _ ≤ _ + (finish - (fc.pace nowUs c).since nowUs) * _ / 1000000 := ih step.sane sorted fun c' member =>
      ⟨later c'.1 (List.mem_map_of_mem member), (within c' (List.mem_cons_of_mem _ member)).2⟩
    rw [step.rate] at rest
    show fc.reserved nowUs c + (fc.pace nowUs c).reservedAll calls ≤ _
    rcases step.tokens with ⟨same, tokens⟩ | ⟨moved, ordered, tokens⟩
    · have times : finish - (fc.pace nowUs c).since nowUs ≤ finish - fc.since start := by
        unfold since
        rw [same]
        split <;> omega
      have more := Nat.div_le_div_right (c := 1000000) (Nat.mul_le_mul_right fc.pacingRateBytesPerSec times)
      omega
    · have times : nowUs - fc.since nowUs + (finish - (fc.pace nowUs c).since nowUs) ≤ finish - fc.since start := by
        unfold since at ordered ⊢
        rw [moved]
        split_ifs at ordered ⊢ <;> omega
      have sum : (nowUs - fc.since nowUs) * fc.pacingRateBytesPerSec / 1000000 +
          (finish - (fc.pace nowUs c).since nowUs) * fc.pacingRateBytesPerSec / 1000000 ≤ _ := Nat.div_add_div_le_add_div
      rw [← add_mul] at sum
      have more := Nat.div_le_div_right (c := 1000000) (Nat.mul_le_mul_right fc.pacingRateBytesPerSec times)
      omega

/-- From a bucket that has just been refilled only the time of the calls counts. -/
lemma reservedAll_le_of_refilled (sane : fc.Sane) {start finish : Nat} (refilled : fc.pacingLastUs = start)
    (calls : List (Nat × PacingCall)) (sorted : (calls.map (·.1)).Pairwise (· ≤ ·))
    (within : ∀ c ∈ calls, start ≤ c.1 ∧ c.1 ≤ finish) :
    fc.reservedAll calls ≤ fc.pacingTokens + (finish - start) * fc.pacingRateBytesPerSec / 1000000 := by
  have begun : fc.since start = start := by
    unfold since
    split <;> omega
  have bounded := reservedAll_le sane calls sorted within
  rwa [begun] at bounded

lemma accrue_sendWindow (fc : FlowControl) (nowUs : Nat) : (fc.accrue nowUs).sendWindow = fc.sendWindow := by
  unfold accrue
  split_ifs <;> rfl

lemma accrue_rttInitialized (fc : FlowControl) (nowUs : Nat) : (fc.accrue nowUs).rttInitialized = fc.rttInitialized := by
  unfold accrue
  split_ifs <;> rfl

lemma pacingAllowance_sendWindow (fc : FlowControl) (sfc : StreamFlowControl) (requested nowUs : Nat) :
    (fc.pacingAllowance sfc requested nowUs).2.sendWindow = fc.sendWindow := by
  unfold pacingAllowance
  split
  · rfl
  · exact fc.accrue_sendWindow nowUs

lemma pacingAllowance_open (room : ¬sfc.sendWindow ≤ 0) (requested nowUs : Nat) :
    fc.pacingAllowance sfc requested nowUs =
      (min (min (min requested fc.sendWindow) sfc.sendWindow.toNat) (fc.accrue nowUs).pacingTokens, fc.accrue nowUs) := by
  rw [pacingAllowance, if_neg room]
  dsimp only
  rw [accrue_sendWindow]

lemma accrue_numbers (sane : fc.Sane) (nowUs : Nat) : (fc.accrue nowUs).targetWindow = fc.targetWindow ∧
      (fc.pacingLastUs = 0 ∧ (fc.accrue nowUs).pacingTokens = fc.pacingTokens ∧ (fc.accrue nowUs).pacingLastUs = nowUs ∨
        nowUs ≤ fc.pacingLastUs ∧ (fc.accrue nowUs).pacingTokens = fc.pacingTokens ∧
          (fc.accrue nowUs).pacingLastUs = fc.pacingLastUs ∨
        fc.pacingLastUs ≠ 0 ∧ fc.pacingLastUs < nowUs ∧ (fc.accrue nowUs).pacingLastUs = nowUs ∧
          (fc.accrue nowUs).pacingTokens = min (fc.pacingTokens + fc.added nowUs) fc.targetWindow) := by
  rcases accrue_cases sane nowUs with ⟨unset, same⟩ | ⟨early, same⟩ | ⟨started, later, same⟩ <;> rw [same]
  · exact ⟨rfl, .inl ⟨unset, rfl, rfl⟩⟩
  · exact ⟨rfl, .inr (.inl ⟨early, rfl, rfl⟩)⟩
  · exact ⟨rfl, .inr (.inr ⟨started, later, rfl, rfl⟩)⟩

lemma spend_eq (sane : fc.Sane) (within : bytes ≤ fc.sendWindow) :
    fc.spend bytes = { fc with sendWindow := fc.sendWindow - bytes, pacingTokens := fc.pacingTokens - bytes } := by
  rw [spend, sub32_of_le within sane.send]

end FlowControl

/-- Between two retunes no more is reserved than the tokens at the start and the rate over the time allow. A refill is
exact, and leaves no more than the target. A refused reservation leaves both windows. -/
theorem pacing_bounded (initial maximum streamId streamInitial streamMaximum : UInt32) (history : List FlowCall) :
    let fc := ((setUp initial maximum streamId streamInitial streamMaximum).performAll history).fc
    (∀ (calls : List (Nat × PacingCall)) (start finish : Nat), (calls.map (·.1)).Pairwise (· ≤ ·) →
      (∀ c ∈ calls, start ≤ c.1 ∧ c.1 ≤ finish) →
      fc.reservedAll calls ≤ fc.pacingTokens + (finish - fc.since start) * fc.pacingRateBytesPerSec / 1000000) ∧
    (∀ nowUs, fc.pacingLastUs ≠ 0 → fc.pacingLastUs < nowUs →
      min (nowUs - fc.pacingLastUs) fc.fillUs * fc.pacingRateBytesPerSec < 2 ^ 64 ∧
      fc.pacingTokens + fc.added nowUs < 2 ^ 64 ∧
      (fc.accrue nowUs).pacingTokens = min (fc.pacingTokens + fc.added nowUs) fc.targetWindow ∧
      (fc.accrue nowUs).pacingTokens ≤ fc.targetWindow) ∧
    ∀ (sfc : StreamFlowControl) (bytes nowUs : Nat), fc.reserves sfc bytes nowUs = false →
      (fc.reserveSend sfc bytes nowUs).1.sendWindow = fc.sendWindow ∧
      (fc.reserveSend sfc bytes nowUs).2.sendWindow = sfc.sendWindow := by
  intro fc
  have sane : fc.Sane := (performAll_sane (setUp_sane _ _ _ _ _) history).1
  refine ⟨?_, ?_, ?_⟩
  · intro calls start finish sorted within
    exact reservedAll_le sane calls sorted within
  · intro nowUs started later
    have refilled := congrArg pacingTokens (accrue_refills sane started later)
    exact ⟨fill_product sane nowUs, added_lt sane nowUs, refilled, refilled.trans_le (min_le_right _ _)⟩
  · intro sfc bytes nowUs refused
    rw [reserveSend_refused refused]
    exact ⟨fc.pacingAllowance_sendWindow sfc bytes nowUs, rfl⟩

/-- A bucket that has been used: what is reserved next comes from the tokens left and from a refill. -/
theorem pacing_bounded_fresh :
    let fc := ((setUp 0 0 1 0 0).performAll [.reserveSend 500000 1]).fc
    fc.pacingTokens = 286432 ∧
      fc.reservedAll [(1001, .reserveSend (.init 1 0 0) 200000), (2001, .reserveSend (.init 1 0 0) 100000)] ≤
        286432 + 2000 * 15728640 / 1000000 :=
  ⟨by decide, (pacing_bounded 0 0 1 0 0 [.reserveSend 500000 1]).1
    [(1001, .reserveSend (.init 1 0 0) 200000), (2001, .reserveSend (.init 1 0 0) 100000)] 1001 2001 (by decide) (by decide)⟩

/-! ### A commit of what was vetted -/

/-- The commit takes its octets from both windows, and once the RTT is known from the tokens that a refill leaves. -/
def Debited (fc : FlowControl) (sfc : StreamFlowControl) (bytes nowUs : Nat) : Prop :=
  (commitSend fc sfc bytes nowUs).1.sendWindow + bytes = fc.sendWindow ∧
    (commitSend fc sfc bytes nowUs).2.sendWindow + bytes = sfc.sendWindow ∧
    (fc.rttInitialized = true →
      (commitSend fc sfc bytes nowUs).1.pacingTokens + bytes = (fc.accrue nowUs).pacingTokens)

section Commit

variable {requested t₁ t₂ : Nat}

lemma sendAllowance_vetted (positive : 0 < bytes) (vetted : bytes ≤ (sendAllowance fc sfc requested t₁).1) :
    bytes ≤ fc.sendWindow ∧ (bytes : Int) ≤ sfc.sendWindow ∧
      (fc.rttInitialized = false ∧ (sendAllowance fc sfc requested t₁).2 = fc ∨
        fc.rttInitialized = true ∧ (sendAllowance fc sfc requested t₁).2 = fc.accrue t₁ ∧
          bytes ≤ (fc.accrue t₁).pacingTokens) := by
  unfold sendAllowance at vetted ⊢
  by_cases closed : sfc.sendWindow ≤ 0
  · rw [if_pos closed] at vetted
    omega
  rw [if_neg closed] at vetted ⊢
  dsimp only at vetted ⊢
  have both : (if ((min requested fc.sendWindow : Nat) : Int) > sfc.sendWindow then sfc.sendWindow.toNat
      else min requested fc.sendWindow) = min (min requested fc.sendWindow) sfc.sendWindow.toNat := by
    split <;> omega
  rw [both] at vetted ⊢
  cases known : fc.rttInitialized with
  | false =>
    rw [known, if_neg (by simp)] at vetted
    exact ⟨by omega, by omega, .inl ⟨rfl, by rw [if_neg (by simp)]⟩⟩
  | true =>
    by_cases some : min (min requested fc.sendWindow) sfc.sendWindow.toNat > 0
    · rw [known, if_pos ⟨rfl, some⟩] at vetted
      rw [if_pos ⟨rfl, some⟩]
      rw [pacingAllowance_open closed] at vetted ⊢
      dsimp only at vetted ⊢
      split at vetted <;> exact ⟨by omega, by omega, .inr ⟨rfl, rfl, by omega⟩⟩
    · rw [known, if_neg fun both => some both.2] at vetted
      omega

lemma accrue_suffices_iff (sane : fc.Sane) (ordered : t₁ ≤ t₂) (enough : bytes ≤ (fc.accrue t₁).pacingTokens) :
    bytes ≤ ((fc.accrue t₁).accrue t₂).pacingTokens ↔
      bytes ≤ fc.targetWindow ∨ max t₁ fc.pacingLastUs = 0 ∨ t₂ ≤ max t₁ fc.pacingLastUs := by
  obtain ⟨target, first⟩ := accrue_numbers sane t₁
  obtain ⟨-, second⟩ := accrue_numbers (accrue_sane sane t₁) t₂
  omega

lemma commitSend_debited (sane : fc.Sane) (small : sfc.sendWindow < 2 ^ 31) (open_ : bytes ≤ fc.sendWindow)
    (room : (bytes : Int) ≤ sfc.sendWindow) (positive : 0 < bytes) :
    Debited fc sfc bytes t₂ ↔ (fc.rttInitialized = true → bytes ≤ (fc.accrue t₂).pacingTokens) := by
  have exact32 : toInt32 (sfc.sendWindow - bytes) = sfc.sendWindow - bytes := by
    unfold toInt32
    rw [Int.bmod_eq_of_le (by omega) (by omega)]
  unfold Debited
  cases known : fc.rttInitialized with
  | false =>
    have result : commitSend fc sfc bytes t₂ = ({ fc with sendWindow := fc.sendWindow - bytes },
        { sfc with sendWindow := sfc.sendWindow - bytes }) := by
      rw [commitSend, known, if_neg Bool.false_ne_true, sub32_of_le open_ sane.send, exact32]
    rw [result]
    simp only [Bool.false_eq_true, false_implies, and_true, iff_true]
    omega
  | true =>
    have asked := @FlowControl.pacingAllowance_open fc sfc (by omega) bytes t₂
    have kept : bytes ≤ (fc.accrue t₂).sendWindow := by rwa [accrue_sendWindow]
    rw [commitSend, known, if_pos rfl]
    cases answer : fc.reserves sfc bytes t₂ with
    | false =>
      have short : ¬bytes ≤ (fc.accrue t₂).pacingTokens := by
        simp only [FlowControl.reserves, asked, Bool.not_eq_false', decide_eq_true_eq] at answer
        omega
      rw [reserveSend_refused answer, asked]
      constructor
      · rintro ⟨same, -⟩
        rw [accrue_sendWindow] at same
        omega
      · intro enough
        exact absurd (enough rfl) short
    | true =>
      have enough : bytes ≤ (fc.accrue t₂).pacingTokens := by
        simp only [FlowControl.reserves, asked, Bool.not_eq_true', decide_eq_false_iff_not] at answer
        omega
      rw [reserveSend_granted answer, asked, exact32,
        spend_eq (accrue_sane sane t₂) kept, accrue_sendWindow]
      simp only [enough, implies_true, iff_true, true_implies]
      omega

lemma commit_debited_of_sane {flow : Flow} (sane : flow.Sane) (ordered : t₁ ≤ t₂) (positive : 0 < bytes)
    (vetted : bytes ≤ (sendAllowance flow.fc flow.sfc requested t₁).1) :
    Debited (sendAllowance flow.fc flow.sfc requested t₁).2 flow.sfc bytes t₂ ↔ (flow.fc.rttInitialized = true →
        bytes ≤ flow.fc.targetWindow ∨ max t₁ flow.fc.pacingLastUs = 0 ∨ t₂ ≤ max t₁ flow.fc.pacingLastUs) := by
  obtain ⟨fine, small⟩ := sane
  obtain ⟨open_, room, ⟨unknown, same⟩ | ⟨known, same, enough⟩⟩ := sendAllowance_vetted positive vetted
  · rw [same, commitSend_debited fine small open_ room positive]
    simp [unknown]
  · have kept : bytes ≤ (flow.fc.accrue t₁).sendWindow := by rwa [accrue_sendWindow]
    rw [same, commitSend_debited (accrue_sane fine t₁) small kept room positive,
      accrue_rttInitialized, accrue_suffices_iff fine ordered enough]

/-- In every state that is reached, a commit of what an allowance has vetted is a debit, unless a refill comes between
them and the target is less than what was vetted. -/
theorem commit_debited_iff (initial maximum streamId streamInitial streamMaximum : UInt32) (history : List FlowCall)
    (requested bytes t₁ t₂ : Nat) (ordered : t₁ ≤ t₂) (positive : 0 < bytes)
    (vetted : bytes ≤ (sendAllowance
      ((setUp initial maximum streamId streamInitial streamMaximum).performAll history).fc
      ((setUp initial maximum streamId streamInitial streamMaximum).performAll history).sfc requested t₁).1) :
    let flow := (setUp initial maximum streamId streamInitial streamMaximum).performAll history
    Debited (sendAllowance flow.fc flow.sfc requested t₁).2 flow.sfc bytes t₂ ↔
      (flow.fc.rttInitialized = true →
        bytes ≤ flow.fc.targetWindow ∨ max t₁ flow.fc.pacingLastUs = 0 ∨ t₂ ≤ max t₁ flow.fc.pacingLastUs) := by
  intro flow
  exact commit_debited_of_sane (performAll_sane (setUp_sane _ _ _ _ _) history) ordered positive vetted

instance : Decidable (Debited fc sfc bytes t₂) := inferInstanceAs (Decidable (_ ∧ _ ∧ _))

/-- A full bucket of eleven million octets, and a refill of the window that has then halved the target. -/
def halved : List FlowCall :=
  [.open 65535 65535, .addSendWindow .connection 20000000, .addSendWindow .stream 20000000, .receiving (.updateRtt 400000),
    .pacingAllowance 1 1, .receiving (.consume .connection 1), .receiving (.maybeWindowUpdate .connection 13 1000000 true),
    .pacingAllowance 1 1000001, .receiving (.consume .connection 1),
    .receiving (.maybeWindowUpdate .connection 13 1000001 true)]

theorem vetted_commit_refused :
    let flow := (setUp 0 0x7fffffff 1 0 0x7fffffff).performAll halved
    (sendAllowance flow.fc flow.sfc 8000000 1000001).1 = 8000000 ∧
      ¬Debited (sendAllowance flow.fc flow.sfc 8000000 1000001).2 flow.sfc 8000000 1000002 := by
  decide

theorem vetted_commit_debited :
    let flow := (setUp 0 0x7fffffff 1 0 0x7fffffff).performAll halved
    Debited (sendAllowance flow.fc flow.sfc 5000000 1000001).2 flow.sfc 5000000 1000002 :=
  (commit_debited_iff 0 0x7fffffff 1 0 0x7fffffff halved 5000000 5000000 1000001 1000002 (by decide) (by decide)
    (by decide)).mpr fun _ => .inl (by decide)

end Commit

end Cwist.Http2
