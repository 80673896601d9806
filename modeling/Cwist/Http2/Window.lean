import Cwist.Http2.FlowControl
import Cwist.Lib.Machine

namespace Cwist.Http2
open Http2

structure Window where
  receive : Nat
  target : Nat
  minimum : Nat
  maximum : Nat
  pending : Nat

def FlowControl.window (fc : FlowControl) : Window :=
  ⟨fc.receiveWindow, fc.targetWindow, fc.minWindow, fc.maxWindow, fc.pendingUpdate⟩

def StreamFlowControl.window (sfc : StreamFlowControl) : Window :=
  ⟨sfc.receiveWindow, sfc.targetWindow, sfc.minWindow, sfc.maxWindow, sfc.pendingUpdate⟩

namespace Window

/-- The target is between its bounds, and neither it nor the credit exceeds what the protocol allows. -/
structure Bounded (w : Window) : Prop where
  low : w.minimum ≤ w.target
  high : w.target ≤ w.maximum
  limit : w.maximum ≤ maxWindow
  credit : w.receive ≤ maxWindow

def Allows (w : Window) (target : Nat) : Prop := w.minimum ≤ target ∧ target ≤ w.maximum

def Near (w : Window) (target : Nat) : Prop := w.target / 2 ≤ target ∧ target ≤ 2 * w.target

inductive Label where
  | idle
  | received (bytes : Nat)
  | consumed (bytes : Nat)
  | adjusted
  | retuned
  | granted (increment : Nat)

inductive Step (w : Window) : Label → Window → Prop where
  | idle : Step w .idle w
  | receive (bytes : Nat) (fits : bytes ≤ w.receive) : Step w (.received bytes) { w with receive := w.receive - bytes }
  | consume (bytes : Nat) : Step w (.consumed bytes) { w with pending := Http2.consumed w.pending bytes }
  | adjust (target : Nat) (allowed : w.Allows target) : Step w .adjusted { w with target }
  | retune (target : Nat) (allowed : w.Allows target) (near : w.Near target) : Step w .retuned { w with target }
  | grant (target : Nat) (allowed : w.Allows target) (near : w.Near target) (due : 0 < w.pending) :
      Step w (.granted (increment w.pending w.receive target))
        { w with
          target
          receive := credited w.receive (increment w.pending w.receive target)
          pending := 0 }

variable {w w' : Window} {label : Label}

lemma credited_le (window credit : Nat) (inside : window ≤ maxWindow) : credited window credit ≤ maxWindow := by
  unfold credited
  rw [sub32_of_le inside (by decide)]
  split <;> omega

lemma increment_eq_max (pending window target : Nat) :
    increment pending window target = max pending (target - window) := by
  have topUp : (if window < target then target - window else 0) = target - window := by split <;> omega
  unfold increment
  dsimp only
  rw [topUp]
  split <;> omega

lemma credited_increment {pending window target : Nat} (held : window + pending ≤ maxWindow)
    (allowed : target ≤ maxWindow) :
    credited window (increment pending window target) = max (window + pending) target := by
  unfold credited
  rw [increment_eq_max, sub32_of_le (by omega) (by decide)]
  split <;> omega

lemma Step.bounded (bounded : w.Bounded) (step : Step w label w') : w'.Bounded := by
  cases step with
  | idle => exact bounded
  | receive bytes fits => exact { bounded with credit := (Nat.sub_le _ _).trans bounded.credit }
  | consume bytes => exact { bounded with }
  | adjust target allowed => exact { bounded with low := allowed.1, high := allowed.2 }
  | retune target allowed near => exact { bounded with low := allowed.1, high := allowed.2 }
  | grant target allowed near due => exact ⟨allowed.1, allowed.2, bounded.limit, credited_le _ _ bounded.credit⟩

lemma Bounded.allows (bounded : w.Bounded) : w.Allows w.target := ⟨bounded.low, bounded.high⟩

lemma near_target (w : Window) : w.Near w.target := ⟨Nat.div_le_self _ _, Nat.le_mul_of_pos_left _ (by decide)⟩

lemma Bounded.stays (bounded : w.Bounded) : Step w .retuned w := .retune w.target bounded.allows w.near_target

lemma Step.near (step : Step w label w') (other : label ≠ .adjusted) : w.Near w'.target := by
  cases step with
  | idle => exact w.near_target
  | receive bytes fits => exact w.near_target
  | consume bytes => exact w.near_target
  | adjust target allowed => exact absurd rfl other
  | retune target allowed near => exact near
  | grant target allowed near due => exact near

lemma windowClamp_allowed (value : Nat) {minimum maximum : Nat} (ordered : minimum ≤ maximum) :
    minimum ≤ windowClamp value minimum maximum ∧ windowClamp value minimum maximum ≤ maximum := by
  unfold windowClamp
  split
  · omega
  · split <;> omega

lemma Bounded.retuneTarget (bounded : w.Bounded) (pending srttUs intervalUs : Nat) :
    w.Allows (retuneTarget pending srttUs intervalUs w.target w.minimum w.maximum) ∧
      w.Near (retuneTarget pending srttUs intervalUs w.target w.minimum w.maximum) := by
  obtain ⟨low, high, -, -⟩ := bounded
  unfold Http2.retuneTarget
  split
  · exact ⟨⟨low, high⟩, w.near_target⟩
  have allowed (value : Nat) : w.Allows (windowClamp value w.minimum w.maximum) :=
    windowClamp_allowed value (low.trans high)
  dsimp only
  split
  · refine ⟨allowed _, ?_⟩
    unfold Near windowClamp
    split
    · omega
    · split <;> omega
  · split
    · refine ⟨allowed _, ?_⟩
      unfold Near windowClamp
      split
      · omega
      · split <;> omega
    · refine ⟨allowed _, ?_⟩
      unfold Near
      omega

end Window

variable {fc : FlowControl} {sfc : StreamFlowControl} {nowUs : Nat} {force : Bool}

lemma FlowControl.retuned_allowed {w : Window} (fc : FlowControl) (bounded : w.Bounded) (nowUs pending : Nat) :
    w.Allows (fc.retuned nowUs pending w.target w.minimum w.maximum) ∧
      w.Near (fc.retuned nowUs pending w.target w.minimum w.maximum) := by
  unfold FlowControl.retuned
  split
  · exact bounded.retuneTarget _ _ _
  · exact ⟨bounded.allows, w.near_target⟩

lemma FlowControl.receive_step (fc : FlowControl) (bytes : Nat) :
    fc.window.Step (if bytes ≤ fc.window.receive then .received bytes else .idle) ((fc.receive bytes).getD fc).window := by
  unfold FlowControl.receive
  by_cases fits : bytes ≤ fc.window.receive
  · have within : ¬bytes > fc.receiveWindow := not_lt.mpr fits
    rw [if_pos fits, if_neg within]
    exact .receive bytes fits
  · have beyond : bytes > fc.receiveWindow := not_le.mp fits
    rw [if_neg fits, if_pos beyond]
    exact .idle

lemma StreamFlowControl.receive_step (sfc : StreamFlowControl) (bytes : Nat) :
    sfc.window.Step (if bytes ≤ sfc.window.receive then .received bytes else .idle)
      ((sfc.receive bytes).getD sfc).window := by
  unfold StreamFlowControl.receive
  by_cases fits : bytes ≤ sfc.window.receive
  · have within : ¬bytes > sfc.receiveWindow := not_lt.mpr fits
    rw [if_pos fits, if_neg within]
    exact .receive bytes fits
  · have beyond : bytes > sfc.receiveWindow := not_le.mp fits
    rw [if_neg fits, if_pos beyond]
    exact .idle

lemma FlowControl.adjust_step (bounded : fc.window.Bounded) : fc.window.Step .adjusted fc.adjust.window := by
  unfold FlowControl.adjust
  split
  · exact .adjust _ (Window.windowClamp_allowed _ (bounded.low.trans bounded.high))
  · exact .adjust fc.targetWindow bounded.allows

lemma FlowControl.updateRtt_step (bounded : fc.window.Bounded) (sampleUs : Nat) :
    fc.window.Step .adjusted (fc.updateRtt sampleUs).window := by
  unfold FlowControl.updateRtt
  split
  · exact .adjust fc.targetWindow bounded.allows
  split
  · exact @FlowControl.adjust_step { fc with
      rttvarUs := (3 * fc.rttvarUs + absDiff fc.srttUs sampleUs) % 2 ^ 64 / 4
      srttUs := (7 * fc.srttUs + sampleUs) % 2 ^ 64 / 8 } bounded
  · exact @FlowControl.adjust_step { fc with
      srttUs := sampleUs, rttvarUs := sampleUs / 2, rttInitialized := true } bounded

lemma pending_of_refillDue {pending target : Nat} (due : refillDue pending target force = true) : 0 < pending := by
  simp only [refillDue, Bool.not_eq_true', Bool.or_eq_false_iff, beq_eq_false_iff_ne] at due
  omega

lemma FlowControl.maybeWindowUpdate_step (bounded : fc.window.Bounded) :
    (∃ credit, (fc.maybeWindowUpdate nowUs force).2 = some credit ∧
        fc.window.Step (.granted credit) (fc.maybeWindowUpdate nowUs force).1.window) ∨
      fc.maybeWindowUpdate nowUs force = (fc, none) := by
  unfold FlowControl.maybeWindowUpdate
  split
  next due =>
    have allowed := fc.retuned_allowed bounded nowUs fc.pendingUpdate
    exact .inl ⟨_, rfl, .grant _ allowed.1 allowed.2 (pending_of_refillDue due)⟩
  · exact .inr rfl

lemma StreamFlowControl.maybeWindowUpdate_step (fc : FlowControl) (bounded : sfc.window.Bounded) :
    (∃ credit, (sfc.maybeWindowUpdate fc nowUs force).2 = some credit ∧
        sfc.window.Step (.granted credit) (sfc.maybeWindowUpdate fc nowUs force).1.window) ∨
      sfc.maybeWindowUpdate fc nowUs force = (sfc, none) := by
  unfold StreamFlowControl.maybeWindowUpdate
  split
  · exact .inr rfl
  split
  next due =>
    have allowed := fc.retuned_allowed bounded nowUs sfc.pendingUpdate
    exact .inl ⟨_, rfl, .grant _ allowed.1 allowed.2 (pending_of_refillDue due)⟩
  · exact .inr rfl

end Cwist.Http2
