import Cwist.Http2.Window

namespace Cwist.Http2
open FlowControl

def FlowControl.maybeWindowUpdateInto (fc : FlowControl) (bufferLen nowUs : Nat) (force : Bool) : FlowControl × Option Nat :=
  if bufferLen < 13 ∧ refillDue fc.pendingUpdate fc.targetWindow force then
    ({ fc with targetWindow := fc.retuned nowUs fc.pendingUpdate fc.targetWindow fc.minWindow fc.maxWindow }, none)
  else fc.maybeWindowUpdate nowUs force

def StreamFlowControl.maybeWindowUpdateInto (fc : FlowControl) (sfc : StreamFlowControl) (bufferLen nowUs : Nat)
    (force : Bool) : StreamFlowControl × Option Nat :=
  if bufferLen < 13 ∧ sfc.streamId % 2 = 1 ∧ refillDue sfc.pendingUpdate sfc.targetWindow force then
    ({ sfc with targetWindow := fc.retuned nowUs sfc.pendingUpdate sfc.targetWindow sfc.minWindow sfc.maxWindow }, none)
  else sfc.maybeWindowUpdate fc nowUs force

def grantLabel : Option Nat → Window.Label
  | some increment => .granted increment
  | none => .retuned

lemma FlowControl.maybeWindowUpdateInto_step {fc : FlowControl} {bufferLen nowUs : Nat} {force : Bool}
    (bounded : fc.window.Bounded) : fc.window.Step (grantLabel (fc.maybeWindowUpdateInto bufferLen nowUs force).2)
      (fc.maybeWindowUpdateInto bufferLen nowUs force).1.window := by
  unfold maybeWindowUpdateInto
  split
  · have allowed := fc.retuned_allowed bounded nowUs fc.pendingUpdate
    exact .retune _ allowed.1 allowed.2
  · rcases maybeWindowUpdate_step bounded with ⟨credit, written, step⟩ | same
    · exact written ▸ step
    · exact same ▸ bounded.stays

lemma StreamFlowControl.maybeWindowUpdateInto_step {sfc : StreamFlowControl} {bufferLen nowUs : Nat} {force : Bool}
    (fc : FlowControl) (bounded : sfc.window.Bounded) :
    sfc.window.Step (grantLabel (sfc.maybeWindowUpdateInto fc bufferLen nowUs force).2)
      (sfc.maybeWindowUpdateInto fc bufferLen nowUs force).1.window := by
  unfold StreamFlowControl.maybeWindowUpdateInto
  split
  · have allowed := fc.retuned_allowed bounded nowUs sfc.pendingUpdate
    exact .retune _ allowed.1 allowed.2
  · rcases maybeWindowUpdate_step fc bounded with ⟨credit, written, step⟩ | same
    · exact written ▸ step
    · exact same ▸ bounded.stays

structure Flow where
  fc : FlowControl
  sfc : StreamFlowControl

inductive Side where
  | connection | stream
  deriving DecidableEq

inductive Call where
  | receive (side : Side) (bytes : Nat)
  | consume (side : Side) (bytes : Nat)
  | updateRtt (sampleUs : Nat)
  | maybeWindowUpdate (side : Side) (bufferLen nowUs : Nat) (force : Bool)

namespace Flow

def init (initial maximum streamId streamInitial streamMaximum : Nat) : Flow :=
  ⟨.init initial maximum, .init streamId streamInitial streamMaximum⟩

section

variable (flow : Flow)

def window : Side → Window
  | .connection => flow.fc.window
  | .stream => flow.sfc.window

def step : Call → Flow × Option Nat
  | .receive .connection bytes => ({ flow with fc := (flow.fc.receive bytes).getD flow.fc }, none)
  | .receive .stream bytes => ({ flow with sfc := (flow.sfc.receive bytes).getD flow.sfc }, none)
  | .consume .connection bytes => ({ flow with fc := flow.fc.consume bytes }, none)
  | .consume .stream bytes => ({ flow with sfc := flow.sfc.consume bytes }, none)
  | .updateRtt sampleUs => ({ flow with fc := flow.fc.updateRtt sampleUs }, none)
  | .maybeWindowUpdate .connection bufferLen nowUs force =>
    let updated := flow.fc.maybeWindowUpdateInto bufferLen nowUs force
    ({ flow with fc := updated.1 }, updated.2)
  | .maybeWindowUpdate .stream bufferLen nowUs force =>
    let updated := flow.sfc.maybeWindowUpdateInto flow.fc bufferLen nowUs force
    ({ flow with sfc := updated.1 }, updated.2)

def call (c : Call) : Flow := (flow.step c).1

def run (calls : List Call) : Flow := calls.foldl call flow

/-- Both windows are within their bounds. -/
def Bounded : Prop := ∀ side, (flow.window side).Bounded

end

end Flow

namespace Flow

variable {flow : Flow} {side : Side}

def label (flow : Flow) (c : Call) (side : Side) : Window.Label :=
  match c with
  | .receive s bytes => if s = side ∧ bytes ≤ (flow.window side).receive then .received bytes else .idle
  | .consume s bytes => if s = side then .consumed bytes else .idle
  | .updateRtt _ => if side = .connection then .adjusted else .idle
  | .maybeWindowUpdate s .. => if s = side then grantLabel (flow.step c).2 else .idle

lemma call_step (bounded : flow.Bounded) (c : Call) (side : Side) :
    (flow.window side).Step (flow.label c side) ((flow.call c).window side) := by
  cases c with
  | receive s bytes =>
    cases s <;> cases side
    · simpa [label, call, step, window] using flow.fc.receive_step bytes
    · exact .idle
    · exact .idle
    · simpa [label, call, step, window] using flow.sfc.receive_step bytes
  | consume s bytes =>
    cases s <;> cases side
    · exact .consume bytes
    · exact .idle
    · exact .idle
    · exact .consume bytes
  | updateRtt sampleUs =>
    cases side
    · exact updateRtt_step (bounded .connection) sampleUs
    · exact .idle
  | maybeWindowUpdate s bufferLen nowUs force =>
    cases s <;> cases side
    · exact maybeWindowUpdateInto_step (bounded .connection)
    · exact .idle
    · exact .idle
    · exact StreamFlowControl.maybeWindowUpdateInto_step flow.fc (bounded .stream)

lemma call_bounded (bounded : flow.Bounded) (c : Call) : (flow.call c).Bounded :=
  fun side => (call_step bounded c side).bounded (bounded side)

lemma run_bounded (bounded : flow.Bounded) (calls : List Call) : (flow.run calls).Bounded := by
  induction calls generalizing flow with
  | nil => exact bounded
  | cons c rest ih => exact ih (call_bounded bounded c)

/-- Every refill keeps the targets within a factor of two. -/
def Gradual (flow : Flow) : Prop :=
  ∀ s bufferLen nowUs force side,
    (flow.window side).Near ((flow.call (.maybeWindowUpdate s bufferLen nowUs force)).window side).target

lemma Bounded.gradual (bounded : flow.Bounded) : flow.Gradual := by
  intro s bufferLen nowUs force side
  refine (call_step bounded (.maybeWindowUpdate s bufferLen nowUs force) side).near ?_
  unfold label
  dsimp only
  split
  · cases (flow.step (.maybeWindowUpdate s bufferLen nowUs force)).2 <;> nofun
  · nofun

lemma initialWindows_bounded {default initial : Nat} (maximum : Nat) (small : default ≤ maxWindow) :
    Window.Bounded ⟨(initialWindows default initial maximum).1, (initialWindows default initial maximum).1,
      (initialWindows default initial maximum).1, (initialWindows default initial maximum).2, 0⟩ ↔
      initial ≤ maxWindow := by
  unfold initialWindows
  constructor
  · intro bounded
    have credit := bounded.credit
    split at credit <;> omega
  · intro fits
    have start : (if initial < default then default else initial) ≤ maxWindow := by split <;> omega
    generalize (if initial < default then default else initial) = initial at start ⊢
    refine ⟨le_refl initial, ?_, ?_, start⟩ <;> dsimp only <;> split <;> split <;> omega

lemma init_bounded (initial maximum streamId streamInitial streamMaximum : Nat) :
    (init initial maximum streamId streamInitial streamMaximum).Bounded ↔
      initial ≤ maxWindow ∧ streamInitial ≤ maxWindow := by
  have connection : (FlowControl.init initial maximum).window.Bounded ↔ initial ≤ maxWindow :=
    initialWindows_bounded maximum (by decide)
  have stream : (StreamFlowControl.init streamId streamInitial streamMaximum).window.Bounded ↔
      streamInitial ≤ maxWindow := initialWindows_bounded streamMaximum (by decide)
  constructor
  · intro bounded
    exact ⟨connection.mp (bounded .connection), stream.mp (bounded .stream)⟩
  rintro ⟨fits, streamFits⟩ side
  cases side
  · exact connection.mpr fits
  · exact stream.mpr streamFits

end Flow

/-- The bounds hold along every sequence of calls, and every refill moves a target by at most a factor of two, exactly
when neither initial window is above the protocol's maximum. -/
theorem flow_bounded_iff (initial maximum streamId streamInitial streamMaximum : UInt32) :
    (∀ calls, ((Flow.init initial.toNat maximum.toNat streamId.toNat streamInitial.toNat streamMaximum.toNat).run
        calls).Bounded ∧
      ((Flow.init initial.toNat maximum.toNat streamId.toNat streamInitial.toNat streamMaximum.toNat).run
        calls).Gradual) ↔ initial.toNat ≤ maxWindow ∧ streamInitial.toNat ≤ maxWindow := by
  constructor
  · intro always
    exact (Flow.init_bounded _ _ _ _ _).mp (always []).1
  · intro fits calls
    have bounded := Flow.run_bounded ((Flow.init_bounded _ maximum.toNat streamId.toNat _ streamMaximum.toNat).mpr fits) calls
    exact ⟨bounded, bounded.gradual⟩

/-- An initial window of 2^31 is not reduced, and is above the maximum that it is given. -/
theorem flow_unbounded_init : ¬(init 0x80000000 0x80000000).window.Bounded ∧
    (init 0x80000000 0x80000000).receiveWindow = 0x80000000 ∧ (init 0x80000000 0x80000000).maxWindow = 0x7fffffff := by
  refine ⟨fun bounded => ?_, by decide, by decide⟩
  exact absurd bounded.credit (by decide)

structure Meter where
  received : Nat
  consumed : Nat
  largest : Nat

namespace Meter

def unconsumed (m : Meter) : Nat := m.received - m.consumed

def read (m : Meter) (label : Window.Label) (target : Nat) : Meter :=
  let m := { m with largest := max m.largest target }
  match label with
  | .received bytes => { m with received := m.received + bytes }
  | .consumed bytes => { m with consumed := m.consumed + bytes }
  | _ => m

end Meter

namespace Window

variable {w w' : Window} {label : Label} {m : Meter}

/-- The credit that the peer holds and the octets not yet consumed are within the largest target. -/
def Backed (w : Window) (m : Meter) : Prop := w.receive + m.unconsumed ≤ m.largest

def Patient (m : Meter) : Label → Prop
  | .consumed bytes => m.consumed + bytes ≤ m.received
  | _ => True

def Covered (w : Window) (m : Meter) (target : Nat) : Label → Prop
  | .granted _ => target ≤ w.receive + w.pending ∨ target + m.unconsumed ≤ max m.largest target
  | _ => True

/-- What a refill writes is a legal increment. -/
def Legal : Label → Prop
  | .granted increment => 1 ≤ increment ∧ increment ≤ Http2.maxWindow
  | _ => True

/-- Credit, octets not yet consumed and octets consumed but not yet returned are within the largest target. -/
structure Tracked (w : Window) (m : Meter) : Prop where
  ordered : m.consumed ≤ m.received
  total : w.receive + w.pending + m.unconsumed ≤ m.largest
  limit : m.largest ≤ Http2.maxWindow

lemma Tracked.backed (tracked : w.Tracked m) : w.Backed m :=
  (Nat.add_le_add_right (Nat.le_add_right _ _) _).trans tracked.total

lemma Tracked.credited (tracked : w.Tracked m) (bounded : w.Bounded) {target : Nat} (allowed : w.Allows target) :
    Http2.credited w.receive (increment w.pending w.receive target) = max (w.receive + w.pending) target :=
  credited_increment ((Nat.le_add_right _ _).trans (tracked.total.trans tracked.limit))
    (allowed.2.trans bounded.limit)

lemma Step.tracked (bounded : w.Bounded) (tracked : w.Tracked m) (patient : Patient m label) (step : Step w label w')
    (covered : w.Covered m w'.target label) : w'.Tracked (m.read label w'.target) := by
  obtain ⟨ordered, total, limit⟩ := tracked
  have protocol := bounded.limit
  unfold Meter.unconsumed at total
  have kept {target : Nat} (allowed : w.Allows target) : max m.largest target ≤ Http2.maxWindow :=
    Nat.max_le.mpr ⟨limit, allowed.2.trans protocol⟩
  cases step with
  | idle => exact ⟨ordered, total.trans (le_max_left _ _), kept bounded.allows⟩
  | receive bytes fits =>
    refine ⟨ordered.trans (Nat.le_add_right _ _), ?_, kept bounded.allows⟩
    simp only [Meter.read, Meter.unconsumed]
    omega
  | consume bytes =>
    have patient : m.consumed + bytes ≤ m.received := patient
    have small : Http2.consumed w.pending bytes = w.pending + bytes := by
      have : Http2.maxWindow = 2 ^ 31 - 1 := rfl
      unfold Http2.consumed
      rw [if_neg (by omega)]
    refine ⟨patient, ?_, kept bounded.allows⟩
    simp only [Meter.read, Meter.unconsumed, small]
    omega
  | adjust target allowed => exact ⟨ordered, total.trans (le_max_left _ _), kept allowed⟩
  | retune target allowed near => exact ⟨ordered, total.trans (le_max_left _ _), kept allowed⟩
  | grant target allowed near due =>
    refine ⟨ordered, ?_, kept allowed⟩
    rw [Tracked.credited ⟨ordered, total, limit⟩ bounded allowed]
    have covered : target ≤ w.receive + w.pending ∨ target + m.unconsumed ≤ max m.largest target := covered
    simp only [Meter.read, Meter.unconsumed] at covered ⊢
    omega

lemma Step.backed_iff (bounded : w.Bounded) (tracked : w.Tracked m) (patient : Patient m label) (step : Step w label w') :
    w'.Backed (m.read label w'.target) ∧ Legal label ↔ w.Covered m w'.target label := by
  constructor
  · rintro ⟨backed, -⟩
    cases step with
    | grant target allowed near due =>
      rw [tracked.credited bounded allowed] at backed
      show target ≤ w.receive + w.pending ∨ target + m.unconsumed ≤ max m.largest target
      have backed : max (w.receive + w.pending) target + m.unconsumed ≤ max m.largest target := backed
      omega
    | _ => trivial
  · intro covered
    refine ⟨(step.tracked bounded tracked patient covered).backed, ?_⟩
    cases step with
    | grant target allowed near due =>
      have held := tracked.total.trans tracked.limit
      have top := allowed.2.trans bounded.limit
      show 1 ≤ increment w.pending w.receive target ∧ increment w.pending w.receive target ≤ Http2.maxWindow
      rw [increment_eq_max]
      omega
    | _ => trivial

end Window

structure Metered where
  flow : Flow
  meter : Side → Meter

namespace Metered

def init (flow : Flow) : Metered := ⟨flow, fun side => ⟨0, 0, (flow.window side).target⟩⟩

section

variable (x : Metered) (c : Call)

def call : Metered :=
  ⟨x.flow.call c, fun side => (x.meter side).read (x.flow.label c side) ((x.flow.call c).window side).target⟩

/-- The application consumes later than it receives. -/
def Patient : Prop := ∀ side, Window.Patient (x.meter side) (x.flow.label c side)

/-- After the call both windows are backed, and what it has written is a legal increment. -/
def Backpressure : Prop :=
  ∀ side, ((x.call c).flow.window side).Backed ((x.call c).meter side) ∧ Window.Legal (x.flow.label c side)

/-- Whatever the call refills is covered. -/
def Covered : Prop :=
  ∀ side, (x.flow.window side).Covered (x.meter side) ((x.call c).flow.window side).target (x.flow.label c side)

end

/-- What holds of both windows as long as every refill was covered. -/
structure Tracked (x : Metered) : Prop where
  bounded : x.flow.Bounded
  tracked : ∀ side, (x.flow.window side).Tracked (x.meter side)

variable {x : Metered} {c : Call}

lemma Tracked.call (tracked : x.Tracked) (patient : x.Patient c) (covered : x.Covered c) : (x.call c).Tracked where
  bounded := Flow.call_bounded tracked.bounded c
  tracked := fun side =>
    (Flow.call_step tracked.bounded c side).tracked (tracked.bounded side) (tracked.tracked side) (patient side)
      (covered side)

lemma Tracked.backpressure_iff (tracked : x.Tracked) (patient : x.Patient c) : x.Backpressure c ↔ x.Covered c :=
  forall_congr' fun side =>
    (Flow.call_step tracked.bounded c side).backed_iff (tracked.bounded side) (tracked.tracked side) (patient side)

/-- Once everything received is consumed, any refill is covered. -/
lemma covered_of_consumed (consumed : ∀ side, (x.meter side).consumed = (x.meter side).received) : x.Covered c := by
  intro side
  cases label : x.flow.label c side with
  | granted increment =>
    have none_ : (x.meter side).unconsumed = 0 := by
      rw [Meter.unconsumed, consumed side, Nat.sub_self]
    exact .inr (none_ ▸ le_max_right _ _)
  | _ => trivial

lemma init_tracked {flow : Flow} (bounded : flow.Bounded)
    (fresh : ∀ side, (flow.window side).receive = (flow.window side).target ∧ (flow.window side).pending = 0) :
    (init flow).Tracked := by
  refine ⟨bounded, fun side => ?_⟩
  obtain ⟨full, none⟩ := fresh side
  obtain ⟨-, high, limit, -⟩ := bounded side
  refine ⟨le_refl 0, ?_, high.trans limit⟩
  show (flow.window side).receive + (flow.window side).pending + (0 - 0) ≤ (flow.window side).target
  omega

end Metered

lemma init_fresh (initial maximum streamId streamInitial streamMaximum : Nat) (side : Side) :
    ((Flow.init initial maximum streamId streamInitial streamMaximum).window side).receive =
        ((Flow.init initial maximum streamId streamInitial streamMaximum).window side).target ∧
      ((Flow.init initial maximum streamId streamInitial streamMaximum).window side).pending = 0 := by
  cases side <;> exact ⟨rfl, rfl⟩

/-- With an application that consumes later than it receives, the credit stays backed and the increments legal
exactly as long as every refill is covered: its target is within credit and consumed octets, or the largest target
has room for the others. -/
theorem run_backpressure_iff {initial streamInitial : Nat} (maximum streamId streamMaximum : Nat) (calls : List Call)
    (fits : initial ≤ maxWindow) (streamFits : streamInitial ≤ maxWindow)
    (patient : Machine.Meets Metered.call Metered.Patient
      (.init (.init initial maximum streamId streamInitial streamMaximum)) calls) :
    Machine.Meets Metered.call Metered.Backpressure
        (.init (.init initial maximum streamId streamInitial streamMaximum)) calls ↔
      Machine.Meets Metered.call Metered.Covered
        (.init (.init initial maximum streamId streamInitial streamMaximum)) calls := by
  have bounded := (Flow.init_bounded initial maximum streamId streamInitial streamMaximum).mpr ⟨fits, streamFits⟩
  refine Machine.Meets.congr (fun x c => Metered.Tracked.backpressure_iff) (fun x c => Metered.Tracked.call) ?_ patient
  exact Metered.init_tracked bounded (init_fresh _ _ _ _ _)

/-- A million octets that are consumed before the refill. -/
theorem run_backpressure_consumed : Machine.Meets Metered.call Metered.Backpressure (.init (.init 0 0 1 0 0))
      [.receive .connection 1000000, .consume .connection 1000000, .maybeWindowUpdate .connection 13 1 false] := by
  refine (run_backpressure_iff 0 1 0 _ (by decide) (by decide) ?_).mpr ?_
  · have later : 0 + 1000000 ≤ 0 + 1000000 := le_rfl
    refine ⟨fun side => ?_, fun side => ?_, fun side => ?_, trivial⟩ <;> cases side
    all_goals trivial
  · refine ⟨fun side => ?_, fun side => ?_, Metered.covered_of_consumed fun side => ?_, trivial⟩ <;> cases side
    all_goals trivial

/-- The peer uses the whole window and half of it is consumed: the refill grants the window again. -/
theorem run_unbacked : Machine.Meets Metered.call Metered.Patient (.init (.init 0 0 1 0 0))
        [.receive .connection 1572864, .consume .connection 786432, .maybeWindowUpdate .connection 13 1 false] ∧
      ¬Machine.Meets Metered.call Metered.Backpressure (.init (.init 0 0 1 0 0))
        [.receive .connection 1572864, .consume .connection 786432, .maybeWindowUpdate .connection 13 1 false] := by
  constructor
  · have later : 0 + 786432 ≤ 0 + 1572864 := by decide
    refine ⟨fun side => ?_, fun side => ?_, fun side => ?_, trivial⟩ <;> cases side
    all_goals trivial
  · rintro ⟨-, -, refill, -⟩
    have backed : 1572864 + 786432 ≤ 1572864 := (refill .connection).1
    exact absurd backed (by decide)

end Cwist.Http2
