import Cwist.Grpc.Retry

namespace Cwist.Grpc
open List

open H2 (Frame)

namespace Event

def Timely (deadline : Nat) : Event → Prop
  | attempt _ clock _ _ => deadline ≠ 0 → ∃ now, clock = some now ∧ now ≤ deadline
  | sleep _ clock delay => deadline ≠ 0 → delay ≠ 0 → ∃ now, clock = some now ∧ now + delay ≤ deadline
  | idle => True

instance (deadline : Nat) : DecidablePred (Timely deadline)
  | attempt _ clock _ _ =>
    decidable_of_iff (deadline ≠ 0 → clock.any (· ≤ deadline) = true) (by cases clock <;> simp [Timely])
  | sleep _ clock delay =>
    decidable_of_iff (deadline ≠ 0 → delay ≠ 0 → clock.any (· + delay ≤ deadline) = true) (by cases clock <;> simp [Timely])
  | idle => inferInstanceAs (Decidable True)

/-- From the check of the deadline on, a connection is found within the time of a dial, and an attempt on it is over
within that of an attempt. -/
def Lasts (dial trial : Nat) : Event → Prop
  | attempt checked clock _ _ => ∀ now ∈ clock, now ≤ checked + dial
  | sleep checked clock _ => ∀ now ∈ clock, now ≤ checked + (dial + trial)
  | idle => True

/-- A check that passes does so with the time left for what follows on it. -/
def Leaves (dial trial deadline : Nat) : Event → Prop
  | attempt checked _ _ _ => checked < deadline → checked + dial ≤ deadline
  | sleep checked _ _ => checked < deadline → checked + (dial + trial) ≤ deadline
  | idle => True

instance (dial trial : Nat) : DecidablePred (Lasts dial trial)
  | attempt checked clock _ _ => inferInstanceAs (Decidable (∀ now ∈ clock, now ≤ checked + dial))
  | sleep checked clock _ => inferInstanceAs (Decidable (∀ now ∈ clock, now ≤ checked + (dial + trial)))
  | idle => inferInstanceAs (Decidable True)

instance (dial trial deadline : Nat) : DecidablePred (Leaves dial trial deadline)
  | attempt checked _ _ _ => inferInstanceAs (Decidable (checked < deadline → checked + dial ≤ deadline))
  | sleep checked _ _ => inferInstanceAs (Decidable (checked < deadline → checked + (dial + trial) ≤ deadline))
  | idle => inferInstanceAs (Decidable True)

def Checked (plan : Plan) : Event → Prop
  | attempt checked clock _ _ => plan.Reads clock ∧ (plan.deadline ≠ 0 → checked < plan.deadline)
  | sleep checked clock delay => plan.Sleeps clock delay ∧ (plan.deadline ≠ 0 → checked < plan.deadline)
  | idle => True

variable {plan : Plan} {event : Event}

lemma sleep_le_left {deadline now wanted : Nat} (small : deadline < 2 ^ 64) (before : now ≤ deadline) :
    now + min wanted ((deadline + (2 ^ 64 - now)) % 2 ^ 64) ≤ deadline := by
  omega

lemma Checked.timely {dial trial : Nat} (small : plan.deadline < 2 ^ 64) (checked : event.Checked plan)
    (lasts : event.Lasts dial trial) (leaves : event.Leaves dial trial plan.deadline) : event.Timely plan.deadline := by
  cases event with
  | idle => trivial
  | attempt first clock before result =>
    intro limited
    obtain ⟨reads, early⟩ := checked
    have left := leaves (early limited)
    cases clock with
    | none => exact absurd (reads.mp rfl) limited
    | some now =>
      have soon := lasts now rfl
      exact ⟨now, rfl, le_trans soon left⟩
  | sleep first clock delay =>
    intro limited _
    obtain ⟨⟨reads, sleeps⟩, early⟩ := checked
    have left := leaves (early limited)
    cases clock with
    | none => exact absurd (reads.mp rfl) limited
    | some now =>
      have soon := lasts now rfl
      obtain ⟨-, wanted, cut⟩ := sleeps now rfl
      refine ⟨now, rfl, ?_⟩
      rw [cut]
      exact sleep_le_left small (le_trans soon left)

end Event

structure Watched (plan : Plan) (trace : List Event) : Prop where
  small : plan.deadline < 2 ^ 64
  checked : ∀ event ∈ trace, event.Checked plan

lemma Watched.snoc {plan : Plan} {trace : List Event} {event : Event} (watched : Watched plan trace)
    (new : event.Checked plan) : Watched plan (trace ++ [event]) := by
  refine ⟨watched.small, fun other member => ?_⟩
  rcases mem_append.mp member with old | same
  · exact watched.checked other old
  · rw [mem_singleton.mp same]
    exact new

lemma Channel.callStart_watched (env : Env) (ch : Channel) (method : CStr) (request : Bytes) (timeoutMs : Nat) :
    Watched (ch.callStart env method request timeoutMs).2.plan (ch.callStart env method request timeoutMs).2.trace := by
  refine ⟨?_, fun _ none => (nomatch none)⟩
  show (ch.deadlineAfter env (effTimeout (ch.findMc method) timeoutMs)).1 < 2 ^ 64
  unfold deadlineAfter
  split
  · exact Nat.two_pow_pos 64
  · exact Nat.mod_lt _ (Nat.two_pow_pos 64)

namespace Engine

variable {env : Env} {e : Engine}

lemma Steps.watched {e' : Engine} (watched : Watched e.plan e.trace) (steps : e.Steps env (.again e')) :
    Watched e'.plan e'.trace := by
  cases steps with
  | idle => exact watched.snoc trivial
  | redialed backoff next early sleeps => exact watched.snoc ⟨sleeps, early⟩
  | dropped early reads tried => exact watched.snoc ⟨reads, early⟩
  | refused early reads tried unheard first => exact watched.snoc ⟨reads, early⟩
  | @retried clock _ c call _ _ backoff early reads tried unheard next sleeps =>
    have attempted : (Event.attempt e.checked clock c (.ok call)).Checked e.plan := ⟨reads, early⟩
    exact (watched.snoc attempted).snoc ⟨sleeps, early⟩

lemma Steps.done_watched {cc : ChannelCall} (watched : Watched e.plan e.trace) (steps : e.Steps env (.done cc)) :
    Watched cc.plan cc.trace := by
  cases steps with rw [plan, trace]
  | stopped live bad plan attempts trace => exact watched
  | handed early reads tried live unheard plan attempts trace => exact watched.snoc ⟨reads, early⟩

end Engine

/-- Attempts start and sleeps end by the deadline, in every call of every run, if no dial and no attempt takes longer than
a time that is left whenever the deadline is checked. The engine looks at the clock before it dials and not again. -/
theorem run_timely (env : Env) (ch : Channel) (ops : List ChannelOp) {plan : Plan} {attempts dial trial : Nat}
    {trace : List Event} (member : (plan, attempts, trace) ∈ (ch.start.run env ops).histories)
    (lasts : ∀ event ∈ trace, event.Lasts dial trial)
    (leaves : ∀ event ∈ trace, event.Leaves dial trial plan.deadline) : ∀ event ∈ trace, event.Timely plan.deadline := by
  have invariant := @Invariant.of_history env _ (fun history => Watched history.1 history.2.2) (Channel.callStart_watched env)
      (fun _ _ watched => watched) (fun _ _ => Engine.Steps.watched) (fun _ _ => Engine.Steps.done_watched)
  obtain ⟨engines, calls⟩ := System.run_all invariant ch ops
  have watched : Watched plan trace := by
    rcases mem_append.mp member with engine | call
    · obtain ⟨e, found, same⟩ := mem_map.mp engine
      cases same
      exact engines e found
    · obtain ⟨cc, found, same⟩ := mem_map.mp call
      cases same
      exact calls cc found
  exact fun event found =>
    (watched.checked event found).timely watched.small (lasts event found) (leaves event found)

/-- Three attempts and a sleep with a deadline. -/
theorem run_timely_refused : threeHistory.1.deadline = 1000 ∧ .sleep 19 (some 30) 10 ∈ threeHistory.2.2 ∧
    ∀ event ∈ threeHistory.2.2, event.Timely threeHistory.1.deadline :=
  ⟨by decide +kernel, by decide +kernel,
    @run_timely refusing Channel.persistent threeTurns _ threeHistory.2.1 20 40 _ (by decide +kernel) (by decide +kernel) (by decide +kernel)⟩

def oneRetry : RetryPolicy := ⟨2, 1000, 1000, 2, 1 <<< 14⟩

def unreachable : Env :=
  { Env.server [] with
    dial := fun _ => none
    clock := fun t => if t ≤ 2 then 0 else 20 }

def slowServer : Env := { Env.server serverPreface with clock := fun t => if t ≤ 2 then 0 else 20 }

/-- With 8 ms to go, the engine sleeps until 1020 ms in one case, and makes an attempt at 20 ms in the other. -/
theorem slowDial_late : (∃ e ∈ (Channel.start { Channel.plain with policy := some oneRetry } |>.run unreachable
        [.start path [] 8, .turn 0]).engines,
      e.plan.deadline = 8 ∧ e.trace = [.sleep 0 (some 20) 1000] ∧ ∃ event ∈ e.trace, ¬event.Timely e.plan.deadline) ∧
    ∃ cc ∈ (Channel.plain.start.run slowServer [.start path [] 8, .turn 0]).calls,
      cc.plan.deadline = 8 ∧ ∃ event ∈ cc.trace, ¬event.Timely cc.plan.deadline := by
  decide +kernel

end Cwist.Grpc
