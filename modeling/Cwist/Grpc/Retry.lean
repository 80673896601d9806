import Cwist.Grpc.Channel
import Cwist.Grpc.Commit
import Cwist.Grpc.Connection

namespace Cwist.Grpc
open List Call

open H2 (Frame)
open Trace (Extends)

/-! ### HEADERS frames on the wire -/

def headersIn (frames : List Frame) : Nat := frames.countP (·.type = Frame.headers)

lemma headersIn_extends {written written' : List Frame}
    (more : Extends (fun f => f.type ≠ Frame.headers) written written') : headersIn written' = headersIn written :=
  more.countP_eq fun _ other => by simpa using other

lemma headersIn_snoc_le (written : List Frame) (f : Frame) : headersIn (written ++ [f]) ≤ headersIn written + 1 := by
  unfold headersIn
  rw [countP_append]
  exact Nat.add_le_add_left (countP_le_length) _

variable {env : Env} {call call' : Call}

namespace Call

variable {call' : Call} {size : Nat}

lemma sendAll_headers (env : Env) (call : Call) (block request : Bytes) :
    headersIn (call.sendAll env block request).2.client.io.written ≤ headersIn call.client.io.written + 1 := by
  unfold sendAll
  split
  next unsent =>
    have chat : call.client.io.Chatter _ := .failed unsent
    exact Nat.le_succ_of_le (le_of_eq (headersIn_extends (Io.Leads.chatter chat).written))
  rename_i wrote
  obtain ⟨tick, rfl⟩ := writeFrame_true wrote
  have once := headersIn_snoc_le call.client.io.written
    (onWire ⟨Frame.headers, Frame.endHeadersFlag, call.streamId, block⟩)
  split
  · exact once
  rename_i frame encoded
  have leads := sendRequest_leads env
    (call.setIo (call.client.io.sentFrame ⟨Frame.headers, Frame.endHeadersFlag, call.streamId, block⟩ tick)) frame
  exact le_trans (le_of_eq (headersIn_extends leads.io.written)) once

lemma startEx_headers (env : Env) (c : Client) (method : CStr) (request : Bytes) (timeoutMs previousAttempts : Nat) :
    headersIn (Session.ofStart (startEx env c method request timeoutMs previousAttempts)).client.io.written ≤
      headersIn c.io.written + 1 := by
  have new : (init env c timeoutMs).client.io.written = c.io.written := by
    obtain ⟨tick, asked⟩ := deadlineAfter_eq env c.io timeoutMs
    unfold init
    rw [asked]
  unfold startEx
  split
  · exact Nat.le_succ _
  dsimp only
  split
  · rw [show (Session.ofStart (.error (init env c timeoutMs).client)).client.io.written = c.io.written from new]
    exact Nat.le_succ _
  rename_i block encoded
  have sent := sendAll_headers env (init env c timeoutMs) block request
  rw [new] at sent
  split <;> rename_i outcome <;> rw [outcome] at sent
  · exact sent
  · exact sent

lemma startEx_before {c : Client} {method : CStr} {request : Bytes} {timeoutMs previousAttempts : Nat}
    (started : startEx env c method request timeoutMs previousAttempts = .ok call) :
    call.readBefore ≤ call.client.io.received.length := by
  have before := init_before env c timeoutMs
  unfold startEx at started
  split at started
  · cases started
  dsimp only at started
  split at started
  · cases started
  rename_i block built
  split at started
  · cases started
  rename_i sent
  cases started
  unfold sendAll at sent
  split at sent
  · cases sent
  rename_i wrote
  obtain ⟨tick, rfl⟩ := writeFrame_true wrote
  split at sent
  · cases sent
  rename_i frame encoded
  have leads := sendRequest_leads env ((init env c timeoutMs).setIo ((init env c timeoutMs).client.io.sentFrame
    ⟨Frame.headers, Frame.endHeadersFlag, (init env c timeoutMs).streamId, block⟩ tick)) frame
  rw [sent] at leads
  exact leads.before before

lemma awaitHeaders_leads (env : Env) (call : Call) : call.Leads (call.awaitHeaders env).2 := pumpLoop_leads env _ _

end Call

/-! ### One turn -/

def Plan.Reads (plan : Plan) (clock : Option Nat) : Prop := clock = none ↔ plan.deadline = 0

/-- A delay that has been cut to the unsigned difference between the deadline and the clock. -/
def Plan.Sleeps (plan : Plan) (clock : Option Nat) (delay : Nat) : Prop :=
  plan.Reads clock ∧
    ∀ now, clock = some now → now < 2 ^ 64 ∧ ∃ wanted, delay = min wanted ((plan.deadline + (2 ^ 64 - now)) % 2 ^ 64)

variable {e : Engine} {timeoutMs previousAttempts : Nat} {clock : Option Nat} {c left : Client}

namespace Engine

def tries (env : Env) (e : Engine) (c : Client) (timeoutMs : Nat) : Except Client Call :=
  (startEx env c e.plan.method e.plan.request timeoutMs e.wireAttempts).map fun call =>
    (call.awaitHeaders env).2

def Early (e : Engine) : Prop := e.plan.deadline ≠ 0 → e.checked < e.plan.deadline

inductive Steps (env : Env) (e : Engine) : Turn → Prop where
  | idle : Steps env e (.again (e.log .idle))
  | stopped {cc : ChannelCall} (live : cc.live = none) (bad : cc.synStatus ≠ .ok) (plan : cc.plan = e.plan)
      (attempts : e.policyAttempts ≤ cc.attempts) (trace : cc.trace = e.trace) : Steps env e (.done cc)
  | redialed {clock : Option Nat} {delay : Nat} (backoff : Rat) (more : e.policyAttempts + 1 < e.plan.maxAttempts)
      (early : e.Early) (sleeps : e.plan.Sleeps clock delay) :
      Steps env e (.again ({ e with policyAttempts := e.policyAttempts + 1, backoff }.log (.sleep e.checked clock delay)))
  | dropped {clock : Option Nat} {c left : Client} {timeoutMs : Nat} (early : e.Early) (reads : e.plan.Reads clock)
      (tried : e.tries env c timeoutMs = .error left) :
      Steps env e (.again (e.log (.attempt e.checked clock c (.error left))))
  | refused {clock : Option Nat} {c : Client} {call : Call} {timeoutMs : Nat} (early : e.Early) (reads : e.plan.Reads clock)
      (tried : e.tries env c timeoutMs = .ok call) (unheard : call.headersReceived = false)
      (first : e.case3Used = false) :
      Steps env e (.again { e.log (.attempt e.checked clock c (.ok call)) with
        case3Used := true, wireAttempts := e.wireAttempts + 1 })
  | retried {clock clock' : Option Nat} {c : Client} {call : Call} {timeoutMs delay : Nat} (backoff : Rat)
      (early : e.Early) (reads : e.plan.Reads clock) (tried : e.tries env c timeoutMs = .ok call)
      (unheard : call.headersReceived = false) (more : e.policyAttempts + 1 < e.plan.maxAttempts)
      (sleeps : e.plan.Sleeps clock' delay) :
      Steps env e (.again ({ e.log (.attempt e.checked clock c (.ok call)) with
        policyAttempts := e.policyAttempts + 1, wireAttempts := e.wireAttempts + 1, backoff }.log
          (.sleep e.checked clock' delay)))
  | handed {clock : Option Nat} {c : Client} {call : Call} {timeoutMs : Nat} {cc : ChannelCall} {i : Nat}
      (early : e.Early) (reads : e.plan.Reads clock) (tried : e.tries env c timeoutMs = .ok call) (live : cc.live = some (i, call))
      (unheard : cc.accounted = true → call.headersReceived = false) (plan : cc.plan = e.plan)
      (attempts : cc.attempts = e.policyAttempts + 1) (trace : cc.trace = e.trace ++ [.attempt e.checked clock c (.ok call)]) :
      Steps env e (.done cc)

variable {ch : Channel}

lemma pause_of {motive : Turn → Prop} {wanted : Nat}
    (sleep : ∀ clock delay, e.plan.Sleeps clock delay → motive (.again (e.log (.sleep e.checked clock delay)))) :
    motive (e.pause env ch wanted).2 := by
  unfold pause
  split
  next never => exact sleep none wanted ⟨⟨fun _ => never, fun _ => rfl⟩, fun _ clock => (nomatch clock)⟩
  rename_i limited
  refine sleep _ _ ⟨⟨fun clock => (nomatch clock), fun never => absurd never limited⟩, ?_⟩
  rintro now ⟨⟩
  exact ⟨Nat.mod_lt _ (by decide), wanted, rfl⟩

lemma remaining_reads (env : Env) (ch : Channel) (plan : Plan) : plan.Reads (remaining env ch plan.deadline).2.1 := by
  unfold remaining
  split
  next never => exact ⟨fun _ => never, fun _ => rfl⟩
  next limited => exact ⟨fun clock => (nomatch clock), fun never => absurd never limited⟩

lemma mayRetry_more {coded : Bool} {policy : RetryPolicy} (retry : e.mayRetry ch coded = some policy) :
    e.policyAttempts < e.plan.maxAttempts := by
  unfold mayRetry at retry
  split at retry
  next more => exact more.2.2.1
  · cases retry

lemma unavailable_steps (env : Env) (ch : Channel) (early : e.Early) : e.Steps env (e.unavailable env ch).2 := by
  unfold unavailable
  split
  · exact .idle
  dsimp only
  split
  next policy retry => exact pause_of fun _ _ sleeps => .redialed _ (mayRetry_more retry) early sleeps
  · exact .stopped rfl (show Status.unavailable ≠ Status.ok by decide) rfl (Nat.le_succ _) rfl

section Attempt

variable {i : Nat} (early : e.Early) (reads : e.plan.Reads clock) (tried : e.tries env c timeoutMs = .ok call)
    (unheard : call.headersReceived = false)

def attempted (e : Engine) (clock : Option Nat) (c : Client) (call : Call) : Engine :=
  { e with policyAttempts := e.policyAttempts + 1, wireAttempts := e.wireAttempts + 1 }.log
    (.attempt e.checked clock c (.ok call))

include early reads tried unheard in
lemma failed_steps : e.Steps env ((e.attempted clock c call).failed env ch i call).2 := by
  unfold failed
  dsimp only
  generalize (if call.pushbackSeen = true then some call.pushbackMs else none) = pushback
  have stop (ch : Channel) : e.Steps env (ch, Turn.done ((e.attempted clock c call).wrap i call true)).2 :=
    .handed early reads tried rfl (fun _ => unheard) rfl rfl rfl
  by_cases negative : pushback.any (· < 0) = true
  · rw [if_pos negative]
    exact stop _
  rw [if_neg negative]
  split
  · exact stop _
  rename_i policy retry
  have more : e.policyAttempts + 1 < e.plan.maxAttempts := mayRetry_more retry
  cases pushback with
  | some ms => exact pause_of fun _ _ sleeps => .retried _ early reads tried unheard more sleeps
  | none => exact pause_of fun _ _ sleeps => .retried _ early reads tried unheard more sleeps

end Attempt

lemma awaitHeaders_unheard (env : Env) (call : Call) (waiting : (call.awaitHeaders env).1 ≠ .keep) :
    (call.awaitHeaders env).2.headersReceived = false := by
  unfold awaitHeaders at waiting ⊢
  dsimp only at waiting ⊢
  split at waiting
  · exact absurd rfl waiting
  next unheard => exact Bool.not_eq_true _ ▸ unheard

lemma attempt_steps (env : Env) (ch : Channel) (early : e.Early) (i : Nat) (c : Client) :
    e.Steps env (e.attempt env ch i c).2 := by
  have reads := remaining_reads env ch e.plan
  unfold attempt
  dsimp only
  generalize remaining env ch e.plan.deadline = asked at reads
  obtain ⟨timeoutMs, clock, ch⟩ := asked
  generalize c.resume ch.tick = c
  split
  next left started =>
    have tried : e.tries env c timeoutMs = .error left := by
      unfold tries
      rw [started]
      rfl
    exact .dropped early reads tried
  rename_i call started
  have tried : e.tries env c timeoutMs = .ok (call.awaitHeaders env).2 := by
    unfold tries
    rw [started]
    rfl
  have unheard := awaitHeaders_unheard env call
  unfold await
  dsimp only
  split
  · exact .handed early reads tried rfl (fun accounted => (nomatch accounted)) rfl rfl rfl
  rename_i waiting
  have unheard := unheard waiting
  split
  · exact .handed early reads tried rfl (fun _ => unheard) rfl rfl rfl
  split
  next refused => exact .refused early reads tried unheard (Bool.eq_false_iff.mpr refused.2)
  · exact failed_steps early reads tried unheard

lemma turn_steps (env : Env) (ch : Channel) (e : Engine) : ∃ now, { e with checked := now }.Steps env (e.turn env ch).2 := by
  refine ⟨(ch.nowMs env).1, ?_⟩
  unfold turn
  dsimp only
  split
  · exact .stopped rfl (show Status.deadlineExceeded ≠ Status.ok by decide) rfl (le_rfl) rfl
  rename_i passed
  have early : { e with checked := (ch.nowMs env).1 }.Early := fun limited =>
    Nat.lt_of_not_le fun late => passed ⟨limited, late⟩
  split
  · exact unavailable_steps env _ early
  · exact attempt_steps env _ early _ _

end Engine

/-! ### Whole runs -/

def ChannelCall.history (cc : ChannelCall) : Plan × Nat × List Event := (cc.plan, cc.attempts, cc.trace)

/-- A property of the engines, and one of the calls that they hand over. -/
structure Invariant (env : Env) (engine : Engine → Prop) (call : ChannelCall → Prop) : Prop where
  start : ∀ (ch : Channel) method request timeoutMs, engine (ch.callStart env method request timeoutMs).2
  check : ∀ e now, engine e → engine { e with checked := now }
  again : ∀ e e', engine e → e.Steps env (.again e') → engine e'
  done : ∀ e cc, engine e → e.Steps env (.done cc) → call cc
  recv : ∀ ch cc, call cc → call (cc.recv env ch).2.2
  finish : ∀ ch cc, call cc → call (cc.finish env ch).2.2
  cancel : ∀ ch cc, call cc → call (cc.cancel env ch).2

namespace System

variable {engine : Engine → Prop} {call : ChannelCall → Prop} {s : System}

def All (engine : Engine → Prop) (call : ChannelCall → Prop) (s : System) : Prop :=
  (∀ e ∈ s.engines, engine e) ∧ ∀ cc ∈ s.calls, call cc

lemma All.afterCall (all : s.All engine call) (i : Nat) {result : Channel × ChannelCall} (kept : call result.2) :
    (s.afterCall i result).All engine call :=
  ⟨all.1, fun cc member => (mem_or_eq_of_mem_set member).elim (all.2 cc) fun same => same ▸ kept⟩

lemma All.afterTurn (invariant : Invariant env engine call) (all : s.All engine call) (i : Nat)
    (holds : engine e) {result : Channel × Turn} (steps : e.Steps env result.2) : (s.afterTurn i result).All engine call := by
  obtain ⟨channel, e' | cc⟩ := result
  · have kept := invariant.again e e' holds steps
    exact ⟨fun e member => (mem_or_eq_of_mem_set member).elim (all.1 e) fun same => same ▸ kept, all.2⟩
  have kept := invariant.done e cc holds steps
  refine ⟨fun e member => all.1 e (mem_of_mem_eraseIdx member), fun cc member => ?_⟩
  rcases mem_append.mp member with old | new
  · exact all.2 cc old
  · exact mem_singleton.mp new ▸ kept

lemma step_all (invariant : Invariant env engine call) (op : ChannelOp) (all : s.All engine call) :
    (s.step env op).All engine call := by
  cases op with dsimp only [step]
  | start method request timeoutMs =>
    refine ⟨fun e member => ?_, all.2⟩
    rcases mem_append.mp member with old | new
    · exact all.1 e old
    · exact mem_singleton.mp new ▸ invariant.start s.channel method request timeoutMs
  | turn i =>
    split
    · exact all
    next e found =>
      obtain ⟨now, steps⟩ := e.turn_steps env s.channel
      exact all.afterTurn invariant i (invariant.check e now (all.1 e (mem_of_getElem? found))) steps
  | recv i =>
    split
    · exact all
    next cc found => exact all.afterCall i (invariant.recv s.channel cc (all.2 cc (mem_of_getElem? found)))
  | finish i =>
    split
    · exact all
    next cc found => exact all.afterCall i (invariant.finish s.channel cc (all.2 cc (mem_of_getElem? found)))
  | cancel i =>
    split
    · exact all
    next cc found => exact all.afterCall i (invariant.cancel s.channel cc (all.2 cc (mem_of_getElem? found)))
  | destroy i =>
    split
    · exact all
    · exact ⟨all.1, fun cc member => all.2 cc (mem_of_mem_eraseIdx member)⟩

lemma run_all (invariant : Invariant env engine call) (ch : Channel) (ops : List ChannelOp) :
    (ch.start.run env ops).All engine call := by
  have from_ (s : System) (all : s.All engine call) : (s.run env ops).All engine call := by
    induction ops generalizing s with
    | nil => exact all
    | cons op ops ih => exact ih (s.step env op) (step_all invariant op all)
  exact from_ _ ⟨fun _ none => (nomatch none), fun _ none => (nomatch none)⟩

end System

namespace ChannelCall

variable (env : Env) (ch : Channel) (cc : ChannelCall)

lemma recv_history : (cc.recv env ch).2.2.history = cc.history := by
  unfold recv
  split <;> rfl

lemma settle_history (status : Status) : (cc.settle ch status).2.history = cc.history := by
  unfold settle
  split <;> rfl

lemma finish_history : (cc.finish env ch).2.2.history = cc.history := by
  unfold finish
  split
  · exact settle_history ch cc _
  · exact settle_history _ _ _

lemma cancel_history : (cc.cancel env ch).2.history = cc.history := by
  unfold cancel
  split <;> rfl

end ChannelCall

lemma Invariant.of_history {engine : Engine → Prop} {call : Plan × Nat × List Event → Prop}
    (start : ∀ (ch : Channel) method request timeoutMs, engine (ch.callStart env method request timeoutMs).2)
    (check : ∀ e now, engine e → engine { e with checked := now })
    (again : ∀ e e', engine e → e.Steps env (.again e') → engine e')
    (done : ∀ e cc, engine e → e.Steps env (.done cc) → call cc.history) :
    Invariant env engine fun cc => call cc.history where
  start := start
  check := check
  again := again
  done := done
  recv ch cc holds := by rw [cc.recv_history env ch]; exact holds
  finish ch cc holds := by rw [cc.finish_history env ch]; exact holds
  cancel ch cc holds := by rw [cc.cancel_history env ch]; exact holds

/-! ### The number of requests -/

namespace Event

def headers : Event → Nat
  | attempt _ _ before result => headersIn (Session.ofStart result).client.io.written - headersIn before.io.written
  | sleep .. => 0
  | idle => 0

/-- An attempt finds both windows open for the whole message, and the transport takes the frames of the request, all but
the HEADERS frame, with which nothing is lost. -/
def Unhindered (env : Env) (request : Bytes) : Event → Prop
  | attempt _ _ before _ => request.length < 2 ^ 32 ∧ (request.length + 5 : Int) ≤ before.connSendWindow ∧
      request.length + 5 ≤ before.peerInitialWindow ∧ 0 < before.peerMaxFrame ∧
      ∀ i < 2 * request.length + 12, env.writes (before.io.tick + 1 + i) = none
  | sleep .. => True
  | idle => True

def Uncommitted : Event → Prop
  | attempt _ _ before (.error left) => left.io.received = before.io.received
  | attempt _ _ _ (.ok call) =>
    call.headersReceived = false ∧ (.unreported ∉ call.client.io.slips → call.Answered → call.HttpError)
  | _ => True

end Event

def headersSent (trace : List Event) : Nat := (trace.map Event.headers).sum

lemma headersSent_snoc (trace : List Event) (event : Event) : headersSent (trace ++ [event]) = headersSent trace + event.headers := by
  simp [headersSent]

def Plan.allowed (plan : Plan) : Nat := (plan.policy.map fun policy => min policy.maxAttempts maxAttemptsCap).getD 1

lemma Plan.maxAttempts_le (plan : Plan) : plan.maxAttempts ≤ max plan.allowed 1 := by
  unfold maxAttempts allowed
  cases plan.policy with
  | none => exact le_max_right _ _
  | some policy =>
    dsimp only [Option.map, Option.getD]
    split
    · exact le_rfl
    · exact le_max_right _ _

lemma writeFrame_tick (env : Env) (io : Io) (f : Frame) :
    io.tick < (io.writeFrame env f).2.tick ∧ (io.writeFrame env f).2.tick ≤ io.tick + 2 := by
  unfold Io.writeFrame Io.writeAll
  cases env.writes io.tick with dsimp only
  | some n => exact ⟨Nat.lt_succ_self _, Nat.le_succ _⟩
  | none =>
    split
    · exact ⟨Nat.lt_succ_self _, Nat.le_succ _⟩
    · cases env.writes (io.tick + 1) with
      | some n => exact ⟨Nat.lt_add_of_pos_right Nat.two_pos, le_rfl⟩
      | none => exact ⟨Nat.lt_add_of_pos_right Nat.two_pos, le_rfl⟩

namespace Call

/-- The windows are open for all that is left of the message, and the transport takes it, however it is cut. -/
structure Roomy (env : Env) (call : Call) (left : Nat) : Prop where
  conn : (left : Int) ≤ call.client.connSendWindow
  stream : (left : Int) ≤ call.sendWindow
  frame : 0 < call.client.peerMaxFrame
  writes : ∀ t, call.client.io.tick ≤ t → t < call.client.io.tick + 2 * left → env.writes t = none

lemma Roomy.chunk {left : Nat} (roomy : call.Roomy env left) : call.chunk left = min left call.client.peerMaxFrame := by
  have conn := roomy.conn
  have stream := roomy.stream
  unfold Call.chunk
  dsimp only
  rw [if_neg (by omega)]

lemma sendLoop_sends {frame : Bytes} {turns sent : Nat} (within : sent ≤ frame.length) (enough : frame.length - sent < turns)
    (roomy : call.Roomy env (frame.length - sent)) : (call.sendLoop env frame turns sent).1 = true := by
  induction turns generalizing call sent with
  | zero => exact absurd enough (Nat.not_lt_zero _)
  | succ turns ih =>
    obtain ⟨conn, stream, positive, writes⟩ := roomy
    unfold sendLoop
    dsimp only
    rw [Roomy.chunk ⟨conn, stream, positive, writes⟩]
    split
    next nothing => rw [if_pos (by omega)]
    rename_i something
    generalize size_eq : min (frame.length - sent) call.client.peerMaxFrame = size at something
    -- a DATA frame asks the transport twice
    have ok := @writeFrame_taken call.client.io env
      ⟨Frame.data, if sent + size = frame.length then Frame.endStreamFlag else 0, call.streamId, (frame.drop sent).take size⟩
      (writes _ le_rfl (by omega)) (writes _ (Nat.le_succ _) (by omega))
    have ticks := writeFrame_tick env call.client.io
      ⟨Frame.data, if sent + size = frame.length then Frame.endStreamFlag else 0, call.streamId, (frame.drop sent).take size⟩
    split
    next unsent =>
      rw [unsent] at ok
      cases ok
    rename_i wrote
    rw [wrote] at ticks
    obtain ⟨tick, rfl⟩ := writeFrame_true wrote
    split
    · rfl
    refine ih (by omega) (by omega) ⟨?_, ?_, positive, fun t late early => writes t ?_ ?_⟩
    · show ((frame.length - (sent + size) : Nat) : Int) ≤ call.client.connSendWindow - size
      omega
    · show ((frame.length - (sent + size) : Nat) : Int) ≤ call.sendWindow - size
      omega
    · exact le_trans (le_of_lt ticks.1) late
    · have early : t < tick + 2 * (frame.length - (sent + size)) := early
      have soon : tick ≤ call.client.io.tick + 2 := ticks.2
      omega

lemma encodeMessage_length {request frame : Bytes} (encoded : encodeMessage request = some frame) :
    frame.length = request.length + 5 := by
  unfold encodeMessage at encoded
  split at encoded
  · cases encoded
  · cases encoded
    simp only [H2.putU32, cons_append, length_cons, length_append, length_map, length_nil]
    omega

/-- With room for the message nothing can fail but the HEADERS frame. -/
lemma sendAll_false {block request : Bytes} (short : request.length < 2 ^ 32)
    (conn : (request.length + 5 : Int) ≤ call.client.connSendWindow) (stream : (request.length + 5 : Int) ≤ call.sendWindow)
    (frame : 0 < call.client.peerMaxFrame)
    (writes : ∀ t, call.client.io.tick < t → t < call.client.io.tick + 2 * request.length + 12 → env.writes t = none)
    (failed : (call.sendAll env block request).1 = false) :
    call.client.io.Chatter (call.sendAll env block request).2.client.io := by
  have ticks := writeFrame_tick env call.client.io ⟨Frame.headers, Frame.endHeadersFlag, call.streamId, block⟩
  unfold sendAll at failed ⊢
  split
  next unsent => exact .failed unsent
  rename_i wrote
  rw [wrote] at failed ticks
  obtain ⟨tick, rfl⟩ := writeFrame_true wrote
  have soon : call.client.io.tick < tick ∧ tick ≤ call.client.io.tick + 2 := ticks
  dsimp only at failed
  split at failed
  next unencoded =>
    unfold encodeMessage at unencoded
    rw [if_neg (by omega)] at unencoded
    cases unencoded
  rename_i message encoded
  have length := encodeMessage_length encoded
  have roomy : (call.setIo (call.client.io.sentFrame ⟨Frame.headers, Frame.endHeadersFlag, call.streamId, block⟩ tick)).Roomy
      env (message.length - 0) := by
    refine ⟨?_, ?_, frame, fun t late early => ?_⟩
    · show ((message.length - 0 : Nat) : Int) ≤ call.client.connSendWindow
      omega
    · show ((message.length - 0 : Nat) : Int) ≤ call.sendWindow
      omega
    · have late : tick ≤ t := late
      have early : t < tick + 2 * (message.length - 0) := early
      exact writes t (by omega) (by omega)
  unfold sendRequest at failed
  rw [sendLoop_sends (Nat.zero_le _) (by omega) roomy] at failed
  cases failed

lemma init_tick (env : Env) (c : Client) (timeoutMs : Nat) :
    c.io.tick ≤ (init env c timeoutMs).client.io.tick ∧ (init env c timeoutMs).client.io.tick ≤ c.io.tick + 1 := by
  show c.io.tick ≤ (deadlineAfter env c.io timeoutMs).2.tick ∧ (deadlineAfter env c.io timeoutMs).2.tick ≤ c.io.tick + 1
  unfold deadlineAfter
  split
  · exact ⟨le_rfl, Nat.le_succ _⟩
  · exact ⟨Nat.le_succ _, le_rfl⟩

lemma startEx_error {method : CStr} {request : Bytes} {checked : Nat} {result : Except Client Call}
    (failed : startEx env c method request timeoutMs previousAttempts = .error left)
    (open_ : (Event.attempt checked clock c result).Unhindered env request) : c.io.Chatter left.io := by
  obtain ⟨short, conn, stream, frame, writes⟩ := open_
  have ticks := init_tick env c timeoutMs
  have new : c.io.Chatter (init env c timeoutMs).client.io := by
    obtain ⟨tick, asked⟩ := deadlineAfter_eq env c.io timeoutMs
    show c.io.Chatter (deadlineAfter env c.io timeoutMs).2
    rw [asked]
    exact .tick _ _
  unfold startEx at failed
  split at failed
  · cases failed
    exact .refl _
  dsimp only at failed
  split at failed
  · cases failed
    exact new
  rename_i block encoded
  have stream : (request.length + 5 : Int) ≤ (c.peerInitialWindow : Int) := by exact_mod_cast stream
  have sent := @sendAll_false env (init env c timeoutMs) block request short conn stream frame
    fun t late early => by
      have taken := writes (t - (c.io.tick + 1)) (by omega)
      rwa [Nat.add_sub_cancel' (by omega)] at taken
  split at failed
  next outcome =>
    cases failed
    rw [outcome] at sent
    exact new.trans (sent rfl)
  · cases failed

end Call

namespace Engine

variable {left : Client} {checked : Nat} {cc : ChannelCall} {e' : Engine}

lemma tries_ok (tried : e.tries env c timeoutMs = .ok call) :
    ∃ started, startEx env c e.plan.method e.plan.request timeoutMs e.wireAttempts = .ok started ∧
      (started.awaitHeaders env).2 = call := by
  unfold tries at tried
  cases started : startEx env c e.plan.method e.plan.request timeoutMs e.wireAttempts with
  | error left => rw [started] at tried; cases tried
  | ok call =>
    rw [started] at tried
    exact ⟨call, rfl, Except.ok.inj tried⟩

lemma tries_error (tried : e.tries env c timeoutMs = .error left) :
    startEx env c e.plan.method e.plan.request timeoutMs e.wireAttempts = .error left := by
  unfold tries at tried
  cases started : startEx env c e.plan.method e.plan.request timeoutMs e.wireAttempts with
  | error client =>
    rw [started] at tried
    exact congrArg _ (Except.error.inj tried)
  | ok call => rw [started] at tried; cases tried

lemma tries_headers (tried : e.tries env c timeoutMs = .ok call) : (Event.attempt checked clock c (.ok call)).headers ≤ 1 := by
  obtain ⟨started, start, awaited⟩ := tries_ok tried
  have sent := startEx_headers env c e.plan.method e.plan.request timeoutMs e.wireAttempts
  rw [start] at sent
  have same := headersIn_extends (awaitHeaders_leads env started).io.written
  rw [awaited] at same
  have sent : headersIn started.client.io.written ≤ headersIn c.io.written + 1 := sent
  show headersIn call.client.io.written - headersIn c.io.written ≤ 1
  omega

lemma tries_uncommitted (tried : e.tries env c timeoutMs = .ok call) (unheard : call.headersReceived = false) :
    (Event.attempt checked clock c (.ok call)).Uncommitted := by
  obtain ⟨started, start, awaited⟩ := tries_ok tried
  have silent : .unreported ∈ (started.awaitHeaders env).2.client.io.slips ∨ (started.awaitHeaders env).2.Silent :=
    pumpLoop_silent _ (startEx_mute start) (startEx_before start)
  rw [awaited] at silent
  exact ⟨unheard, fun reported => (silent.resolve_left reported) unheard⟩

lemma error_headers (chat : c.io.Chatter left.io) : (Event.attempt checked clock c (.error left)).headers = 0 :=
  Nat.sub_eq_zero_of_le (le_of_eq (headersIn_extends (Io.Leads.chatter chat).written))

structure Counted (e : Engine) : Prop where
  more : e.policyAttempts < e.plan.maxAttempts
  headers : headersSent e.trace ≤ e.policyAttempts + e.case3Used.toNat
  uncommitted : ∀ event ∈ e.trace, event.Uncommitted

lemma uncommitted_snoc {trace : List Event} {last : Event} (before : ∀ event ∈ trace, event.Uncommitted)
    (new : last.Uncommitted) : ∀ event ∈ trace ++ [last], event.Uncommitted := by
  intro event member
  rcases mem_append.mp member with old | same
  · exact before event old
  · rw [mem_singleton.mp same]
    exact new

lemma Counted.again (counted : e.Counted) (open_ : ∀ event ∈ e'.trace, event.Unhindered env e.plan.request)
    (steps : e.Steps env (.again e')) : e'.Counted := by
  obtain ⟨more, headers, uncommitted⟩ := counted
  cases steps with
  | idle => exact ⟨more, by simpa [log, headersSent_snoc, Event.headers] using headers, uncommitted_snoc uncommitted trivial⟩
  | redialed backoff next early sleeps =>
    refine ⟨next, ?_, uncommitted_snoc uncommitted trivial⟩
    simp only [log, headersSent_snoc, Event.headers]
    omega
  | @dropped clock c left timeoutMs early reads tried =>
    have chat := startEx_error (tries_error tried) (open_ _ (mem_append_right _ mem_cons_self))
    refine ⟨more, ?_, uncommitted_snoc uncommitted chat.received⟩
    simp only [log, headersSent_snoc, error_headers chat]
    exact headers
  | @refused clock c call timeoutMs early reads tried unheard first =>
    have once : (Event.attempt e.checked clock c (.ok call)).headers ≤ 1 := tries_headers tried
    refine ⟨more, ?_, uncommitted_snoc uncommitted (tries_uncommitted tried unheard)⟩
    rw [first] at headers
    simp only [log, headersSent_snoc, Bool.toNat_true, Bool.toNat_false] at headers ⊢
    omega
  | @retried clock clock' c call timeoutMs delay backoff early reads tried unheard next sleeps =>
    have once : (Event.attempt e.checked clock c (.ok call)).headers ≤ 1 := tries_headers tried
    refine ⟨next, ?_, uncommitted_snoc (uncommitted_snoc uncommitted (tries_uncommitted tried unheard)) trivial⟩
    simp only [log, headersSent_snoc]
    rw [show (Event.sleep e.checked clock' delay).headers = 0 from rfl]
    omega

structure Bounded (plan : Plan) (attempts : Nat) (trace : List Event) : Prop where
  total : headersSent trace ≤ max plan.allowed 1 + 1
  counted : headersSent trace ≤ attempts + 1
  uncommitted : ∀ event ∈ trace.dropLast, event.Uncommitted

lemma Counted.bounded (counted : e.Counted) : Bounded e.plan e.policyAttempts e.trace := by
  have most := e.plan.maxAttempts_le
  have once := Bool.toNat_le e.case3Used
  obtain ⟨more, headers, uncommitted⟩ := counted
  exact ⟨by omega, by omega, fun event member => uncommitted event (dropLast_subset _ member)⟩

lemma Counted.done (counted : e.Counted) (steps : e.Steps env (.done cc)) : Bounded cc.plan cc.attempts cc.trace := by
  have most := e.plan.maxAttempts_le
  have once := Bool.toNat_le e.case3Used
  cases steps with
  | stopped live bad plan attempts trace =>
    obtain ⟨total, headers, uncommitted⟩ := counted.bounded
    rw [plan, trace]
    exact ⟨total, le_trans headers (Nat.succ_le_succ attempts), uncommitted⟩
  | @handed clock c call timeoutMs _ i early reads tried live unheard plan attempts trace =>
    obtain ⟨more, headers, uncommitted⟩ := counted
    have sent : (Event.attempt e.checked clock c (.ok call)).headers ≤ 1 := tries_headers tried
    rw [plan, trace]
    refine ⟨?_, ?_, ?_⟩
    · rw [headersSent_snoc]
      omega
    · rw [headersSent_snoc]
      omega
    · rw [dropLast_concat]
      exact uncommitted

end Engine

def System.histories (s : System) : List (Plan × Nat × List Event) :=
  s.engines.map (fun e => (e.plan, e.policyAttempts, e.trace)) ++ s.calls.map ChannelCall.history

/-- A history with the property in all of its attempts. -/
def Clear (env : Env) (plan : Plan) (trace : List Event) : Prop := ∀ event ∈ trace, event.Unhindered env plan.request

instance (env : Env) (request : Bytes) : DecidablePred (Event.Unhindered env request)
  | .attempt _ _ before _ => inferInstanceAs (Decidable (request.length < 2 ^ 32 ∧
      (request.length + 5 : Int) ≤ before.connSendWindow ∧ request.length + 5 ≤ before.peerInitialWindow ∧
      0 < before.peerMaxFrame ∧ ∀ i < 2 * request.length + 12, env.writes (before.io.tick + 1 + i) = none))
  | .sleep .. => inferInstanceAs (Decidable True)
  | .idle => inferInstanceAs (Decidable True)

def Channel.plain : Channel where
  subs := [⟨none, 0, 0, 1000⟩]
  tls := false
  authority := host
  lb := .pickFirst
  rrNext := 0
  pfIndex := 0
  policy := none
  throttle := none
  tokens := 0
  bufferLimit := 256 * 1024
  waitForReady := false
  mcs := []
  refunds := 0
  tick := 0

/-- A stream refused, one that is reset, and an answer. -/
def refusing : Env := .server (serverPreface ++ [⟨Frame.rstStream, 0, 1, [0, 0, 0, 7]⟩, ⟨Frame.rstStream, 0, 3, [0, 0, 0, 2]⟩,
  ⟨Frame.headers, 0x05, 5, [0x88, 0x40, 0x0b] ++ ascii "grpc-status" ++ [0x01] ++ ascii "0"⟩])

def Channel.persistent : Channel := { Channel.plain with policy := some ⟨3, 10, 1000, 2, 1 <<< 14⟩ }

def threeTurns : List ChannelOp := [.start path [1] 1000, .turn 0, .turn 0, .turn 0]

def threeHistory : Plan × Nat × List Event :=
  (Channel.persistent.start.run refusing threeTurns).histories.headD (⟨path, [], none, false, 0, false⟩, 0, [])

end Cwist.Grpc
