import Cwist.Grpc.Call

/-!
# Channels

`grpc_channel.c`: subchannels with their connection backoff, the choice between them, the retry throttle, and the
retry engine of `cwist_grpc_channel_call_start`, a turn of its loop at a time.
-/

namespace Cwist.Grpc

structure RetryPolicy where
  maxAttempts : Nat
  initialBackoffMs : Nat
  maxBackoffMs : Nat
  backoffMultiplier : Rat
  retryableStatusMask : BitVec 32
  deriving DecidableEq

def retryable (mask : BitVec 32) (status : Status) : Bool := mask.getLsbD (status % 32)

structure RetryThrottle where
  maxTokens : Rat
  tokenRatio : Rat
  deriving DecidableEq

inductive LbPolicy where
  | pickFirst | roundRobin
  deriving DecidableEq

structure MethodConfig where
  service : CStr
  method : Option CStr
  policy : Option RetryPolicy
  waitForReady : Option Bool
  timeoutMs : Option Nat
  deriving DecidableEq

structure Subchannel where
  client : Option Client
  inflight : Nat
  nextConnectAt : Nat
  backoffMs : Rat
  deriving DecidableEq

def Subchannel.backOff (sub : Subchannel) (now : Nat) (jitter : Rat) : Subchannel :=
  { sub with
    nextConnectAt := (now + (sub.backoffMs * jitter).floor.toNat) % 2 ^ 64
    backoffMs := min (sub.backoffMs * (8 / 5)) 120000 }

def Subchannel.ready (sub : Subchannel) : Option Client :=
  sub.client.filter fun c => sub.inflight = 0 && !c.isDead

structure Channel where
  subs : List Subchannel
  tls : Bool
  authority : CStr
  lb : LbPolicy
  rrNext : Nat
  pfIndex : Nat
  policy : Option RetryPolicy
  throttle : Option RetryThrottle
  tokens : Rat
  bufferLimit : Nat
  waitForReady : Bool
  mcs : List MethodConfig
  refunds : Nat
  tick : Nat
  deriving DecidableEq

def Client.resume (c : Client) (tick : Nat) : Client := { c with io := { c.io with tick } }

def Call.resume (call : Call) (tick : Nat) : Call := { call with client := call.client.resume tick }

namespace Channel

def nowMs (env : Env) (ch : Channel) : Nat × Channel := (env.clock ch.tick % 2 ^ 64, { ch with tick := ch.tick + 1 })

section

variable (ch : Channel)

def resume (tick : Nat) : Channel := { ch with tick }

def throttleAllows : Bool :=
  match ch.throttle with
  | none => true
  | some throttle => throttle.maxTokens / 2 < ch.tokens

def throttleFailure : Channel :=
  match ch.throttle with
  | none => ch
  | some _ => { ch with tokens := max (ch.tokens - 1) 0 }

def throttleSuccess : Channel :=
  match ch.throttle with
  | none => ch
  | some throttle =>
    { ch with tokens := min (ch.tokens + throttle.tokenRatio) throttle.maxTokens, refunds := ch.refunds + 1 }

def account (status : Status) (hasPolicy : Bool) (mask : BitVec 32) : Channel :=
  if status = .ok then ch.throttleSuccess
  else if hasPolicy ∧ retryable mask status then ch.throttleFailure
  else ch

end

def recycle (env : Env) (ch : Channel) (i : Nat) : Channel :=
  match ch.subs[i]? with
  | none => ch
  | some sub =>
    match sub.client with
    | none => ch
    | some c =>
      if c.isDead then
        { ch with subs := ch.subs.set i { sub with client := none }, tick := ((c.resume ch.tick).close env).tick }
      else ch

def ensureConnected (env : Env) (ch : Channel) (i : Nat) : Option Client × Channel :=
  let ch := ch.recycle env i
  match ch.subs[i]? with
  | none => (none, ch)
  | some sub =>
    match sub.client with
    | some c => (some c, ch)
    | none =>
      let (now, ch) := ch.nowMs env
      if sub.nextConnectAt ≠ 0 ∧ now < sub.nextConnectAt then (none, ch)
      else
        match Client.connect env ch.tls ch.authority ch.tick with
        | .error tick => (none, { ch with subs := ch.subs.set i (sub.backOff now (env.jitter tick)), tick := tick + 1 })
        | .ok c =>
          let sub := { sub with client := some c, backoffMs := 1000, nextConnectAt := 0 }
          (some c, { ch with subs := ch.subs.set i sub, tick := c.io.tick })

def order (ch : Channel) : List Nat :=
  match ch.lb with
  | .pickFirst => List.range ch.subs.length
  | .roundRobin => (List.range ch.subs.length).map fun k => (ch.rrNext + k) % ch.subs.length

def pick (ch : Channel) : Option (Nat × Client) :=
  let places := match ch.lb with
    | .pickFirst => [ch.pfIndex]
    | .roundRobin => ch.order
  places.findSome? fun i => do
    let sub ← ch.subs[i]?
    let c ← sub.ready
    some (i, c)

def dialLoop (env : Env) : List Nat → Channel → Option (Nat × Client) × Channel
  | [], ch => (none, ch)
  | i :: places, ch =>
    if (ch.subs[i]?).any (·.inflight ≠ 0) then dialLoop env places ch
    else
      match ch.ensureConnected env i with
      | (none, ch) => dialLoop env places ch
      | (some c, ch) => (some (i, c), ch)

def lend (ch : Channel) (i : Nat) : Channel :=
  { ch with
    subs := ch.subs.modify i fun sub => { sub with client := none, inflight := sub.inflight + 1 }
    rrNext := if ch.lb = .roundRobin then (i + 1) % ch.subs.length else ch.rrNext
    pfIndex := if ch.lb = .pickFirst then i else ch.pfIndex }

def acquire (env : Env) (ch : Channel) : Option (Nat × Client) × Channel :=
  match ch.pick with
  | some (i, c) => (some (i, c), ch.lend i)
  | none =>
    match dialLoop env ch.order ch with
    | (none, ch) => (none, ch)
    | (some (i, c), ch) => (some (i, c), ch.lend i)

def giveBack (ch : Channel) (i : Nat) (c : Client) : Channel :=
  { ch with subs := ch.subs.modify i fun sub => { sub with client := some c }, tick := c.io.tick }

def release (ch : Channel) (i : Nat) : Channel :=
  { ch with subs := ch.subs.modify i fun sub => { sub with inflight := sub.inflight - 1 } }

def splitMethod (path : CStr) : Bytes × Option Bytes :=
  let start := if path.bytes.head? = some 0x2f then path.bytes.tail else path.bytes
  match start.reverse.span (· ≠ 0x2f) with
  | (_, []) => (start, none)
  | (method, _ :: service) => (service.reverse, some method.reverse)

def findLoop (service : Bytes) (method : Option Bytes) :
    List MethodConfig → Option MethodConfig → Option MethodConfig → Option MethodConfig
  | [], serviceMatch, wildMatch => serviceMatch <|> wildMatch
  | mc :: mcs, serviceMatch, wildMatch =>
    if mc.service.bytes = [] then findLoop service method mcs serviceMatch (wildMatch <|> some mc)
    else if mc.service.bytes ≠ service then findLoop service method mcs serviceMatch wildMatch
    else
      match mc.method with
      | none => findLoop service method mcs (serviceMatch <|> some mc) wildMatch
      | some name => if method = some name.bytes then some mc else findLoop service method mcs serviceMatch wildMatch

def findMc (ch : Channel) (path : CStr) : Option MethodConfig :=
  findLoop (splitMethod path).1 (splitMethod path).2 ch.mcs none none

end Channel

def maxAttemptsCap : Nat := 5

structure Plan where
  method : CStr
  request : Bytes
  policy : Option RetryPolicy
  waitForReady : Bool
  deadline : Nat
  bufferOk : Bool
  deriving DecidableEq

def Plan.maxAttempts (plan : Plan) : Nat :=
  match plan.policy with
  | some policy => if plan.bufferOk then max (min policy.maxAttempts maxAttemptsCap) 1 else 1
  | none => 1

def Plan.mask (plan : Plan) : BitVec 32 :=
  match plan.policy with
  | some policy => if plan.bufferOk then policy.retryableStatusMask else 0
  | none => 0

/-- What a turn of the engine did, with the time of its deadline check: an attempt on a connection, with the clock reading
that its timeout was computed from, or a sleep of some milliseconds, with the one that cut it, or a wait for a connection. -/
inductive Event where
  | attempt (checked : Nat) (clock : Option Nat) (before : Client) (result : Except Client Call)
  | sleep (checked : Nat) (clock : Option Nat) (delay : Nat)
  | idle
  deriving DecidableEq

structure Engine where
  plan : Plan
  checked : Nat
  policyAttempts : Nat
  wireAttempts : Nat
  case3Used : Bool
  backoff : Rat
  trace : List Event
  deriving DecidableEq

structure ChannelCall where
  live : Option (Nat × Call)
  attempts : Nat
  accounted : Bool
  hasPolicy : Bool
  mask : BitVec 32
  synStatus : Status
  synMessage : Option CStr
  plan : Plan
  trace : List Event
  deriving DecidableEq

inductive Turn where
  | again (e : Engine)
  | done (cc : ChannelCall)
  deriving DecidableEq

namespace Engine

def log (e : Engine) (event : Event) : Engine := { e with trace := e.trace ++ [event] }

def synthetic (e : Engine) (status : Status) (message : Option CStr) : ChannelCall where
  live := none
  attempts := e.policyAttempts
  accounted := false
  hasPolicy := e.plan.policy.isSome
  mask := e.plan.mask
  synStatus := status
  synMessage := message
  plan := e.plan
  trace := e.trace

def wrap (e : Engine) (i : Nat) (call : Call) (accounted : Bool) : ChannelCall :=
  { e.synthetic .ok none with live := some (i, call), accounted }

def mayRetry (e : Engine) (ch : Channel) (coded : Bool) : Option RetryPolicy :=
  if e.plan.bufferOk ∧ coded ∧ e.policyAttempts < e.plan.maxAttempts ∧ ch.throttleAllows then e.plan.policy else none

section

variable (env : Env) (ch : Channel)

def nextBackoff (e : Engine) (policy : RetryPolicy) : Nat × Channel × Engine :=
  ((e.backoff * env.jitter ch.tick).floor.toNat, { ch with tick := ch.tick + 1 },
    { e with backoff := min (e.backoff * policy.backoffMultiplier) policy.maxBackoffMs })

def pause (e : Engine) (delay : Nat) : Channel × Turn :=
  if e.plan.deadline = 0 then (ch, .again (e.log (.sleep e.checked none delay)))
  else
    let (now, ch) := ch.nowMs env
    let left := (e.plan.deadline + (2 ^ 64 - now)) % 2 ^ 64
    (ch, .again (e.log (.sleep e.checked (some now) (min delay left))))

def unavailable (e : Engine) : Channel × Turn :=
  if e.plan.waitForReady then (ch, .again (e.log .idle))
  else
    let e := { e with policyAttempts := e.policyAttempts + 1 }
    let coded := retryable e.plan.mask .unavailable
    let ch := if coded then ch.throttleFailure else ch
    match e.mayRetry ch coded with
    | some policy =>
      let (delay, ch, e) := e.nextBackoff env ch policy
      e.pause env ch delay
    | none =>
      (ch, .done { e.synthetic .unavailable (some (.ofBytes (ascii "no ready subchannel"))) with accounted := true })

def failed (e : Engine) (i : Nat) (call : Call) : Channel × Turn :=
  let pushback := if call.pushbackSeen then some call.pushbackMs else none
  let coded := retryable e.plan.mask call.status
  let stop := pushback.any (· < 0)
  let ch := if coded || stop then ch.throttleFailure else ch
  if stop then (ch, .done (e.wrap i call true))
  else
    match e.mayRetry ch coded with
    | none => (ch, .done (e.wrap i call true))
    | some policy =>
      let (delay, ch, e) := match pushback with
        | some ms => (ms.toNat, ch, { e with backoff := policy.initialBackoffMs })
        | none => e.nextBackoff env ch policy
      e.pause env ((ch.giveBack i ((call.resume ch.tick).destroy env)).release i) delay

def await (e : Engine) (i : Nat) (clock : Option Nat) (c : Client) (call : Call) : Channel × Turn :=
  let (rc, call) := call.awaitHeaders env
  let ch := ch.resume call.client.io.tick
  let e := e.log (.attempt e.checked clock c (.ok call))
  if rc = .keep then (ch, .done (e.wrap i call false))
  else if call.status = .ok then (ch.account .ok e.plan.policy.isSome e.plan.mask, .done (e.wrap i call true))
  else if call.refused ∧ ¬e.case3Used then
    (((ch.giveBack i (call.destroy env)).recycle env i).release i,
      .again { e with case3Used := true, policyAttempts := e.policyAttempts - 1 })
  else e.failed env ch i call

def remaining (deadline : Nat) : Nat × Option Nat × Channel :=
  if deadline = 0 then (0, none, ch)
  else
    let (now, ch) := ch.nowMs env
    (if now < deadline then deadline - now else 1, some now, ch)

def attempt (e : Engine) (i : Nat) (c : Client) : Channel × Turn :=
  let (remaining, clock, ch) := remaining env ch e.plan.deadline
  let c := c.resume ch.tick
  match Call.startEx env c e.plan.method e.plan.request remaining e.wireAttempts with
  | .error left =>
    (((ch.giveBack i left).recycle env i).release i, .again (e.log (.attempt e.checked clock c (.error left))))
  | .ok call =>
    { e with policyAttempts := e.policyAttempts + 1, wireAttempts := e.wireAttempts + 1 }.await env ch i clock c call

def turn (e : Engine) : Channel × Turn :=
  let (now, ch) := ch.nowMs env
  let e := { e with checked := now }
  if e.plan.deadline ≠ 0 ∧ now ≥ e.plan.deadline then
    (ch, .done (e.synthetic .deadlineExceeded (some (.ofBytes (ascii "deadline exceeded")))))
  else
    match ch.acquire env with
    | (none, ch) => e.unavailable env ch
    | (some (i, c), ch) => e.attempt env ch i c

end

end Engine

namespace Channel

def deadlineAfter (env : Env) (ch : Channel) (timeoutMs : Nat) : Nat × Channel :=
  if timeoutMs = 0 then (0, ch)
  else
    let (now, ch) := ch.nowMs env
    ((now + timeoutMs) % 2 ^ 64, ch)

def effTimeout (mc : Option MethodConfig) (timeoutMs : Nat) : Nat :=
  match mc.bind (·.timeoutMs) with
  | some limit => if timeoutMs = 0 ∨ limit < timeoutMs then limit else timeoutMs
  | none => timeoutMs

def callStart (env : Env) (ch : Channel) (method : CStr) (request : Bytes) (timeoutMs : Nat) : Channel × Engine :=
  let mc := ch.findMc method
  let policy := mc.bind (·.policy) <|> ch.policy
  let (deadline, ch') := ch.deadlineAfter env (effTimeout mc timeoutMs)
  (ch', {
    plan := {
      method, request, policy, deadline
      waitForReady := (mc.bind (·.waitForReady)).getD ch.waitForReady
      bufferOk := request.length ≤ ch.bufferLimit }
    checked := 0
    policyAttempts := 0
    wireAttempts := 0
    case3Used := false
    backoff := (policy.map fun policy => (policy.initialBackoffMs : Rat)).getD 0
    trace := [] })

end Channel

namespace ChannelCall

def recv (env : Env) (ch : Channel) (cc : ChannelCall) : Call.Received × Channel × ChannelCall :=
  match cc.live with
  | none => (.finished, ch, cc)
  | some (i, call) =>
    let (received, call) := (call.resume ch.tick).recv env
    (received, ch.resume call.client.io.tick, { cc with live := some (i, call) })

def settle (ch : Channel) (cc : ChannelCall) (status : Status) : Channel × ChannelCall :=
  if cc.accounted then (ch, cc) else (ch.account status cc.hasPolicy cc.mask, { cc with accounted := true })

section

variable (env : Env) (ch : Channel) (cc : ChannelCall)

def finish : Status × Channel × ChannelCall :=
  match cc.live with
  | none => (cc.synStatus, cc.settle ch cc.synStatus)
  | some (i, call) =>
    let (status, call) := (call.resume ch.tick).finish env
    (status, { cc with live := some (i, call) }.settle (ch.resume call.client.io.tick) status)

def cancel : Channel × ChannelCall :=
  match cc.live with
  | none => (ch, cc)
  | some (i, call) =>
    let call := (call.resume ch.tick).cancel env
    (ch.resume call.client.io.tick, { cc with live := some (i, call) })

def destroy : Channel :=
  match cc.live with
  | none => (cc.settle ch cc.synStatus).1
  | some (i, call) =>
    let ch := (cc.settle ch call.status).1
    ((ch.giveBack i ((call.resume ch.tick).destroy env)).recycle env i).release i

end

end ChannelCall

inductive ChannelOp where
  | start (method : CStr) (request : Bytes) (timeoutMs : Nat)
  | turn (i : Nat)
  | recv (i : Nat)
  | finish (i : Nat)
  | cancel (i : Nat)
  | destroy (i : Nat)
  deriving DecidableEq

structure System where
  channel : Channel
  engines : List Engine
  calls : List ChannelCall
  deriving DecidableEq

namespace System

def afterTurn (s : System) (i : Nat) : Channel × Turn → System
  | (channel, .again e) => { s with channel, engines := s.engines.set i e }
  | (channel, .done cc) => ⟨channel, s.engines.eraseIdx i, s.calls ++ [cc]⟩

def afterCall (s : System) (i : Nat) : Channel × ChannelCall → System
  | (channel, cc) => { s with channel, calls := s.calls.set i cc }

def step (env : Env) (s : System) : ChannelOp → System
  | .start method request timeoutMs =>
    let (channel, e) := s.channel.callStart env method request timeoutMs
    { s with channel, engines := s.engines ++ [e] }
  | .turn i =>
    match s.engines[i]? with
    | none => s
    | some e => s.afterTurn i (e.turn env s.channel)
  | .recv i =>
    match s.calls[i]? with
    | none => s
    | some cc => s.afterCall i (cc.recv env s.channel).2
  | .finish i =>
    match s.calls[i]? with
    | none => s
    | some cc => s.afterCall i (cc.finish env s.channel).2
  | .cancel i =>
    match s.calls[i]? with
    | none => s
    | some cc => s.afterCall i (cc.cancel env s.channel)
  | .destroy i =>
    match s.calls[i]? with
    | none => s
    | some cc => { s with channel := cc.destroy env s.channel, calls := s.calls.eraseIdx i }

def run (env : Env) (s : System) (ops : List ChannelOp) : System := ops.foldl (step env) s

end System

def Channel.start (ch : Channel) : System := ⟨ch, [], []⟩

end Cwist.Grpc
