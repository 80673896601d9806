import Cwist.Http2.Delivery

namespace Cwist.H2
open List Sender Cwist.H2.Frame

open Http (Request Response)

/-! ### What a run can see of a request -/

def Stream.blank (s : Stream) : Stream :=
  { s with req := if s.isHead then some { Request.create with method := .head } else none }

@[simp]
lemma Stream.blank_isHead (s : Stream) : s.blank.isHead = s.isHead := by
  show Option.any _ (if s.isHead then _ else none) = s.isHead
  cases s.isHead <;> rfl

def Conn.blank (hc : Conn) : Conn := { hc with streams := hc.streams.map Stream.blank }

variable {env : Env} {hc : Conn} {f : Frame} {s : Stream}

namespace Conn

variable {streamId setting value sample : Nat} {res : Response} {streams : List Stream} {payload : Bytes} {input : Input}

@[simp]
lemma blank_find : hc.blank.find streamId = (hc.find streamId).map Stream.blank := by
  unfold find blank
  rw [find?_map]
  rfl

lemma replaceStream_blank :
    replaceStream s.blank (streams.map Stream.blank) = (replaceStream s streams).map Stream.blank := by
  induction streams with
  | nil => rfl
  | cons t rest ih =>
    simp only [map_cons, replaceStream]
    split <;> rename_i same
    · rw [if_pos (show t.streamId = s.streamId from same), map_cons]
    · rw [if_neg (show ¬t.streamId = s.streamId from same), map_cons, ih]

lemma blank_put : (hc.put s).blank = hc.blank.put s.blank := by
  unfold put blank
  rw [replaceStream_blank]

lemma blank_progress {p : Progress} :
    (hc.put { s with progress := p }).blank = hc.blank.put { s.blank with progress := p } := blank_put

lemma blank_remove : (hc.remove env streamId).blank = hc.blank.remove env streamId := by
  unfold remove
  rw [blank_find]
  cases found : hc.find streamId with
  | none => rfl
  | some s =>
    have erased : (hc.streams.map Stream.blank).eraseP (fun s => s.streamId == streamId) =
        (hc.streams.eraseP fun s => s.streamId == streamId).map Stream.blank := eraseP_map
    simp only [Option.map_some]
    rw [show s.blank.hookCtx = s.hookCtx from rfl]
    split <;> simp only [blank, log, erased]

lemma blank_sendResponse :
    hc.blank.sendResponse env streamId res = (hc.sendResponse env streamId res).map id blank := by
  unfold sendResponse
  rw [blank_find]
  cases found : hc.find streamId with
  | none => rfl
  | some s =>
    rcases result : Sender.sendResponse env hc.sequencedData hc.peerMaxFrameSize s.isHead streamId res
      ⟨hc.toIo, s.progress⟩ with ⟨rc, x⟩
    have same : Sender.sendResponse env hc.blank.sequencedData hc.blank.peerMaxFrameSize s.blank.isHead streamId res
        ⟨hc.blank.toIo, s.blank.progress⟩ = (rc, x) := by
      rw [Stream.blank_isHead]
      exact result
    dsimp only [Option.map_some]
    rw [same, result]
    exact Prod.ext rfl (@blank_progress { hc with toIo := x.io } s x.s).symm

lemma blank_serve : hc.blank.serve env streamId res = (hc.serve env streamId res).map id blank := by
  unfold serve
  rw [blank_sendResponse]
  rcases hc.sendResponse env streamId res with ⟨_ | _ | _, hc⟩ <;>
    simp only [Prod.map_apply, id_eq, blank_remove]

lemma blank_resumeResponses :
    hc.blank.resumeResponses env (streams.map Stream.blank) = (hc.resumeResponses env streams).map id blank := by
  induction streams generalizing hc with
  | nil => rfl
  | cons s rest ih =>
    rw [map_cons, resumeResponses, resumeResponses, show s.blank.response = s.response from rfl]
    cases s.response with
    | none => exact ih
    | some res =>
      dsimp only
      rw [show s.blank.streamId = s.streamId from rfl, blank_serve]
      rcases hc.serve env s.streamId res with ⟨_ | _, hc⟩
      · rfl
      · exact ih

lemma blank_pollHooks : hc.blank.pollHooks env (streams.map Stream.blank) = (hc.pollHooks env streams).blank := by
  induction streams generalizing hc with
  | nil => rfl
  | cons s rest ih =>
    rw [map_cons, pollHooks, pollHooks, show s.blank.hookCtx = s.hookCtx from rfl]
    split
    · dsimp only
      rw [← ih, show hc.blank.ticks = hc.ticks from rfl]
      split
      · rw [blank_remove]
        rfl
      · rfl
    · exact ih

lemma blank_asyncDrain {queue : List (Nat × Response)} :
    hc.blank.asyncDrain env queue = (hc.asyncDrain env queue).map id blank := by
  induction queue generalizing hc with
  | nil => rfl
  | cons entry rest ih =>
    obtain ⟨streamId, res⟩ := entry
    rw [asyncDrain, asyncDrain, blank_find]
    cases hc.find streamId with
    | none => exact ih
    | some s =>
      have stored (res : Response) : hc.blank.put { s.blank with req := none, response := some res } =
          (hc.put { s with req := none, response := some res }).blank :=
        (@blank_put hc { s with req := none, response := some res }).symm
      dsimp only [Option.map_some]
      rw [stored, blank_serve]
      rcases (hc.put { s with req := none, response := some (res.injectAltSvc env.http3Port) }).serve env streamId
        (res.injectAltSvc env.http3Port) with ⟨_ | _, hc⟩
      · rfl
      · exact ih

lemma blank_write : hc.blank.write env f = (hc.write env f).map id blank := rfl

lemma blank_sendPing : hc.blank.sendPing env = (hc.sendPing env).blank := by
  unfold sendPing
  dsimp only
  rw [show hc.blank.tick = hc.tick.blank from rfl, show hc.blank.nowUs env = hc.nowUs env from rfl, blank_write]
  rcases hc.tick.write env _ with ⟨_ | _, hc⟩ <;> rfl

lemma blank_applySetting : hc.blank.applySetting setting value = (hc.applySetting setting value).map id blank := by
  unfold applySetting
  split
  · rfl
  · split
    · rfl
    · simp only [blank, Prod.map_apply, map_map]
      rfl
  · split <;> rfl
  · rfl

lemma blank_settingsLoop : settingsLoop payload hc.blank = (settingsLoop payload hc).map id blank := by
  fun_induction settingsLoop payload hc with
  | case1 i₀ i₁ v₀ v₁ v₂ v₃ rest hc hc' refused => 
    rw [settingsLoop, blank_applySetting, refused]
    rfl
  | case2 i₀ i₁ v₀ v₁ v₂ v₃ rest hc hc' applied ih =>
    rw [settingsLoop, blank_applySetting, applied]
    exact ih
  | case3 payload hc short =>
    rw [settingsLoop]
    · rfl
    · exact short

lemma blank_handleWindowUpdate :
    hc.blank.handleWindowUpdate streamId payload = (hc.handleWindowUpdate streamId payload).map id blank := by
  unfold handleWindowUpdate
  dsimp only
  split
  · rfl
  split
  · rw [show hc.blank.fc = hc.fc from rfl]
    split <;> rfl
  rw [blank_find]
  cases hc.find streamId with
  | none => rfl
  | some s =>
    dsimp only [Option.map_some]
    rw [show s.blank.progress = s.progress from rfl]
    split
    · rfl
    · exact Prod.ext rfl blank_progress.symm

lemma blank_settingsCase : hc.blank.settingsCase env f = (hc.settingsCase env f).blank := by
  have handled (ack : Bool) : hc.blank.handleSettings f.payload ack = (hc.handleSettings f.payload ack).map id blank := by
    unfold handleSettings
    split
    · rfl
    split
    · rfl
    · exact blank_settingsLoop
  unfold settingsCase
  dsimp only
  rw [handled]
  rcases hc.handleSettings f.payload (f.has ackFlag) with ⟨_ | _, hc⟩
  · rfl
  dsimp only [Prod.map_apply, id_eq]
  split
  · rfl
  · rw [blank_write]
    rcases hc.write env _ with ⟨_ | _, hc⟩ <;> rfl

lemma blank_windowUpdateCase : hc.blank.windowUpdateCase env f = (hc.windowUpdateCase env f).blank := by
  unfold windowUpdateCase
  split
  · rfl
  rw [blank_handleWindowUpdate]
  rcases hc.handleWindowUpdate f.streamId f.payload with ⟨_ | _, hc⟩ <;> rfl

def takeSample (env : Env) (sample : Nat) (hc : Conn) : Conn :=
  let hc := ({ hc with pingOutstanding := false }.setFc (hc.fc.updateRtt sample)).tick
  if hc.streams = [] then hc else hc.sendPing env

lemma pingAcknowledged_eq :
    hc.pingAcknowledged env = hc.takeSample env ((hc.nowUs env + 2 ^ 64 - hc.pingSentUs) % 2 ^ 64) := rfl

lemma blank_takeSample : hc.blank.takeSample env sample = (hc.takeSample env sample).blank := by
  let sampled : Conn := ({ hc with pingOutstanding := false }.setFc (hc.fc.updateRtt sample)).tick
  have empty : sampled.blank.streams = [] ↔ sampled.streams = [] := map_eq_nil_iff
  show (if sampled.blank.streams = [] then sampled.blank else sampled.blank.sendPing env) =
    (if sampled.streams = [] then sampled else sampled.sendPing env).blank
  simp only [empty, blank_sendPing]
  split <;> rfl

lemma blank_pingAcknowledged : hc.blank.pingAcknowledged env = (hc.pingAcknowledged env).blank := by
  have now : hc.blank.nowUs env = hc.nowUs env := rfl
  have pinged : hc.blank.pingSentUs = hc.pingSentUs := rfl
  rw [pingAcknowledged_eq, pingAcknowledged_eq, now, pinged, blank_takeSample]

lemma blank_pingCase : hc.blank.pingCase env f = (hc.pingCase env f).blank := by
  unfold pingCase
  split
  · rfl
  split
  · rw [show hc.blank.pingOutstanding = hc.pingOutstanding from rfl, show hc.blank.pingPayload = hc.pingPayload from rfl]
    split
    · exact blank_pingAcknowledged
    · rfl
  rw [show hc.blank.consumePingBudget env = (hc.consumePingBudget env).map id blank from rfl]
  rcases hc.consumePingBudget env with ⟨_ | _, hc⟩
  · rfl
  dsimp only [Prod.map_apply, id_eq]
  rw [blank_write]
  rcases hc.write env _ with ⟨_ | _, hc⟩ <;> rfl

lemma blank_frameCase (grants : Input.Grants streamId (.frame f)) :
    hc.blank.frameCase env f = (hc.frameCase env f).blank := by
  unfold frameCase
  split
  · rfl
  rw [show hc.blank.cont = hc.cont from rfl]
  split
  · rfl
  rcases grants with type | type | type
  · rw [if_pos type, if_pos type]
    exact blank_settingsCase
  · simp only [type]
    exact blank_windowUpdateCase
  · simp only [type]
    exact blank_pingCase

lemma blank_housekeeping : hc.blank.housekeeping env input = (hc.housekeeping env input).blank := by
  have resumed : ({ hc.blank with pacingWaiting := false } : Conn).resumeResponses env hc.blank.streams =
      (({ hc with pacingWaiting := false } : Conn).resumeResponses env hc.streams).map id blank := 
    @blank_resumeResponses env { hc with pacingWaiting := false } hc.streams
  unfold housekeeping
  rw [resumed]
  rcases ({ hc with pacingWaiting := false } : Conn).resumeResponses env hc.streams with ⟨_ | _, hc⟩
  · rfl
  dsimp only [Prod.map_apply, id_eq]
  rw [show hc.blank.streams = hc.streams.map Stream.blank from rfl, blank_pollHooks]
  cases input with
  | completions queue =>
    dsimp only
    rw [blank_asyncDrain]
    rcases (hc.pollHooks env hc.streams).asyncDrain env queue with ⟨_ | _, hc⟩ <;> rfl
  | _ => rfl

lemma blank_turn (grants : input.Grants streamId) : hc.blank.turn env input = (hc.turn env input).blank := by
  unfold turn
  rw [show hc.blank.connected = hc.connected from rfl]
  split
  · rfl
  cases input with
  | shutdown =>
    rw [show hc.blank.sendGoaway env hc.blank.lastProcessedStreamId .noError =
      (hc.sendGoaway env hc.lastProcessedStreamId .noError).map id blank from rfl]
    rcases hc.sendGoaway env hc.lastProcessedStreamId .noError with ⟨_ | _, hc⟩ <;> rfl
  | hangUp => rfl
  | frame f =>
    dsimp only
    rw [blank_housekeeping, show (hc.housekeeping env (.frame f)).blank.connected = (hc.housekeeping env (.frame f)).connected
      from rfl]
    split
    · exact blank_frameCase grants
    · rfl
  | completions queue => exact blank_housekeeping
  | deadline => exact blank_housekeeping

lemma blank_run {inputs : List Input} (grants : ∀ input ∈ inputs, input.Grants streamId) :
    hc.blank.run env inputs = (hc.run env inputs).blank := by
  induction inputs generalizing hc with
  | nil => rfl
  | cons input rest ih =>
    show (hc.blank.turn env input).run env rest = _
    rw [blank_turn (grants input mem_cons_self)]
    exact ih fun later member => grants later (mem_cons_of_mem _ member)

end Conn

/-! ### The two ways to complete a request -/

def Env.answering (env : Env) (outcome : Outcome) : Env := { env with handler := fun _ _ => outcome }

def Conn.defer (env : Env) (hc : Conn) (s : Stream) (req : Request) (res : Response) : Conn :=
  match (hc.dispatch (env.answering .deferred) false s req).asyncDrain env [(s.streamId, res)] with
  | (true, hc) => hc
  | (false, hc) => hc.close

/-- The sender goes on after the header block with a body, unless the request is a HEAD. -/
def BodyFollows (res : Response) : Prop :=
  (encodeResponseBlock res (responseIsGrpc res)).isSome ∧ statusForbidsBody res.statusCode = false ∧
    if responseIsGrpc res then grpcFailed res = false ∧ res.body ≠ [] else res.bodyLen ≠ 0

section Deferral

variable {req : Request} {res answered : Response} {streamId : Nat} {a b t : Stream}

lemma replaceStream_twice (same : a.streamId = b.streamId) (streams : List Stream) :
    replaceStream b (replaceStream a streams) = replaceStream b streams := by
  induction streams with
  | nil => rfl
  | cons t rest ih =>
    by_cases here : t.streamId = b.streamId
    · simp [replaceStream, same, here]
    · simp [replaceStream, same, here, ih]

lemma put_put (same : a.streamId = b.streamId) : (hc.put a).put b = hc.put b := by
  show { hc with streams := replaceStream b (replaceStream a hc.streams) } = _
  rw [replaceStream_twice same]
  rfl

lemma eraseP_replaceStream (a : Stream) (streams : List Stream) :
    (replaceStream a streams).eraseP (fun s => s.streamId == a.streamId) =
      streams.eraseP fun s => s.streamId == a.streamId := by
  induction streams with
  | nil => rfl
  | cons t rest ih =>
    by_cases here : t.streamId = a.streamId
    · simp [replaceStream, here]
    · simp [replaceStream, here, ih]

lemma remove_put_eq (found : hc.find streamId = some t) (here : a.streamId = streamId)
    (there : b.streamId = streamId) (hook : a.hookCtx = b.hookCtx) :
    (hc.put a).remove env streamId = (hc.put b).remove env streamId := by
  have erased : (replaceStream a hc.streams).eraseP (fun s => s.streamId == streamId) =
      (replaceStream b hc.streams).eraseP fun s => s.streamId == streamId := by
    have first := eraseP_replaceStream a hc.streams
    have second := eraseP_replaceStream b hc.streams
    rw [here] at first
    rw [there] at second
    rw [first, second]
  unfold Conn.remove
  rw [Conn.find_put found here, Conn.find_put found there]
  dsimp only
  rw [hook]
  simp only [Conn.put, erased]

lemma remove_close : (hc.remove env streamId).close = hc.close.remove env streamId := by
  unfold Conn.remove
  rw [show hc.close.find streamId = hc.find streamId from rfl]
  cases hc.find streamId with
  | none => rfl
  | some s =>
    dsimp only
    split <;> rfl

def Conn.handled (hc : Conn) (s : Stream) (req : Request) : Conn :=
  (hc.log (.handler s.streamId req hc.cont.expecting)).tick

def Conn.finish (env : Env) (hc : Conn) (streamId : Nat) (res : Response) : Conn :=
  match hc.serve env streamId res with
  | (true, hc) => hc
  | (false, hc) => hc.close

lemma dispatch_answer (answer : env.handler hc.ticks req = .response res) :
    hc.dispatch env false s req = ((hc.handled s req).put { s with response := some (res.injectAltSvc env.http3Port) }).finish
      env s.streamId (res.injectAltSvc env.http3Port) := by
  have called : hc.callHandler env s req = (.response res, hc.handled s req) := by
    unfold Conn.callHandler
    rw [answer]
    rfl
  unfold Conn.dispatch Conn.finish Conn.serve
  rw [called]
  dsimp only
  rcases Conn.sendResponse env _ s.streamId (res.injectAltSvc env.http3Port) with ⟨_ | _ | _, after⟩
  · rfl
  · rfl
  · exact remove_close.symm

lemma defer_eq (found : hc.find s.streamId = some s) : hc.defer env s req res =
      ((hc.handled s req).put { s with req := none, response := some (res.injectAltSvc env.http3Port) }).finish env s.streamId
        (res.injectAltSvc env.http3Port) := by
  have deferred : hc.dispatch (env.answering .deferred) false s req = (hc.handled s req).put { s with req := none } := rfl
  have there : ((hc.handled s req).put { s with req := none }).find s.streamId = some { s with req := none } :=
    Conn.find_put found rfl
  have twice (response : Option Response) :
      ((hc.handled s req).put { s with req := none }).put { s with req := none, response } =
        (hc.handled s req).put { s with req := none, response } := put_put rfl
  unfold Conn.defer Conn.finish
  rw [deferred, Conn.asyncDrain, there]
  dsimp only
  rw [twice]
  rcases Conn.serve env _ s.streamId (res.injectAltSvc env.http3Port) with ⟨_ | _, after⟩ <;> rfl

lemma blank_finish : hc.blank.finish env streamId res = (hc.finish env streamId res).blank := by
  unfold Conn.finish
  rw [Conn.blank_serve]
  rcases hc.serve env streamId res with ⟨_ | _, after⟩ <;> rfl

lemma blank_frames : hc.blank.responseFrames streamId = hc.responseFrames streamId := rfl

/-! ### Requests other than HEAD -/

lemma defer_frames_other {inputs : List Input} (request : s.req = some req)
    (other : req.method ≠ .head) (grants : ∀ input ∈ inputs, input.Grants streamId) :
    (((hc.put { s with response := some answered }).finish env s.streamId answered).run env inputs).responseFrames streamId =
      (((hc.put { s with req := none, response := some answered }).finish env s.streamId answered).run env
        inputs).responseFrames streamId := by
  have head : Stream.isHead { s with response := some answered } = false := by
    show s.req.any _ = false
    rw [request]
    exact beq_eq_false_iff_ne.mpr other
  have blank : Stream.blank { s with response := some answered } =
      Stream.blank { s with req := none, response := some answered } := by
    unfold Stream.blank
    rw [head]
    rfl
  rw [← blank_frames, ← Conn.blank_run grants, ← blank_finish, Conn.blank_put, blank, ← Conn.blank_put, blank_finish,
    Conn.blank_run grants, blank_frames]

/-! ### Responses without a body -/

variable {x : Sender} {sequenced data : Bool} {peerMaxFrameSize maxFrame : Nat}

section Senders

variable {isHead : Bool}

lemma ofWrite_ne_parked (ok : Bool) : SendRc.ofWrite ok ≠ .parked := by
  cases ok <;> exact nofun

lemma sendGrpcTrailers_ne_parked : (x.sendGrpcTrailers env streamId res maxFrame).1 ≠ .parked := by
  unfold sendGrpcTrailers
  split
  · simp
  · exact ofWrite_ne_parked _

lemma sendGrpcTrailersOnly_ne_parked : (x.sendGrpcTrailersOnly env streamId res maxFrame).1 ≠ .parked := by
  unfold sendGrpcTrailersOnly
  split
  · exact ofWrite_ne_parked _
  · exact nofun

lemma sendResponse_unencoded (fresh : x.s.responseHeadersSent = false)
    (unencoded : encodeResponseBlock res (responseIsGrpc res) = none) :
    x.sendResponse env sequenced peerMaxFrameSize isHead streamId res = (.failed, x) := by
  have headers (maxFrame : Nat) (flags : UInt8) :
      x.sendResponseHeaders env streamId res (responseIsGrpc res) maxFrame flags = (false, x) := by
    unfold sendResponseHeaders
    rw [fresh, if_neg (by decide), unencoded]
  unfold sendResponse
  dsimp only
  rw [headers]
  split <;> rename_i failed
  · have grpc := (Bool.and_eq_true_iff.mp (Bool.and_eq_true_iff.mp failed).1).2
    rw [grpc] at unencoded
    unfold sendGrpcTrailersOnly
    rw [unencoded]
  · rfl

lemma sendResponse_trailersOnly_eq (fresh : x.s.responseHeadersSent = false) (grpc : responseIsGrpc res = true)
    (failed : grpcFailed res = true) : x.sendResponse env sequenced peerMaxFrameSize isHead streamId res =
      x.sendGrpcTrailersOnly env streamId res (frameLimit peerMaxFrameSize) := by
  unfold sendResponse
  rw [fresh, grpc, failed]
  rfl

lemma sendResponse_bodiless (served : (responseIsGrpc res && grpcFailed res) = false)
    (bare : (if responseIsGrpc res then res.body.length else res.bodyLen) = 0 ∨
      (statusForbidsBody res.statusCode || isHead) = true) :
    x.sendResponse env sequenced peerMaxFrameSize isHead streamId res =
      match x.sendResponseHeaders env streamId res (responseIsGrpc res) (frameLimit peerMaxFrameSize)
        (if responseIsGrpc res then 0 else endStreamFlag) with
      | (false, x) => (.failed, x)
      | (true, x) =>
        if responseIsGrpc res then x.sendGrpcTrailers env streamId res (frameLimit peerMaxFrameSize)
        else (.done, x) := by
  unfold sendResponse
  dsimp only
  rw [Bool.and_assoc, served, Bool.and_false]
  simp only [bare, true_and, if_true]
  cases responseIsGrpc res <;> rfl

lemma sendResponse_head (fresh : x.s.responseHeadersSent = false) (bodiless : ¬BodyFollows res) :
    x.sendResponse env sequenced peerMaxFrameSize true streamId res =
        x.sendResponse env sequenced peerMaxFrameSize false streamId res ∧
      (x.sendResponse env sequenced peerMaxFrameSize false streamId res).1 ≠ .parked := by
  cases encoded : encodeResponseBlock res (responseIsGrpc res) with
  | none =>
    rw [sendResponse_unencoded fresh encoded, sendResponse_unencoded fresh encoded]
    exact ⟨rfl, nofun⟩
  | some block =>
    cases served : responseIsGrpc res && grpcFailed res with
    | true =>
      obtain ⟨grpc, failed⟩ := Bool.and_eq_true_iff.mp served
      rw [sendResponse_trailersOnly_eq fresh grpc failed, sendResponse_trailersOnly_eq fresh grpc failed]
      exact ⟨rfl, sendGrpcTrailersOnly_ne_parked⟩
    | false =>
      have bare : (if responseIsGrpc res then res.body.length else res.bodyLen) = 0 ∨
          (statusForbidsBody res.statusCode || false) = true := by
        by_contra body
        obtain ⟨some, allowed⟩ := not_or.mp body
        refine bodiless ⟨by rw [encoded]; rfl, by simpa using allowed, ?_⟩
        cases grpc : responseIsGrpc res <;> simp_all
      rw [sendResponse_bodiless served (.inr (Bool.or_true _)), sendResponse_bodiless served bare]
      refine ⟨rfl, ?_⟩
      split
      · exact nofun
      · split
        · exact sendGrpcTrailers_ne_parked
        · exact nofun

end Senders

lemma finish_put_eq (found : hc.find streamId = some t) (here : a.streamId = streamId)
    (there : b.streamId = streamId) (hook : a.hookCtx = b.hookCtx)
    (same : sendResponse env hc.sequencedData hc.peerMaxFrameSize a.isHead streamId res ⟨hc.toIo, a.progress⟩ =
      sendResponse env hc.sequencedData hc.peerMaxFrameSize b.isHead streamId res ⟨hc.toIo, b.progress⟩)
    (unparked : (sendResponse env hc.sequencedData hc.peerMaxFrameSize b.isHead streamId res
      ⟨hc.toIo, b.progress⟩).1 ≠ .parked) :
    (hc.put a).finish env streamId res = (hc.put b).finish env streamId res := by
  have sent (c : Stream) (owner : c.streamId = streamId) : (hc.put c).sendResponse env streamId res =
      ((sendResponse env hc.sequencedData hc.peerMaxFrameSize c.isHead streamId res ⟨hc.toIo, c.progress⟩).1,
        Conn.put { hc with toIo := (sendResponse env hc.sequencedData hc.peerMaxFrameSize c.isHead streamId res
          ⟨hc.toIo, c.progress⟩).2.io } { c with progress := (sendResponse env hc.sequencedData hc.peerMaxFrameSize
            c.isHead streamId res ⟨hc.toIo, c.progress⟩).2.s }) := by
    unfold Conn.sendResponse
    rw [Conn.find_put found owner]
    exact Prod.ext rfl (@put_put { hc with toIo := _ } c _ rfl)
  unfold Conn.finish Conn.serve
  rw [sent a here, sent b there, same]
  generalize sendResponse env hc.sequencedData hc.peerMaxFrameSize b.isHead streamId res ⟨hc.toIo, b.progress⟩ = result
    at unparked
  obtain ⟨rc, x⟩ := result
  have removed :=
    @remove_put_eq env { hc with toIo := x.io } streamId { a with progress := x.s } { b with progress := x.s } t found here
      there hook
  cases rc with
  | parked => exact absurd rfl unparked
  | done => exact removed
  | failed => exact congrArg Conn.close removed

/-! ### A body after a HEAD -/

section Bodies

variable {y : Sender} {flags : UInt8} {block body : Bytes} {fragments : List Bytes}

lemma sendHeaderBlock_written (writes : ¬env.Refuses) (positive : 0 < maxFrame) :
    ∃ y fragments, x.sendHeaderBlock env streamId block maxFrame flags = (true, y) ∧ fragments ≠ [] ∧
      Sender.Wrote x y (headerFrames streamId Frame.headers flags fragments) ∧ y.s = x.s ∧ y.io.fc = x.io.fc := by
  rcases call : x.sendHeaderBlock env streamId block maxFrame flags with ⟨_ | _, y⟩ <;>
    obtain ⟨fragments, frames, header⟩ := sendHeaderBlock_wrote positive call
  · exact absurd (header.refused rfl) writes
  · exact ⟨y, fragments, rfl, header.opened, header.finished rfl ▸ header.wrote, header.same, header.fc⟩

lemma sendResponseHeaders_written {grpcMode : Bool} (writes : ¬env.Refuses) (positive : 0 < maxFrame)
    (fresh : x.s.responseHeadersSent = false) (encoded : encodeResponseBlock res grpcMode = some block) :
    ∃ y fragments, x.sendResponseHeaders env streamId res grpcMode maxFrame flags = (true, y) ∧ fragments ≠ [] ∧
      Sender.Wrote x y (headerFrames streamId Frame.headers flags fragments) ∧
      y.s = { x.s with responseHeadersSent := true } ∧ y.io.fc = x.io.fc := by
  obtain ⟨y, fragments, call, opened, wrote, same, fc⟩ :=
    @sendHeaderBlock_written env streamId x maxFrame flags block writes positive
  refine ⟨{ y with s := { y.s with responseHeadersSent := true } }, fragments, ?_, opened, wrote, by rw [same], fc⟩
  unfold sendResponseHeaders
  rw [fresh, if_neg (by decide), encoded]
  dsimp only
  rw [call]

lemma mem_of_write (call : x.write env f = (true, y)) : .frame f ∈ y.io.trace := by
  rw [((Sender.Wrote.refl x).write call).1]
  exact mem_append_right _ mem_cons_self

lemma bodyLoop_starts {fuel : Nat} (writes : ¬env.Refuses) (positive : 0 < maxFrame)
    (unmeasured : x.io.fc.rttInitialized = false) (credit : x.starved = false) (short : x.s.responseSent < body.length) :
    ∃ f : Frame, f.type = Frame.data ∧ f.streamId = streamId ∧
      .frame f ∈ (x.bodyLoop env streamId maxFrame body.length (.memory body) flags (fuel + 1)).2.io.trace := by
  have allowance (requested : Nat) (some : 0 < requested) : (x.allowance env requested).1 ≠ 0 := by
    have open_ := credit
    rw [Sender.starved, Bool.or_eq_false_iff, beq_eq_false_iff_ne, decide_eq_false_iff_not] at open_
    show (sendAllowance x.io.fc x.s.fc requested (x.io.nowUs env)).1 ≠ 0
    unfold sendAllowance
    rw [if_neg open_.2]
    rw [unmeasured, if_neg (by simp)]
    split <;> omega
  rw [bodyLoop]
  dsimp only
  rw [if_neg (by omega), credit, if_neg (by decide)]
  split
  next call => exact absurd (congrArg Prod.fst call) (allowance _ (by omega))
  split <;> rename_i fetched <;> cases fetched
  split <;> rename_i z call
  · exact absurd ((Sender.Wrote.refl _).unwritten call).2.2 writes
  obtain ⟨f, type, here, member⟩ : ∃ f : Frame, f.type = Frame.data ∧ f.streamId = streamId ∧ .frame f ∈ z.io.trace := by
    refine ⟨_, ?_, ?_, mem_of_write call⟩ <;> rfl
  refine ⟨f, type, here, ?_⟩
  split
  · have parked := fun next => @Sender.Sends.park env streamId next next (.refl next) true
    exact (parked _).trace.mem member
  · exact (bodyLoop_sends (.refl _)).trace.mem member

lemma headerFrames_first (opened : fragments ≠ []) :
    ∃ f rest, headerFrames streamId Frame.headers endStreamFlag fragments = f :: rest ∧ f.endStream = true := by
  obtain ⟨chunk, rest, rfl⟩ := exists_cons_of_ne_nil opened
  refine ⟨_, _, rfl, ?_⟩
  unfold endStream Frame.has
  dsimp only
  split <;> rfl

def Sender.responseFrames (streamId : Nat) (x : Sender) : List Frame := x.io.trace.filterMap (Event.responseFrame streamId)

lemma responseFrames_headerFrames (none : x.responseFrames streamId = [])
    (wrote : Sender.Wrote x y (headerFrames streamId Frame.headers flags fragments)) :
    y.responseFrames streamId = headerFrames streamId Frame.headers flags fragments := by
  have all : ((headerFrames streamId Frame.headers flags fragments).map Event.frame).filterMap
      (Event.responseFrame streamId) = headerFrames streamId Frame.headers flags fragments := by
    rw [filterMap_map]
    refine (filterMap_congr fun f member => ?_).trans filterMap_some
    obtain ⟨here, kind⟩ := mem_headerFrames member
    refine responseFrame_some ⟨here, ?_⟩
    rcases kind with kind | kind <;> rw [ofResponse, kind] <;> rfl
  rw [responseFrames, wrote, filterMap_append, all]
  exact congrArg (· ++ _) none

lemma responseFrames_sends (sends : Sender.Sends streamId x y) : ∃ more, y.responseFrames streamId = x.responseFrames streamId ++ more := by
  obtain ⟨added, trace, -⟩ := sends.trace
  exact ⟨added.filterMap (Event.responseFrame streamId), by rw [responseFrames, trace, filterMap_append]; rfl⟩

lemma mem_responseFrames (member : .frame f ∈ x.io.trace) (here : f.streamId = streamId)
    (type : f.type = Frame.data) : f ∈ x.responseFrames streamId :=
  mem_filterMap.mpr ⟨_, member, responseFrame_some ⟨here, by rw [ofResponse, type]; rfl⟩⟩

lemma sendResponse_plain_differs (writes : ¬env.Refuses)
    (fresh : x.s.responseHeadersSent = false) (none : x.responseFrames streamId = []) (grpc : responseIsGrpc res = false)
    (encoded : encodeResponseBlock res false = some block) (allowed : statusForbidsBody res.statusCode = false)
    (body : res.bodyLen ≠ 0) :
    (x.sendResponse env sequenced peerMaxFrameSize true streamId res).2.responseFrames streamId ≠
      (x.sendResponse env sequenced peerMaxFrameSize false streamId res).2.responseFrames streamId := by
  have positive := frameLimit_pos peerMaxFrameSize
  obtain ⟨y, fragments, headers, opened, wrote, -⟩ :=
    @sendResponseHeaders_written env res streamId x _ endStreamFlag block false writes positive fresh encoded
  obtain ⟨z, others, headersBody, openedBody, wroteBody, -⟩ :=
    @sendResponseHeaders_written env res streamId x _ 0 block false writes positive fresh encoded
  obtain ⟨f, rest, first, flagged⟩ := @headerFrames_first streamId fragments opened
  obtain ⟨g, later, other⟩ := exists_cons_of_ne_nil
    (show headerFrames streamId Frame.headers 0 others ≠ [] by
      obtain ⟨chunk, rest, rfl⟩ := exists_cons_of_ne_nil openedBody
      exact cons_ne_nil _ _)
  have served : (responseIsGrpc res && grpcFailed res) = false := by rw [grpc, Bool.false_and]
  have head : x.sendResponse env sequenced peerMaxFrameSize true streamId res = (.done, y) := by
    rw [sendResponse_bodiless served (.inr (Bool.or_true _)), grpc, if_neg (by decide), headers]
    rfl
  have full : x.sendResponse env sequenced peerMaxFrameSize false streamId res =
      z.sendBody env sequenced streamId res (frameLimit peerMaxFrameSize) := by
    unfold sendResponse
    simp only [grpc, allowed, body, Bool.and_false, Bool.false_and, Bool.false_eq_true, if_false, Bool.or_self, or_self,
      false_and]
    rw [show (if peerMaxFrameSize = 0 then maxSize else peerMaxFrameSize) = frameLimit peerMaxFrameSize from rfl,
      headersBody]
  obtain ⟨more, extended⟩ := responseFrames_sends (@Sender.sendBody_sends env streamId z z
    (frameLimit peerMaxFrameSize) res (.refl z) sequenced)
  rw [head, full, responseFrames_headerFrames none wrote, extended, responseFrames_headerFrames none wroteBody, first, other]
  intro same
  have plain := @headerFrames_endStream 0 others g streamId Frame.headers rfl
    (by rw [other]; exact mem_cons_self)
  rw [← (List.cons.inj same).1, flagged] at plain
  cases plain

lemma header_dataless (wrote : Sender.Wrote x y (headerFrames streamId Frame.headers flags fragments))
    (dataless : ∀ f ∈ x.responseFrames streamId, f.type ≠ Frame.data) :
    ∀ f ∈ y.responseFrames streamId, f.type ≠ Frame.data := by
  intro f member
  rw [responseFrames, wrote, filterMap_append] at member
  rcases mem_append.mp member with early | late
  · exact dataless f early
  obtain ⟨e, listed, same⟩ := mem_filterMap.mp late
  obtain ⟨g, framed, rfl⟩ := mem_map.mp listed
  obtain rfl := Option.some.inj (Option.ite_none_right_eq_some.mp same).2
  rcases (mem_headerFrames framed).2 with type | type <;> rw [type] <;> decide

lemma sendGrpcTrailers_dataless (writes : ¬env.Refuses) (positive : 0 < maxFrame)
    (dataless : ∀ f ∈ x.responseFrames streamId, f.type ≠ Frame.data) :
    ∀ f ∈ (x.sendGrpcTrailers env streamId res maxFrame).2.responseFrames streamId, f.type ≠ Frame.data := by
  unfold sendGrpcTrailers
  split
  · exact dataless
  rename_i tail _
  obtain ⟨z, fragments, trailers, -, wrote, -⟩ :=
    @sendHeaderBlock_written env streamId x _ endStreamFlag tail writes positive
  rw [trailers]
  exact header_dataless wrote dataless

lemma sendResponse_grpc_differs (writes : ¬env.Refuses)
    (fresh : x.s.responseHeadersSent = false) (unsent : x.s.responseSent = 0) (none : x.responseFrames streamId = [])
    (unmeasured : x.io.fc.rttInitialized = false) (credit : x.starved = false) (grpc : responseIsGrpc res = true)
    (served : grpcFailed res = false) (encoded : encodeResponseBlock res true = some block)
    (allowed : statusForbidsBody res.statusCode = false) (body : res.body ≠ []) :
    (x.sendResponse env sequenced peerMaxFrameSize true streamId res).2.responseFrames streamId ≠
      (x.sendResponse env sequenced peerMaxFrameSize false streamId res).2.responseFrames streamId := by
  have positive := frameLimit_pos peerMaxFrameSize
  obtain ⟨y, fragments, headers, opened, wrote, state, fc⟩ :=
    @sendResponseHeaders_written env res streamId x _ 0 block true writes positive fresh encoded
  have length : res.body.length ≠ 0 := fun zero => body (length_eq_zero_iff.mp zero)
  have head : x.sendResponse env sequenced peerMaxFrameSize true streamId res =
      y.sendGrpcTrailers env streamId res (frameLimit peerMaxFrameSize) := by
    rw [sendResponse_bodiless (by rw [grpc, served]; rfl) (.inr (Bool.or_true _)), grpc, if_pos rfl, headers]
    rfl
  -- the body starts with a DATA frame
  obtain ⟨f, type, here, member⟩ := @bodyLoop_starts env streamId y _ 0 res.body res.body.length writes positive
    (by rw [fc, unmeasured]) (by rw [Sender.starved, fc, state]; exact credit) (by rw [state, unsent]; omega)
  have delivered : f ∈ (x.sendResponse env sequenced peerMaxFrameSize false streamId res).2.responseFrames streamId := by
    unfold sendResponse
    simp only [grpc, served, allowed, length, Bool.and_false, Bool.false_eq_true, if_false, if_true, Bool.or_self, or_self,
      Bool.not_true, and_false]
    rw [show (if peerMaxFrameSize = 0 then maxSize else peerMaxFrameSize) = frameLimit peerMaxFrameSize from rfl, headers]
    dsimp only
    split <;> rename_i loop <;> rw [loop] at member
    · exact mem_responseFrames member here type
    · exact mem_responseFrames ((sendGrpcTrailers_sends (.refl _)).trace.mem member) here type
  intro same
  rw [head] at same
  have dataless := header_dataless wrote (by rw [none]; simp)
  exact sendGrpcTrailers_dataless writes positive dataless f (same ▸ delivered) type

end Bodies

def Conn.waiting (env : Env) (req : Request) : Conn :=
  { Conn.init env false with streams := [{ Stream.create 1 65535 with req := some req }] }

lemma finish_frames : (hc.finish env streamId res).responseFrames streamId =
    (hc.sendResponse env streamId res).2.responseFrames streamId := by
  unfold Conn.finish Conn.serve
  rcases hc.sendResponse env streamId res with ⟨_ | _ | _, after⟩
  · exact remove_frames
  · rfl
  · exact (show (Conn.remove env after streamId).responseFrames streamId = _ from remove_frames)

lemma sendResponse_frames (found : hc.find streamId = some s) :
    (hc.sendResponse env streamId res).2.responseFrames streamId =
      (sendResponse env hc.sequencedData hc.peerMaxFrameSize s.isHead streamId res
        ⟨hc.toIo, s.progress⟩).2.responseFrames streamId := by
  unfold Conn.sendResponse
  rw [found]
  rfl

lemma dispatch_data_frames (answer : env.handler hc.ticks req = .response res) :
    (hc.dispatch env data s req).responseFrames s.streamId = (hc.dispatch env false s req).responseFrames s.streamId := by
  have called : hc.callHandler env s req = (.response res, hc.handled s req) := by
    unfold Conn.callHandler
    rw [answer]
    rfl
  have credit (hc : Conn) := (@Spares.returnCredit s.streamId env hc s.streamId data).frames
  unfold Conn.dispatch
  rw [called]
  dsimp only
  rcases Conn.sendResponse env _ s.streamId (res.injectAltSvc env.http3Port) with ⟨_ | _ | _, after⟩
  · exact (remove_frames.trans (credit after)).trans remove_frames.symm
  · exact credit after
  · rfl

lemma defer_frames_ne (writes : ¬env.Refuses) (found : hc.find s.streamId = some s) (request : s.req = some req)
    (fresh : s.progress.responseHeadersSent = false) (unsent : s.progress.responseSent = 0)
    (none : hc.responseFrames s.streamId = []) (unmeasured : hc.fc.rttInitialized = false)
    (credit : Sender.starved ⟨hc.toIo, s.progress⟩ = false) (answer : env.handler hc.ticks req = .response res)
    (head : req.method = .head) (body : BodyFollows (res.injectAltSvc env.http3Port)) :
    (hc.dispatch env false s req).responseFrames s.streamId ≠ (hc.defer env s req res).responseFrames s.streamId := by
  rw [dispatch_answer answer, defer_eq found]
  generalize res.injectAltSvc env.http3Port = out at body
  obtain ⟨encodes, allowed, follows⟩ := body
  obtain ⟨block, encoded⟩ := Option.isSome_iff_exists.mp encodes
  have frames (t : Stream) (here : t.streamId = s.streamId) (progress : t.progress = s.progress) :
      (((hc.handled s req).put t).finish env s.streamId out).responseFrames s.streamId =
        (sendResponse env hc.sequencedData hc.peerMaxFrameSize t.isHead s.streamId out
          ⟨(hc.handled s req).toIo, s.progress⟩).2.responseFrames s.streamId := by
    have there : ((hc.handled s req).put t).find s.streamId = some t := Conn.find_put found here
    rw [finish_frames, sendResponse_frames there, progress]
    rfl
  have isHead : Stream.isHead { s with response := some out } = true := by
    show s.req.any _ = true
    rw [request, Option.any_some, head]
    rfl
  have noted : (hc.handled s req).responseFrames s.streamId = hc.responseFrames s.streamId :=
    responseFrames_extends (.snoc _ nofun)
  have before := noted.trans none
  rw [frames { s with response := some out } rfl rfl, frames { s with req := .none, response := some out } rfl rfl, isHead]
  cases grpc : responseIsGrpc out with rw [grpc] at encoded follows
  | false => exact sendResponse_plain_differs writes fresh before grpc encoded allowed follows
  | true =>
    exact sendResponse_grpc_differs writes fresh unsent before unmeasured credit grpc follows.1 encoded allowed follows.2

end Deferral

/-- A deferred response goes out frame by frame as one that the handler returns, unless it has a body and its request
is a HEAD. Both are compared from the state in which the handler is called, and the run after it. -/
theorem deferral_frames_iff (port : Option Nat) (req : Request) (res : Response) :
    (∀ (env : Env) (hc : Conn) (s : Stream) (data : Bool) (inputs : List Input), env.http3Port = port →
      hc.find s.streamId = some s → s.req = some req → s.progress.responseHeadersSent = false →
      env.handler hc.ticks req = .response res → (∀ input ∈ inputs, input.Grants s.streamId) →
      (hc.dispatch env data s req).responseFrames s.streamId = (hc.defer env s req res).responseFrames s.streamId ∧
      ((hc.dispatch env false s req).run env inputs).responseFrames s.streamId =
        ((hc.defer env s req res).run env inputs).responseFrames s.streamId) ↔
    (req.method = .head → ¬BodyFollows (res.injectAltSvc port)) := by
  constructor
  · intro same head body
    let env : Env := { Env.simple (.response res) with http3Port := port }
    have writes : ¬env.Refuses := fun ⟨_, refused⟩ => by cases refused
    let s : Stream := { Stream.create 1 65535 with req := some req }
    have equal := (same env (.waiting env req) s false [] rfl rfl rfl rfl rfl nofun).1
    exact @defer_frames_ne env (.waiting env req) s req res writes rfl rfl rfl rfl rfl rfl rfl rfl head body equal
  rintro bodiless env hc s data inputs rfl found request fresh answer grants
  have runs (inputs : List Input) (grants : ∀ input ∈ inputs, input.Grants s.streamId) :
      ((hc.dispatch env false s req).run env inputs).responseFrames s.streamId =
        ((hc.defer env s req res).run env inputs).responseFrames s.streamId := by
    rw [dispatch_answer answer, defer_eq found]
    by_cases head : req.method = .head
    · obtain ⟨sameHead, unparked⟩ := @sendResponse_head env (res.injectAltSvc env.http3Port) s.streamId
        ⟨(hc.handled s req).toIo, s.progress⟩ (hc.handled s req).sequencedData (hc.handled s req).peerMaxFrameSize fresh
        (bodiless head)
      have isHead : Stream.isHead { s with response := some (res.injectAltSvc env.http3Port) } = true := by
        show s.req.any _ = true
        rw [request, Option.any_some, head]
        rfl
      have there := found
      let answered : Stream := { s with response := some (res.injectAltSvc env.http3Port) }
      let drained : Stream := { s with req := none, response := some (res.injectAltSvc env.http3Port) }
      have finished : ((hc.handled s req).put answered).finish env s.streamId (res.injectAltSvc env.http3Port) =
          ((hc.handled s req).put drained).finish env s.streamId (res.injectAltSvc env.http3Port) :=
        finish_put_eq there rfl rfl rfl (isHead ▸ sameHead) unparked
      rw [finished]
    · exact defer_frames_other request head grants
  exact ⟨(dispatch_data_frames answer).trans (runs [] nofun), runs inputs grants⟩

/-- The body of a deferred response to a HEAD request goes out. -/
theorem deferred_head_body :
    let request : Frame := ⟨Frame.headers, 0x05, 1, [0x02, 0x04, 0x48, 0x45, 0x41, 0x44, 0x86, 0x84]⟩
    let sync := Env.simple (.response (.ofBody [0x61]))
    let async := Env.simple .deferred
    dataOctets (((Conn.start sync false).run sync [.frame request]).responseFrames 1) = [] ∧
      dataOctets (((Conn.start async false).run async
        [.frame request, .completions [(1, .ofBody [0x61])]]).responseFrames 1) = [0x61] := by
  decide

end Cwist.H2
