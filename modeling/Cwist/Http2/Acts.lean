import Cwist.Http2.Serve
import Cwist.Http2.Window
import Cwist.Lib.Trace

/-!
# What the frame handlers can do

Apart from opening streams, decoding header blocks and calling the handler, everything that the dispatcher does is a
sequence of a few kinds of acts.
-/

namespace Cwist.H2
open Conn Cwist.H2.Frame

open Http (Response FileBody)
open Http2 (FlowControl StreamFlowControl)
open Trace (Extends)

def Event.Quiet : Event → Prop
  | .frame f => f.type ≠ rstStream
  | .onData .. | .onPoll _ | .onCancel _ | .onClose _ => True
  | _ => False

def Event.OfResponse (streamId : Nat) : Event → Prop
  | .frame f => f.streamId = streamId ∧ f.ofResponse = true
  | _ => False

lemma Frame.ofResponse_ne {f : Frame} {type : UInt8} (kind : f.ofResponse = true) (other : ofResponse ⟨type, 0, 0, []⟩ = false) :
    f.type ≠ type := by
  rintro rfl
  rw [ofResponse] at kind other
  rw [kind] at other
  cases other

lemma Event.OfResponse.quiet {streamId : Nat} : ∀ {e : Event}, e.OfResponse streamId → e.Quiet
  | .frame _, sent => ofResponse_ne sent.2 (by decide)

lemma Io.writeFrame_quiet (env : Env) (io : Io) {f : Frame} (type : f.type ≠ rstStream) :
    Extends Event.Quiet io.trace (io.writeFrame env f).2.trace := by
  have quiet := type
  unfold writeFrame
  split
  · exact Extends.snoc _ quiet
  · exact Extends.refl _ _

variable {env : Env} {ok : Bool} {streamId id : Nat}

namespace Sender

variable {x y z : Sender} {rc : SendRc}

/-- A sender adds frames of its response to the trace and leaves the receive windows alone. -/
structure Sends (streamId : Nat) (x y : Sender) : Prop where
  trace : Extends (Event.OfResponse streamId) x.io.trace y.io.trace
  window : y.io.fc.window = x.io.fc.window
  streamWindow : y.s.fc.window = x.s.fc.window

variable {bodyLen fuel maxFrame peerMaxFrameSize : Nat} {flags : UInt8} {res : Response}

lemma Sends.refl (x : Sender) : Sends streamId x x := ⟨.refl _ _, rfl, rfl⟩

lemma Sends.write {f : Frame} (h : Sends streamId x y) (here : f.streamId = streamId) (kind : f.ofResponse = true)
    (call : y.write env f = (ok, z)) : Sends streamId x z := by
  have sent : Event.OfResponse streamId (.frame f) := ⟨here, kind⟩
  have trace : Extends (Event.OfResponse streamId) y.io.trace (y.io.writeFrame env f).2.trace := by
    unfold Io.writeFrame
    split
    · exact .snoc _ sent
    · exact .refl _ _
  have fc : (y.io.writeFrame env f).2.fc = y.io.fc := by
    unfold Io.writeFrame
    split <;> rfl
  cases call
  exact ⟨h.trace.trans trace, (congrArg FlowControl.window fc).trans h.window, h.streamWindow⟩

lemma Sends.silent (h : Sends streamId x y) (same : z.io.trace = y.io.trace) (window : z.io.fc.window = y.io.fc.window)
    (streamWindow : z.s.fc.window = y.s.fc.window) : Sends streamId x z :=
  ⟨same ▸ h.trace, window.trans h.window, streamWindow.trans h.streamWindow⟩

section
variable (fc : FlowControl)
include fc

lemma accrue_window (nowUs : Nat) : (fc.accrue nowUs).window = fc.window := by
  unfold FlowControl.accrue
  split
  · rfl
  · split <;> rfl

lemma pacingAllowance_window (sfc : StreamFlowControl) (requested nowUs : Nat) :
    (fc.pacingAllowance sfc requested nowUs).2.window = fc.window := by
  unfold FlowControl.pacingAllowance
  split
  · rfl
  · exact accrue_window fc nowUs

lemma sendAllowance_window (sfc : StreamFlowControl) (requested nowUs : Nat) :
    (sendAllowance fc sfc requested nowUs).2.window = fc.window := by
  unfold sendAllowance
  split
  · rfl
  dsimp only
  generalize (if ((min requested fc.sendWindow : Nat) : Int) > sfc.sendWindow then _ else _) = allowed
  split
  · exact pacingAllowance_window fc sfc allowed nowUs
  · rfl

lemma spend_window (sendWindow pacingTokens : Nat) : { fc with sendWindow, pacingTokens }.window = fc.window := rfl

lemma reserveSend_window (sfc : StreamFlowControl) (bytes nowUs : Nat) :
    (fc.reserveSend sfc bytes nowUs).1.window = fc.window ∧ (fc.reserveSend sfc bytes nowUs).2.window = sfc.window := by
  have paced := pacingAllowance_window fc sfc bytes nowUs
  unfold FlowControl.reserveSend
  generalize fc.pacingAllowance sfc bytes nowUs = result at paced ⊢
  obtain ⟨allowed, fc'⟩ := result
  dsimp only
  split
  · exact ⟨paced, rfl⟩
  · exact ⟨(spend_window fc' _ _).trans paced, rfl⟩

lemma commitSend_window (sfc : StreamFlowControl) (bytes nowUs : Nat) :
    (commitSend fc sfc bytes nowUs).1.window = fc.window ∧ (commitSend fc sfc bytes nowUs).2.window = sfc.window := by
  unfold commitSend
  split
  · exact reserveSend_window fc sfc bytes nowUs
  · exact ⟨spend_window fc _ _, rfl⟩

end

section
variable (h : Sends streamId x y)
include h

lemma Sends.allowance {requested allowed : Nat}
    (call : y.allowance env requested = (allowed, z)) : Sends streamId x z := by
  obtain ⟨-, rfl⟩ := Prod.mk.inj call
  exact h.silent rfl (sendAllowance_window y.io.fc y.s.fc requested _) rfl

lemma Sends.commit (bytes : Nat) : Sends streamId x (y.commit env bytes) :=
  have windows := commitSend_window y.io.fc y.s.fc bytes (y.io.nowUs env)
  h.silent rfl windows.1 windows.2

lemma Sends.flush (call : y.flush env = (rc, z)) : Sends streamId x z := by
  obtain ⟨-, rfl⟩ := Prod.mk.inj call
  exact h.silent rfl rfl rfl

lemma Sends.fetch {source : BodySource} {sent allowed : Nat} {data : Option Bytes} {io : Io}
    (call : source.fetch env sent allowed y.io = (data, io)) : Sends streamId x { y with io } := by
  cases source <;> cases call <;> exact h.silent rfl rfl rfl

lemma Sends.park {pacing : Bool} : Sends streamId x (y.park env pacing).2 := by
  unfold Sender.park
  split <;> rename_i call
  · exact h.flush call
  · exact (h.flush call).silent rfl rfl rfl

lemma headerBlockLoop_sends {type : UInt8} {rest : Bytes}
    (header : type = Frame.headers ∨ type = Frame.continuation) : Sends streamId x (y.headerBlockLoop env streamId maxFrame fuel type flags rest).2 := by
  induction fuel generalizing type flags rest y with
  | zero => exact h
  | succ fuel ih =>
    have kind (flags : UInt8) (chunk : Bytes) : ofResponse ⟨type, flags, streamId, chunk⟩ = true := by
      rcases header with rfl | rfl <;> rfl
    rw [headerBlockLoop]
    split <;> rename_i call
    · exact h.write rfl (kind _ _) call
    · split
      · exact h.write rfl (kind _ _) call
      · exact ih (h.write rfl (kind _ _) call) (.inr rfl)

lemma sendHeaderBlock_sends {block : Bytes} :
    Sends streamId x (y.sendHeaderBlock env streamId block maxFrame flags).2 := headerBlockLoop_sends h (.inl rfl)

lemma sendGrpcTrailers_sends : Sends streamId x (y.sendGrpcTrailers env streamId res maxFrame).2 := by
  unfold sendGrpcTrailers
  split
  · exact h
  · exact sendHeaderBlock_sends h

lemma sendGrpcTrailersOnly_sends : Sends streamId x (y.sendGrpcTrailersOnly env streamId res maxFrame).2 := by
  unfold sendGrpcTrailersOnly
  split
  · exact sendHeaderBlock_sends h
  · exact h

end

lemma Sends.of_call {α : Type} {a : α} {result : α × Sender} (h : Sends streamId x result.2) (call : result = (a, z)) :
    Sends streamId x z := by
  rw [call] at h
  exact h

section
variable (h : Sends streamId x y)
include h

lemma sendResponseHeaders_sends {grpcMode : Bool} : Sends streamId x (y.sendResponseHeaders env streamId res grpcMode maxFrame flags).2 := by
  unfold sendResponseHeaders
  split
  · exact h
  split
  · exact h
  · split <;> rename_i call
    · exact (sendHeaderBlock_sends h).of_call call
    · exact ((sendHeaderBlock_sends h).of_call call).silent rfl rfl rfl

lemma bodyLoop_sends {source : BodySource} {lastFlag : UInt8} :
    Sends streamId x (y.bodyLoop env streamId maxFrame bodyLen source lastFlag fuel).2 := by
  induction fuel generalizing y with
  | zero => exact h
  | succ fuel ih =>
    rw [bodyLoop]
    dsimp only
    split
    · exact h
    split
    · exact h.park
    split <;> rename_i allowed
    · exact (h.allowance allowed).park
    split <;> rename_i fetched
    · exact (h.allowance allowed).fetch fetched
    split <;> rename_i written
    · exact ((h.allowance allowed).fetch fetched).write rfl rfl written
    have sent := ((h.allowance allowed).fetch fetched).write rfl rfl written
    split
    · refine Sends.park ?_
      exact (sent.commit _).silent rfl rfl rfl
    · exact ih ((sent.commit _).silent rfl rfl rfl)

lemma seqLayout_sends : Sends streamId x (y.seqLayout env maxFrame bodyLen).2 := by
  have layout : ∀ {payload z}, y.seqChunkPayload env maxFrame = (payload, z) → Sends streamId x z := by
    rintro payload z ⟨⟩
    exact h.allowance rfl
  unfold seqLayout
  split
  · exact h
  split <;> rename_i call
  · split
    · exact (layout call).park
    · exact (layout call).silent rfl rfl rfl
  · exact (layout call).silent rfl rfl rfl

lemma seqCredit_sends {chunkLen : Nat} : Sends streamId x (y.seqCredit env chunkLen).2 := by
  unfold seqCredit
  split
  · exact h.park
  dsimp only
  split
  · exact (h.allowance rfl).park
  · exact h.allowance rfl

lemma seqWrite_sends {chunk : Bytes} : Sends streamId x (y.seqWrite env streamId flags chunk).2 := by
  unfold seqWrite
  split <;> rename_i written
  · exact h.write rfl rfl written
  · exact ((h.write rfl rfl written).commit _).silent rfl rfl rfl

lemma seqFileLoop_sends {file : FileBody} : Sends streamId x (y.seqFileLoop env streamId file bodyLen fuel).2 := by
  induction fuel generalizing y with
  | zero => exact h
  | succ fuel ih =>
    rw [seqFileLoop]
    split
    · dsimp only
      split <;> rename_i credit
      · exact (seqCredit_sends h).of_call credit
      split <;> rename_i fetched
      · exact ((seqCredit_sends h).of_call credit).fetch fetched
      have ready := ((seqCredit_sends h).of_call credit).fetch fetched
      split
      · exact ready
      · split <;> rename_i written
        · exact (seqWrite_sends ready).of_call written
        · exact ih ((seqWrite_sends ready).of_call written)
    · exact h.silent rfl rfl rfl

lemma seqMemoryLoop_sends {chunks : List Bytes} : Sends streamId x (y.seqMemoryLoop env streamId chunks).2 := by
  induction chunks generalizing y with
  | nil => exact h.silent rfl rfl rfl
  | cons chunk rest ih =>
    rw [seqMemoryLoop]
    split <;> rename_i credit
    · exact (seqCredit_sends h).of_call credit
    split <;> rename_i written
    · exact (seqWrite_sends ((seqCredit_sends h).of_call credit)).of_call written
    · exact ih ((seqWrite_sends ((seqCredit_sends h).of_call credit)).of_call written)

lemma sendBody_sends {sequenced : Bool} : Sends streamId x (y.sendBody env sequenced streamId res maxFrame).2 := by
  unfold sendBody
  split
  · split
    · unfold sendSeqFileBody
      split
      · exact h
      · split <;> rename_i layout
        · exact (seqLayout_sends h).of_call layout
        · exact seqFileLoop_sends ((seqLayout_sends h).of_call layout)
    · unfold sendSeqMemoryBody
      split <;> rename_i layout
      · exact (seqLayout_sends h).of_call layout
      · split
        · exact (seqLayout_sends h).of_call layout
        · exact seqMemoryLoop_sends ((seqLayout_sends h).of_call layout)
  · split <;> rename_i body
    · exact (bodyLoop_sends h).of_call body
    · exact ((bodyLoop_sends h).of_call body).silent rfl rfl rfl

end

lemma sendResponse_sends {sequenced isHead : Bool} :
    Sends streamId x (x.sendResponse env sequenced peerMaxFrameSize isHead streamId res).2 := by
  unfold sendResponse
  dsimp only
  generalize (if responseIsGrpc res = true then List.length res.body else res.bodyLen) = bodyLen
  split
  · exact sendGrpcTrailersOnly_sends (.refl x)
  split <;> rename_i headers
  · exact (sendResponseHeaders_sends (.refl x)).of_call headers
  have ready := (sendResponseHeaders_sends (.refl x)).of_call headers
  split
  · split
    · exact sendGrpcTrailers_sends ready
    · exact ready
  split
  · split <;> rename_i body
    · exact (bodyLoop_sends ready).of_call body
    · exact sendGrpcTrailers_sends ((bodyLoop_sends ready).of_call body)
  · exact sendBody_sends ready

end Sender

/-- What a stream keeps through everything but its header block, its hook and its handler. -/
structure Stream.Evolves (s s' : Stream) : Prop where
  streamId : s'.streamId = s.streamId
  req : s.req = none → s'.req = none
  response : s.response.isSome → s'.response.isSome
  hookOffered : s'.hookOffered = s.hookOffered
  hookCtx : s'.hookCtx = s.hookCtx

lemma Stream.Evolves.refl (s : Stream) : s.Evolves s := ⟨rfl, id, id, rfl, rfl⟩

lemma Stream.Evolves.trans {s₁ s₂ s₃ : Stream} (h₁ : s₁.Evolves s₂) (h₂ : s₂.Evolves s₃) : s₁.Evolves s₃ :=
  ⟨h₂.streamId.trans h₁.streamId, h₂.req ∘ h₁.req, h₂.response ∘ h₁.response, h₂.hookOffered.trans h₁.hookOffered,
    h₂.hookCtx.trans h₁.hookCtx⟩

def Conn.core (hc : Conn) : List Stream × Nat × Nat × Cont × HpackTable × Bucket × Bool :=
  (hc.streams, hc.activeStreams, hc.lastProcessedStreamId, hc.cont, hc.table, hc.outRst, hc.faulted)

inductive Act (env : Env) : Conn → Conn → Prop where
  | io {hc hc' : Conn} (core : hc'.core = hc.core) (connected : hc'.connected = true → hc.connected = true)
      (trace : Extends Event.Quiet hc.trace hc'.trace) : Act env hc hc'
  | streams {hc : Conn} {streams : List Stream} (evolved : List.Forall₂ Stream.Evolves hc.streams streams) :
      Act env hc { hc with streams }
  | remove (hc : Conn) (streamId : Nat) : Act env hc (hc.remove env streamId)
  | reset (hc : Conn) (streamId : Nat) (code : ErrorCode) (granted : (hc.sendRstStream env streamId code).1 ≠ .exhausted) :
      Act env hc (hc.sendRstStream env streamId code).2
  | reject (hc : Conn) (streamId : Nat) (code : ErrorCode) : Act env hc (hc.reject env streamId code)

def Acts (env : Env) : Conn → Conn → Prop := Relation.ReflTransGen (Act env)

lemma replaceStream_evolved {s s' : Stream} {streams : List Stream}
    (found : streams.find? (fun t => t.streamId == id) = some s) (evolves : s.Evolves s') :
    List.Forall₂ Stream.Evolves streams (replaceStream s' streams) := by
  induction streams with
  | nil => simp at found
  | cons t rest ih =>
    have here : s.streamId = id := by simpa using List.find?_some found
    rw [replaceStream, evolves.streamId, here]
    by_cases same : t.streamId = id
    · obtain rfl : t = s := by simpa [same] using found
      rw [if_pos same]
      exact .cons evolves (List.forall₂_same.mpr fun t _ => .refl t)
    · rw [if_neg same]
      exact .cons (.refl t) (ih (by simpa [same] using found))

namespace Acts

variable {hc hc₁ hc₂ : Conn} {s s' : Stream}

variable {f : Frame} {code : ErrorCode}

lemma refl (hc : Conn) : Acts env hc hc := Relation.ReflTransGen.refl

lemma trans (h₁ : Acts env hc hc₁) (h₂ : Acts env hc₁ hc₂) : Acts env hc hc₂ := Relation.ReflTransGen.trans h₁ h₂

section
variable (h : Acts env hc hc₁)
include h

lemma act (act : Act env hc₁ hc₂) : Acts env hc hc₂ := Relation.ReflTransGen.tail h act

lemma io (core : hc₂.core = hc₁.core) (connected : hc₂.connected = true → hc₁.connected = true)
    (trace : Extends Event.Quiet hc₁.trace hc₂.trace) : Acts env hc hc₂ := h.act (.io core connected trace)

lemma silent (core : hc₂.core = hc₁.core) (connected : hc₂.connected = hc₁.connected)
    (trace : hc₂.trace = hc₁.trace) : Acts env hc hc₂ :=
  h.io core (connected ▸ id) (trace ▸ Extends.refl _ _)

lemma log {e : Event} (quiet : e.Quiet) : Acts env hc (hc₁.log e) :=
  h.io rfl id (Extends.snoc _ quiet)

lemma tick : Acts env hc hc₁.tick := h.silent rfl rfl rfl

lemma setFc {fc : Http2.FlowControl} : Acts env hc (hc₁.setFc fc) := h.silent rfl rfl rfl

lemma close : Acts env hc hc₁.close := h.io rfl (fun open_ => by cases open_) (Extends.refl _ _)

end

lemma of_call {α : Type} {a : α} {result : α × Conn} (h : Acts env hc result.2) (call : result = (a, hc₁)) :
    Acts env hc hc₁ := by
  rw [call] at h
  exact h

section
variable (h : Acts env hc hc₁) {last increment nowUs : Nat}
include h

lemma write (type : f.type ≠ rstStream) : Acts env hc (hc₁.write env f).2 :=
  h.io rfl id (hc₁.toIo.writeFrame_quiet env type)

lemma sendGoaway : Acts env hc (hc₁.sendGoaway env last code).2 :=
  h.write (show Frame.goaway ≠ rstStream by decide)

lemma abortAt : Acts env hc (hc₁.abortAt env last code) :=
  h.sendGoaway.close

lemma abort : Acts env hc (hc₁.abort env code) := h.abortAt

lemma put (found : hc₁.find streamId = some s) (evolves : s.Evolves s') :
    Acts env hc (hc₁.put s') := h.act (.streams (replaceStream_evolved found evolves))

lemma putProgress {progress : Progress} (found : hc₁.find streamId = some s) :
    Acts env hc (hc₁.put { s with progress }) := h.put found ⟨rfl, fun none => none, fun some => some, rfl, rfl⟩

lemma remove : Acts env hc (hc₁.remove env streamId) := h.act (.remove hc₁ streamId)

lemma reset (granted : (hc₁.sendRstStream env streamId code).1 ≠ .exhausted) :
    Acts env hc (hc₁.sendRstStream env streamId code).2 := h.act (.reset hc₁ streamId code granted)

lemma reject : Acts env hc (hc₁.reject env streamId code) :=
  h.act (.reject hc₁ streamId code)

lemma rejectContentLength : Acts env hc (hc₁.rejectContentLength env streamId) :=
  h.reject.remove

lemma sendResponse {res : Response} : Acts env hc (hc₁.sendResponse env streamId res).2 := by
  unfold Conn.sendResponse
  split
  · exact h
  rename_i s found
  let result := Sender.sendResponse env hc₁.sequencedData hc₁.peerMaxFrameSize s.isHead streamId res ⟨hc₁.toIo, s.progress⟩
  have sent : Acts env hc { hc₁ with toIo := result.2.io } := h.io rfl id
    (Sender.sendResponse_sends.trace.mono fun _ => Event.OfResponse.quiet)
  exact sent.putProgress found

lemma writeWindowUpdate : Acts env hc (hc₁.writeWindowUpdate env streamId increment).2 :=
  h.write (show windowUpdate ≠ rstStream by decide)

lemma refillStream : Acts env hc (hc₁.refillStream env streamId nowUs) := by
  unfold Conn.refillStream
  split
  · exact h
  rename_i s found
  dsimp only
  split
  · exact h.putProgress found
  · exact (h.putProgress found).writeWindowUpdate

lemma autoWindowUpdate : Acts env hc (hc₁.autoWindowUpdate env streamId) := by
  unfold Conn.autoWindowUpdate
  dsimp only
  split
  · exact h.setFc.tick.refillStream
  · split <;> rename_i call
    · exact h.setFc.tick.writeWindowUpdate.of_call call
    · exact (h.setFc.tick.writeWindowUpdate.of_call call).refillStream

lemma sendPing : Acts env hc (hc₁.sendPing env) := by
  have written := h.tick.write (f := ⟨Frame.ping, 0, 0, putU64 (hc₁.nowUs env)⟩) (show Frame.ping ≠ rstStream by decide)
  unfold Conn.sendPing
  dsimp only
  split <;> rename_i call
  · exact written.of_call call
  · exact (written.of_call call).silent rfl rfl rfl

lemma returnCredit {data : Bool} : Acts env hc (hc₁.returnCredit env data streamId) := by
  unfold Conn.returnCredit
  split
  · exact h.autoWindowUpdate
  · exact h

lemma hookEndStream : Acts env hc (hc₁.hookEndStream env s) := by
  unfold Conn.hookEndStream
  split
  · exact (h.log (e := .onData s.streamId [] true) trivial).tick
  · exact h

end

lemma shift_evolves (s : Stream) (delta : Int) :
    s.Evolves { s with progress := { s.progress with fc := s.progress.fc.adjustSendWindow delta } } :=
  ⟨rfl, fun none => none, fun some => some, rfl, rfl⟩

section
variable (h : Acts env hc hc₁) {streams : List Stream} {payload : Bytes}
include h

lemma applySetting {id value : Nat} : Acts env hc (hc₁.applySetting id value).2 := by
  unfold Conn.applySetting
  split
  · exact h
  · split
    · exact h
    · have shifted (delta : Int) := h.act (.streams (List.forall₂_map_right_iff.mpr (List.forall₂_same.mpr fun s _ =>
        shift_evolves s delta)))
      exact (shifted _).silent rfl rfl rfl
  · split
    · exact h
    · exact h.silent rfl rfl rfl
  · exact h

lemma settingsLoop : Acts env hc (hc₁.settingsLoop payload).2 := by
  fun_induction Conn.settingsLoop payload hc₁ with
  | case1 i₀ i₁ v₀ v₁ v₂ v₃ rest hc₁ hc₂ call => exact h.applySetting.of_call call
  | case2 i₀ i₁ v₀ v₁ v₂ v₃ rest hc₁ hc₂ call ih => exact ih (h.applySetting.of_call call)
  | case3 => exact h

lemma settingsCase : Acts env hc (hc₁.settingsCase env f) := by
  have handled : Acts env hc (hc₁.handleSettings f.payload (f.has ackFlag)).2 := by
    unfold handleSettings
    split
    · exact h
    · split
      · exact h
      · exact h.settingsLoop
  have plain : Frame.settings ≠ rstStream := by decide
  unfold Conn.settingsCase
  dsimp only
  split <;> rename_i call
  · exact (handled.of_call call).abort
  split
  · exact handled.of_call call
  · split <;> rename_i written
    · exact ((handled.of_call call).write plain).of_call written
    · exact (((handled.of_call call).write plain).of_call written).close

lemma rstStreamCase : Acts env hc (hc₁.rstStreamCase env f) := by
  have charged : Acts env hc (hc₁.consumeRstBudget env).2 := h.silent rfl rfl rfl
  unfold Conn.rstStreamCase
  split
  · exact h.abort
  split
  · exact h.abort
  split <;> rename_i call
  · exact (charged.of_call call).abort
  dsimp only
  split
  · exact ((charged.of_call call).log (e := .onCancel f.streamId) trivial).remove
  · exact (charged.of_call call).remove

lemma pingCase : Acts env hc (hc₁.pingCase env f) := by
  have charged : Acts env hc (hc₁.consumePingBudget env).2 := h.silent rfl rfl rfl
  have plain : Frame.ping ≠ rstStream := by decide
  unfold Conn.pingCase
  split
  · exact h.abort
  split
  · split
    · have sampled : Acts env hc { hc₁ with pingOutstanding := false } := h.silent rfl rfl rfl
      unfold pingAcknowledged
      dsimp only
      split
      · exact sampled.setFc.tick
      · exact sampled.setFc.tick.sendPing
    · exact h
  split <;> rename_i call
  · exact (charged.of_call call).abort
  · split <;> rename_i written
    · exact ((charged.of_call call).write plain).of_call written
    · exact (((charged.of_call call).write plain).of_call written).close

lemma handleWindowUpdate : Acts env hc (hc₁.handleWindowUpdate streamId payload).2 := by
  unfold Conn.handleWindowUpdate
  dsimp only
  split
  · exact h
  split
  · split
    · exact h
    · exact h.setFc
  split
  · exact h
  rename_i s found
  split
  · exact h
  · exact h.putProgress found

lemma windowUpdateCase : Acts env hc (hc₁.windowUpdateCase env f) := by
  unfold Conn.windowUpdateCase
  split
  · exact h.abort
  split <;> rename_i call
  · exact (h.handleWindowUpdate.of_call call).abort
  · exact h.handleWindowUpdate.of_call call

lemma serve {res : Response} : Acts env hc (hc₁.serve env streamId res).2 := by
  unfold Conn.serve
  split <;> rename_i call
  · exact h.sendResponse.of_call call
  · exact (h.sendResponse.of_call call).remove
  · exact (h.sendResponse.of_call call).remove

lemma resumeResponses : Acts env hc (hc₁.resumeResponses env streams).2 := by
  induction streams generalizing hc₁ with
  | nil => exact h
  | cons s rest ih =>
    rw [resumeResponses]
    split
    · exact ih h
    · split <;> rename_i call
      · exact h.serve.of_call call
      · exact ih (h.serve.of_call call)

lemma pollHooks : Acts env hc (hc₁.pollHooks env streams) := by
  induction streams generalizing hc₁ with
  | nil => exact h
  | cons s rest ih =>
    have polled := (h.log (e := .onPoll s.streamId) trivial).tick
    rw [pollHooks]
    split
    · dsimp only
      split
      · exact ih polled.remove
      · exact ih polled
    · exact ih h

lemma asyncDrain {queue : List (Nat × Response)} : Acts env hc (hc₁.asyncDrain env queue).2 := by
  induction queue generalizing hc₁ with
  | nil => exact h
  | cons entry rest ih =>
    rw [asyncDrain]
    split
    · exact ih h
    rename_i s found
    have stored (res : Response) : Acts env hc (hc₁.put { s with req := none, response := some res }) :=
      h.put found ⟨rfl, fun _ => rfl, fun _ => rfl, rfl, rfl⟩
    dsimp only
    split <;> rename_i call
    · exact (stored _).serve.of_call call
    · exact ih ((stored _).serve.of_call call)

lemma housekeeping {input : Input} : Acts env hc (hc₁.housekeeping env input) := by
  have ready : Acts env hc { hc₁ with pacingWaiting := false } := h.silent rfl rfl rfl
  unfold Conn.housekeeping
  split <;> rename_i call
  · exact (ready.resumeResponses.of_call call).close
  have resumed := ready.resumeResponses.of_call call
  dsimp only
  split
  · split <;> rename_i drained
    · exact resumed.pollHooks.asyncDrain.of_call drained
    · exact (resumed.pollHooks.asyncDrain.of_call drained).close
  · exact resumed.pollHooks

end

end Acts

end Cwist.H2
