import Cwist.Http2.Conn

/-!
# HEADERS and CONTINUATION

How a header block is collected over frames, when it opens a stream, and how a request that is complete gets to a hook or
to the handler.
-/

namespace Cwist.H2

open Http (Request Response)

def maxHeaderBlockSize : Nat := 65536

def maxContinuations : Nat := 32

def Stream.offered (s : Stream) : Option Nat → Stream
  | none => { s with hookOffered := true }
  | some ctx => { s with hookOffered := true, hookCtx := some ctx, req := none }

namespace Conn

variable (env : Env)

section

variable (hc : Conn) (s : Stream)

/-- A request is offered to the hook once. A hook that takes it owns it. -/
def hookOffer : Stream × Conn :=
  match env.onHeaders, s.req with
  | some onHeaders, some req =>
    if s.hookOffered then (s, hc)
    else
      let s' := s.offered (onHeaders hc.ticks req)
      (s', ((hc.log (.onHeaders s.streamId req hc.cont.expecting)).tick).put s')
  | _, _ => (s, hc)

def hookEndStream : Conn :=
  if env.onData.isSome then (hc.log (.onData s.streamId [] true)).tick else hc

def callHandler (req : Request) : Outcome × Conn :=
  match env.handler hc.ticks req with
  | .unavailable => (.unavailable, hc.tick)
  | outcome => (outcome, (hc.log (.handler s.streamId req hc.cont.expecting)).tick)

end

def returnCredit (data : Bool) (hc : Conn) (streamId : Nat) : Conn :=
  if data then hc.autoWindowUpdate env streamId else hc

def dispatch (data : Bool) (hc : Conn) (s : Stream) (req : Request) : Conn :=
  match hc.callHandler env s req with
  | (.unavailable, hc) => (hc.returnCredit env data s.streamId).remove env s.streamId
  | (.deferred, hc) => (hc.put { s with req := none }).returnCredit env data s.streamId
  | (.response res, hc) =>
    let res := res.injectAltSvc env.http3Port
    match (hc.put { s with response := some res }).sendResponse env s.streamId res with
    | (.parked, hc) => hc.returnCredit env data s.streamId
    | (.done, hc) => (hc.returnCredit env data s.streamId).remove env s.streamId
    | (.failed, hc) => hc.close.remove env s.streamId

def completeRequest (endStream : Bool) (hc : Conn) (s : Stream) : Conn :=
  if endStream ∧ s.req.isSome ∧ s.contentLengthMatches = some false then hc.rejectContentLength env s.streamId
  else
    let (s, hc) := hc.hookOffer env s
    if s.hookCtx.isSome then if endStream then hc.hookEndStream env s else hc
    else
      match s.req with
      | some req => if endStream then hc.dispatch env false s req else hc
      | none => hc

end Conn

/-- `handled`: the stream was reset or refused. `calm`: the connection ends with ENHANCE_YOUR_CALM. -/
inductive HdrRc where
  | ok | handled | protocolError | calm
  deriving DecidableEq, Repr

inductive Creation where
  | created (s : Stream)
  | refused
  | goawaySent

def Stream.fresh (streamId peerInitialWindowSize : Nat) : Stream :=
  { Stream.create streamId peerInitialWindowSize with req := some Request.create }

namespace Conn

variable (env : Env)

def streamOpen (hc : Conn) (streamId : Nat) : Conn :=
  (hc.streamCreate streamId).put (Stream.fresh streamId hc.peerInitialWindowSize)

/-- At the limit the stream is refused, and its block is not decoded. -/
def requestStreamCreate (hc : Conn) (streamId : Nat) : Creation × Conn :=
  if hc.activeStreams ≥ maxConcurrentStreams then
    match (hc.log (.refused streamId)).sendRstStream env streamId .refusedStream with
    | (.exhausted, hc) => (.goawaySent, hc)
    | (_, hc) => (.refused, hc)
  else (.created (Stream.fresh streamId hc.peerInitialWindowSize), hc.streamOpen streamId)

def resetStream (exhausted : HdrRc) (hc : Conn) (streamId : Nat) : HdrRc × Conn :=
  let (rc, hc) := hc.sendRstStream env streamId .protocolError
  (if rc = .exhausted then exhausted else .handled, hc.remove env streamId)

def decodeStreamHeaders (hc : Conn) (s : Stream) (block : Bytes) (isRequest : Bool) : HdrRc × Conn :=
  let (rc, bs) := decodeHeaderBlock hc.table s.toRequestHead block isRequest
  let hc := (hc.setTable bs.table).put { s with toRequestHead := bs.target }
  match rc with
  | .ok => (.ok, hc.log (.decoded s.streamId))
  | .streamError => hc.resetStream env .protocolError s.streamId
  | .compressionError => (.protocolError, hc)
  | .nullRequest => (.protocolError, hc.fault)

def decodeBlock (hc : Conn) (streamId : Nat) (block : Bytes) : HdrRc × Conn :=
  match hc.find streamId with
  | some s => if block = [] then (.ok, hc) else hc.decodeStreamHeaders env s block false
  | none =>
    match hc.requestStreamCreate env streamId with
    | (.goawaySent, hc) => (.calm, hc)
    | (.refused, hc) => (.handled, hc)
    | (.created s, hc) =>
      if block = [] then hc.resetStream env .calm streamId else hc.decodeStreamHeaders env s block true

def beginHeaders (hc : Conn) (streamId : Nat) (block : Bytes) (endHeaders endStream : Bool) : HdrRc × Conn :=
  if hc.cont.expecting then (.protocolError, hc)
  else if (hc.find streamId).isNone ∧ streamId ≤ hc.lastProcessedStreamId then (.protocolError, hc)
  else if endHeaders then hc.decodeBlock env streamId block
  else if block.length > maxHeaderBlockSize then (.calm, hc)
  else if (hc.find streamId).isNone ∧ hc.activeStreams ≥ maxConcurrentStreams then
    match (hc.log (.refused streamId)).sendRstStream env streamId .refusedStream with
    | (.exhausted, hc) => (.calm, hc)
    | (_, hc) => (.handled, hc.setCont ⟨[], streamId, true, endStream, true, 0⟩)
  else (.ok, hc.setCont ⟨block, streamId, true, endStream, false, 0⟩)

def handleContinuation (hc : Conn) (streamId : Nat) (payload : Bytes) (endHeaders : Bool) : HdrRc × Conn :=
  if !hc.cont.expecting ∨ hc.cont.streamId ≠ streamId then (.protocolError, hc)
  else
    let hc := hc.setCont { hc.cont with frameCount := hc.cont.frameCount + 1 }
    if hc.cont.frameCount > maxContinuations then (.calm, hc)
    else if hc.cont.buf.length + payload.length > maxHeaderBlockSize then (.calm, hc)
    else if hc.cont.discard then
      (.ok, if endHeaders then
          hc.setCont { hc.cont with expecting := false, discard := false, streamId := 0, frameCount := 0 }
        else hc)
    else
      let hc := hc.setCont { hc.cont with buf := hc.cont.buf ++ payload }
      if endHeaders then
        let (rc, hc) := hc.decodeBlock env streamId hc.cont.buf
        (rc, hc.setCont { hc.cont with expecting := false, buf := [], streamId := 0, frameCount := 0 })
      else (.ok, hc)

def afterHeaders (endStream : Bool) (hc : Conn) (streamId : Nat) : Conn :=
  match hc.find streamId with
  | none => hc
  | some s =>
    if s.hookCtx.isSome then if endStream then hc.hookEndStream env s else hc
    else hc.completeRequest env endStream s

def headersBlock (hc : Conn) (streamId : Nat) (block : Bytes) (endHeaders endStream : Bool) : Conn :=
  let hc := if endStream then hc.log (.endStream streamId) else hc
  match hc.beginHeaders env streamId block endHeaders endStream with
  | (.protocolError, hc) => hc.abort env .protocolError
  | (.calm, hc) => hc.abort env .enhanceYourCalm
  | (.handled, hc) => hc.setLast (max hc.lastProcessedStreamId streamId)
  | (.ok, hc) => (hc.setLast (max hc.lastProcessedStreamId streamId)).afterHeaders env endStream streamId

end Conn

def Frame.headerFragment (f : Frame) : Option Bytes := do
  let block ←
    if f.has paddedFlag then
      match f.payload with
      | [] => none
      | pad :: rest => if pad.toNat ≥ f.payload.length then none else some (rest.take (rest.length - pad.toNat))
    else some f.payload
  if f.has priorityFlag then if block.length < 5 then none else some (block.drop 5) else some block

namespace Conn

variable (env : Env)

def headersCase (hc : Conn) (f : Frame) : Conn :=
  if f.streamId = 0 ∨ f.streamId % 2 = 0 then hc.abortAt env 0 .protocolError
  else
    match f.headerFragment with
    | none => hc.abort env .protocolError
    | some block => hc.headersBlock env f.streamId block f.endHeaders f.endStream

def afterContinuation (hc : Conn) (f : Frame) : Conn :=
  if f.endStream then hc.abort env .protocolError
  else if f.endHeaders ∧ hc.cont.endStream then
    match hc.find f.streamId with
    | none => hc
    | some s => hc.completeRequest env true s
  else hc

def continuationCase (hc : Conn) (f : Frame) : Conn :=
  if f.streamId = 0 ∨ !hc.cont.expecting ∨ hc.cont.streamId ≠ f.streamId then hc.abort env .protocolError
  else
    match hc.handleContinuation env f.streamId f.payload f.endHeaders with
    | (.protocolError, hc) => hc.abort env .protocolError
    | (.calm, hc) => hc.abort env .enhanceYourCalm
    | (.handled, hc) => hc
    | (.ok, hc) => hc.afterContinuation env f

end Conn

end Cwist.H2
