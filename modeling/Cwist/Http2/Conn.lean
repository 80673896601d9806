import Cwist.Hpack.Block
import Cwist.Http2.Sender
import Cwist.Seq.Assembler

/-!
# Connections

`h2_conn` with its stream table and abuse budgets, and the operations that every frame handler uses.
-/

namespace Cwist.H2

open Http (Request Response)
open Http2 (FlowControl StreamFlowControl)

def maxConcurrentStreams : Nat := 100

structure Stream extends RequestHead where
  streamId : Nat
  progress : Progress
  bodyAssembler : Option Seq.Assembler := none
  hookCtx : Option Nat := none
  hookOffered : Bool := false
  response : Option Response := none
  receivedContent : Nat := 0

def Stream.create (streamId peerInitialWindowSize : Nat) : Stream where
  req := none
  hasContentLength := false
  streamId := streamId
  progress :=
    { fc := { StreamFlowControl.init streamId Http2.maxWindow Http2.maxWindow with sendWindow := peerInitialWindowSize } }

def replaceStream (s : Stream) : List Stream → List Stream
  | [] => []
  | t :: rest => if t.streamId = s.streamId then s :: rest else t :: replaceStream s rest

structure Cont where
  buf : Bytes := []
  streamId : Nat := 0
  expecting : Bool := false
  endStream : Bool := false
  discard : Bool := false
  frameCount : Nat := 0
  deriving DecidableEq

structure Bucket where
  budget : Nat
  lastRefillMs : Nat
  credited : Nat := 0
  deriving DecidableEq

namespace Bucket

def refill (burst rate nowMs : Nat) (b : Bucket) : Bucket :=
  let elapsed := nowMs - b.lastRefillMs
  let refilled (budget : Nat) : Bucket := ⟨budget, nowMs, b.credited + (budget - b.budget)⟩
  if elapsed ≥ 1000 then refilled burst
  else
    let add := elapsed * rate / 1000 % 2 ^ 32
    if add > 0 then refilled (if (b.budget + add) % 2 ^ 32 > burst then burst else (b.budget + add) % 2 ^ 32)
    else b

def consume (burst rate nowMs : Nat) (b : Bucket) : Bool × Bucket :=
  let b := b.refill burst rate nowMs
  if b.budget = 0 then (false, b) else (true, { b with budget := b.budget - 1 })

end Bucket

structure Conn extends Io where
  connected : Bool := true
  faulted : Bool := false
  streams : List Stream := []
  activeStreams : Nat := 0
  lastProcessedStreamId : Nat := 0
  cont : Cont := {}
  table : HpackTable := .init
  peerMaxFrameSize : Nat := Frame.maxSize
  peerInitialWindowSize : Nat := 65535
  sequencedData : Bool
  pingSentUs : Nat := 0
  pingPayload : Bytes := List.replicate 8 0
  pingOutstanding : Bool := false
  rst : Bucket
  ping : Bucket
  outRst : Bucket

namespace Conn

variable (env : Env)

section

variable (hc : Conn)

def log (e : Event) : Conn := { hc with toIo := hc.toIo.log e }

def tick : Conn := { hc with toIo := hc.toIo.tick }

def setFc (fc : FlowControl) : Conn := { hc with fc }

def setTable (table : HpackTable) : Conn := { hc with table }

def setCont (cont : Cont) : Conn := { hc with cont }

def setLast (streamId : Nat) : Conn := { hc with lastProcessedStreamId := streamId }

def close : Conn := { hc with connected := false }

def fault : Conn := { hc with faulted := true, connected := false }

def write (f : Frame) : Bool × Conn :=
  let (ok, toIo) := hc.toIo.writeFrame env f
  (ok, { hc with toIo })

def sendGoaway (lastStreamId : Nat) (code : ErrorCode) : Bool × Conn :=
  hc.write env ⟨Frame.goaway, 0, 0, putU31 lastStreamId ++ putU32 code.toNat⟩

def abortAt (lastStreamId : Nat) (code : ErrorCode) : Conn := (hc.sendGoaway env lastStreamId code).2.close

def abort (code : ErrorCode) : Conn := hc.abortAt env hc.lastProcessedStreamId code

def consumeRstBudget : Bool × Conn :=
  let charged := hc.rst.consume env.rstBurst env.rstRate (hc.nowMs env)
  (charged.1, { hc with rst := charged.2 }.tick)

def consumeOutRstBudget : Bool × Conn :=
  let charged := hc.outRst.consume env.rstBurst env.rstRate (hc.nowMs env)
  (charged.1, { hc with outRst := charged.2 }.tick)

def consumePingBudget : Bool × Conn :=
  let charged := hc.ping.consume 100 50 (hc.nowMs env)
  (charged.1, { hc with ping := charged.2 }.tick)

end

inductive RstRc where
  | sent | failed | exhausted
  deriving DecidableEq, Repr

section

variable (hc : Conn)

def writeRst (streamId : Nat) (code : ErrorCode) : Bool × Conn :=
  hc.write env ⟨Frame.rstStream, 0, streamId, putU32 code.toNat⟩

def sendRstStream (streamId : Nat) (code : ErrorCode) : RstRc × Conn :=
  match hc.consumeOutRstBudget env with
  | (false, hc) =>
    let hc := hc.log (.exhausted streamId)
    (.exhausted, (hc.sendGoaway env hc.lastProcessedStreamId .enhanceYourCalm).2)
  | (true, hc) =>
    let (ok, hc) := hc.writeRst env streamId code
    (if ok then .sent else .failed, hc)

def find (streamId : Nat) : Option Stream := hc.streams.find? fun s => s.streamId == streamId

def put (s : Stream) : Conn := { hc with streams := replaceStream s hc.streams }

def streamCreate (streamId : Nat) : Conn :=
  let s := Stream.create streamId hc.peerInitialWindowSize
  { hc with streams := s :: hc.streams, activeStreams := hc.activeStreams + 1 }.log (.created streamId)

def remove (streamId : Nat) : Conn :=
  match hc.find streamId with
  | none => hc
  | some s =>
    let hc := { hc with
      streams := hc.streams.eraseP fun s => s.streamId == streamId
      activeStreams := hc.activeStreams - 1 }
    if s.hookCtx.isSome ∧ env.onClose then hc.log (.onClose streamId) else hc

def reject (streamId : Nat) (code : ErrorCode) : Conn :=
  ((hc.log (.rejected streamId)).writeRst env streamId code).2

def rejectContentLength (streamId : Nat) : Conn := (hc.reject env streamId .protocolError).remove env streamId

end

end Conn

def Stream.contentLengthMatches (s : Stream) : Option Bool :=
  if s.hasContentLength then s.req.map fun req => req.contentLength == s.receivedContent else some true

def Stream.isHead (s : Stream) : Bool := s.req.any fun req => req.method == .head

namespace Conn

variable (env : Env)

def sendResponse (hc : Conn) (streamId : Nat) (res : Response) : SendRc × Conn :=
  match hc.find streamId with
  | none => (.failed, hc)
  | some s =>
    let (rc, x) := Sender.sendResponse env hc.sequencedData hc.peerMaxFrameSize s.isHead streamId res ⟨hc.toIo, s.progress⟩
    (rc, { hc with toIo := x.io }.put { s with progress := x.s })

def writeWindowUpdate (hc : Conn) (streamId increment : Nat) : Bool × Conn :=
  hc.write env ⟨Frame.windowUpdate, 0, streamId, putU32 increment⟩

def refillStream (hc : Conn) (streamId nowUs : Nat) : Conn :=
  match hc.find streamId with
  | none => hc
  | some s =>
    let (fc, increment) := s.progress.fc.maybeWindowUpdate hc.fc nowUs false
    let hc := hc.put { s with progress := { s.progress with fc } }
    match increment with
    | none => hc
    | some increment => (hc.writeWindowUpdate env streamId increment).2

def autoWindowUpdate (hc : Conn) (streamId : Nat) : Conn :=
  let nowUs := hc.nowUs env
  let (fc, increment) := hc.fc.maybeWindowUpdate nowUs false
  let hc := (hc.setFc fc).tick
  match increment with
  | none => hc.refillStream env streamId nowUs
  | some increment =>
    match hc.writeWindowUpdate env 0 increment with
    | (false, hc) => hc
    | (true, hc) => hc.refillStream env streamId nowUs

def sendPing (hc : Conn) : Conn :=
  let now := hc.nowUs env
  match hc.tick.write env ⟨Frame.ping, 0, 0, putU64 now⟩ with
  | (false, hc) => hc
  | (true, hc) => { hc with pingPayload := putU64 now, pingSentUs := now, pingOutstanding := true }

end Conn

end Cwist.H2
