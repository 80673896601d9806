import Cwist.Hpack.Encode
import Cwist.Http2.Wire
import Cwist.Seq.Message

/-!
# Responses on an HTTP/2 connection

The response half of `http2.c`: header blocks and their CONTINUATION frames, bodies from memory or from a file, bodies in
sequenced chunks and gRPC trailers. A response that runs out of window or of pacing tokens is parked with its
counters, and taken up where it stopped.
-/

namespace Cwist.H2
open Cwist.H2.Frame Cwist.Seq

open Http (Response FileBody headerGet)
open Http2 (FlowControl StreamFlowControl sub32 toInt32)

def sendAllowance (fc : FlowControl) (sfc : StreamFlowControl) (requested nowUs : Nat) : Nat × FlowControl :=
  if sfc.sendWindow ≤ 0 then (0, fc)
  else
    let allowed := min requested fc.sendWindow
    let allowed := if allowed > sfc.sendWindow then sfc.sendWindow.toNat else allowed
    if fc.rttInitialized ∧ allowed > 0 then
      let (paced, fc) := fc.pacingAllowance sfc allowed nowUs
      (if paced < allowed then paced else allowed, fc)
    else (allowed, fc)

def commitSend (fc : FlowControl) (sfc : StreamFlowControl) (bytes nowUs : Nat) : FlowControl × StreamFlowControl :=
  if fc.rttInitialized then fc.reserveSend sfc bytes nowUs
  else
    ({ fc with sendWindow := sub32 fc.sendWindow bytes },
     { sfc with sendWindow := toInt32 (sfc.sendWindow - bytes) })

/-- What a stream keeps of the response it is sending. -/
structure Progress where
  fc : StreamFlowControl
  responseSent : Nat := 0
  responseChunkIndex : Nat := 0
  responseTotalChunks : Nat := 0
  responseChunkPayload : Nat := 0
  responseHeadersSent : Bool := false

/-- The connection and the stream that a response is being sent on. -/
structure Sender where
  io : Io
  s : Progress

/-- `parked`: the rest waits for window or for tokens. -/
inductive SendRc where
  | done | parked | failed
  deriving DecidableEq, Repr

def SendRc.ofWrite (ok : Bool) : SendRc := if ok then .done else .failed

namespace Sender

variable (env : Env)

def allowance (x : Sender) (requested : Nat) : Nat × Sender :=
  let (allowed, fc) := sendAllowance x.io.fc x.s.fc requested (x.io.nowUs env)
  (allowed, { x with io := { x.io with fc }.tick })

def commit (x : Sender) (bytes : Nat) : Sender :=
  let (fc, sfc) := commitSend x.io.fc x.s.fc bytes (x.io.nowUs env)
  { io := { x.io with fc }.tick, s := { x.s with fc := sfc } }

def write (x : Sender) (f : Frame) : Bool × Sender :=
  let (ok, io) := x.io.writeFrame env f
  (ok, { x with io })

def flush (x : Sender) : SendRc × Sender :=
  let (ok, io) := x.io.flush env
  (.ofWrite ok, { x with io })

/-- Nothing more can be sent now; `pacing` tells that only tokens are missing. -/
def park (pacing : Bool) (x : Sender) : SendRc × Sender :=
  match x.flush env with
  | (.failed, x) => (.failed, x)
  | (_, x) => (.parked, { x with io := { x.io with pacingWaiting := x.io.pacingWaiting || pacing } })

def starved (x : Sender) : Bool := x.io.fc.sendWindow == 0 || x.s.fc.sendWindow ≤ 0

/-- The first frame is HEADERS, the others are CONTINUATION. The fuel exceeds the length of the block. -/
def headerBlockLoop (streamId maxFrame : Nat) : Nat → UInt8 → UInt8 → Bytes → Sender → Bool × Sender
  | 0, _, _, _, x => (false, x)
  | fuel + 1, type, flags, rest, x =>
    let chunk := rest.take maxFrame
    let last := chunk.length == rest.length
    let flags := if last then flags ||| endHeadersFlag else flags
    match x.write env ⟨type, flags, streamId, chunk⟩ with
    | (false, x) => (false, x)
    | (true, x) =>
      if last then (true, x)
      else headerBlockLoop streamId maxFrame fuel Frame.continuation 0 (rest.drop maxFrame) x

def sendHeaderBlock (streamId : Nat) (block : Bytes) (maxFrame : Nat) (baseFlags : UInt8) (x : Sender) : Bool × Sender :=
  x.headerBlockLoop env streamId maxFrame (block.length + 1) Frame.headers baseFlags block

end Sender

section

variable (res : Response)

def responseIsGrpc : Bool :=
  match headerGet res.headers (ascii "content-type") with
  | none => false
  | some contentType => contentType.bytes.take 16 == ascii "application/grpc"

def grpcPairs (status : String) : List (CStr × CStr) :=
  let named (name : String) (value : CStr) : CStr × CStr := (.ofBytes (ascii name), value)
  let optional (name : String) := (headerGet res.headers (ascii name)).toList.map (named name)
  named "grpc-status" ((headerGet res.headers (ascii "grpc-status")).getD (.ofBytes (ascii status))) ::
    (optional "grpc-message" ++ optional "grpc-retry-pushback-ms")

def encodeGrpcPairs (status : String) : Option Bytes :=
  match encodeHeaderPairs 1024 (grpcPairs res status) with
  | .ok block => if block = [] then none else some block
  | .error _ => none

def grpcFailed : Bool :=
  match headerGet res.headers (ascii "grpc-status") with
  | none => false
  | some status => status.bytes != ascii "0"

end

namespace Sender

variable (env : Env)

section

variable (streamId : Nat) (res : Response)

def sendGrpcTrailers (maxFrame : Nat) (x : Sender) : SendRc × Sender :=
  match encodeGrpcPairs res "0" with
  | none => (.failed, x)
  | some block =>
    let (ok, x) := x.sendHeaderBlock env streamId block maxFrame endStreamFlag
    (.ofWrite ok, x)

def sendGrpcTrailersOnly (maxFrame : Nat) (x : Sender) : SendRc × Sender :=
  match encodeResponseBlock res true, encodeGrpcPairs res "13" with
  | some block, some tail =>
    let (ok, x) := x.sendHeaderBlock env streamId (block ++ tail) maxFrame endStreamFlag
    (.ofWrite ok, x)
  | _, _ => (.failed, x)

def sendResponseHeaders (grpcMode : Bool) (maxFrame : Nat) (flags : UInt8) (x : Sender) : Bool × Sender :=
  if x.s.responseHeadersSent then (true, x)
  else
    match encodeResponseBlock res grpcMode with
    | none => (false, x)
    | some block =>
      match x.sendHeaderBlock env streamId block maxFrame flags with
      | (false, x) => (false, x)
      | (true, x) => (true, { x with s := { x.s with responseHeadersSent := true } })

end

end Sender

inductive BodySource where
  | memory (body : Bytes)
  | file (file : FileBody)

def bodySource (res : Response) : BodySource :=
  match res.fileStream, res.ptrBody with
  | some file, _ => .file file
  | none, some ptr => .memory ptr
  | none, none => .memory res.body

def BodySource.fetch (env : Env) (source : BodySource) (sent allowed : Nat) (io : Io) : Option Bytes × Io :=
  match source with
  | .memory body => (some ((body.drop sent).take allowed), io)
  | .file stream =>
    let data := (stream.contents.drop (stream.offset + sent)).take (min allowed (env.reads io.ticks))
    (if data = [] then none else some data, io.tick)

namespace Sender

variable (env : Env)

def bodyLoop (streamId maxFrame bodyLen : Nat) (source : BodySource) (lastFlag : UInt8) :
    Nat → Sender → Option SendRc × Sender
  | 0, x => (some .failed, x)
  | fuel + 1, x =>
    let sent := x.s.responseSent
    if sent ≥ bodyLen then (none, x)
    else if x.starved then (x.park env false).map some id
    else
      let chunk := min (bodyLen - sent) maxFrame
      match x.allowance env chunk with
      | (0, x) => (x.park env true).map some id
      | (allowed, x) =>
        match source.fetch env sent allowed x.io with
        | (none, io) => (some .failed, { x with io })
        | (some data, io) =>
          let flags := if sent + data.length = bodyLen then lastFlag else 0
          match { x with io }.write env ⟨Frame.data, flags, streamId, data⟩ with
          | (false, x) => (some .failed, x)
          | (true, x) =>
            let x := x.commit env data.length
            let x := { x with s := { x.s with responseSent := sent + data.length } }
            if data.length < chunk ∧ x.io.fc.sendWindow > 0 ∧ x.s.fc.sendWindow > 0 then (x.park env true).map some id
            else bodyLoop streamId maxFrame bodyLen source lastFlag fuel x

def seqChunkPayload (maxFrame : Nat) (x : Sender) : Nat × Sender :=
  let maxPayload := (if maxFrame > headerSize then maxFrame - headerSize else 0) % 2 ^ 16
  let (effWindow, x) := x.allowance env (maxPayload + headerSize)
  (if effWindow ≤ headerSize then 0 else min (effWindow - headerSize) maxPayload, x)

/-- The chunks are laid out once, before the first of them is sent. -/
def seqLayout (maxFrame bodyLen : Nat) (x : Sender) : Option SendRc × Sender :=
  if x.s.responseChunkPayload ≠ 0 then (none, x)
  else
    match x.seqChunkPayload env maxFrame with
    | (0, x) =>
      if x.io.fc.sendWindow ≤ headerSize ∨ x.s.fc.sendWindow ≤ headerSize then (x.park env false).map some id
      else (some .parked, { x with io := { x.io with pacingWaiting := true } })
    | (payload, x) =>
      (none, { x with
        s := { x.s with
          responseChunkPayload := payload
          responseTotalChunks := (bodyLen + payload - 1) / payload % 2 ^ 32 } })

def seqCredit (chunkLen : Nat) (x : Sender) : Option SendRc × Sender :=
  if x.starved then (x.park env false).map some id
  else
    let (allowed, x) := x.allowance env chunkLen
    if allowed < chunkLen then
      let short := x.io.fc.sendWindow < chunkLen || x.s.fc.sendWindow < chunkLen
      (x.park env !short).map some id
    else (none, x)

def seqWrite (streamId : Nat) (flags : UInt8) (chunk : Bytes) (x : Sender) : Bool × Sender :=
  match x.write env ⟨Frame.data, flags, streamId, chunk⟩ with
  | (false, x) => (false, x)
  | (true, x) =>
    let x := x.commit env chunk.length
    (true, { x with
      s := { x.s with
        responseSent := x.s.responseSent + (chunk.length - headerSize)
        responseChunkIndex := x.s.responseChunkIndex + 1 } })

def seqFileLoop (streamId : Nat) (file : FileBody) (bodyLen : Nat) : Nat → Sender → SendRc × Sender
  | 0, x => (.failed, x)
  | fuel + 1, x =>
    if x.s.responseChunkIndex < x.s.responseTotalChunks ∧ x.s.responseSent < bodyLen then
      let plen := min (bodyLen - x.s.responseSent) x.s.responseChunkPayload
      match x.seqCredit env (headerSize + plen) with
      | (some rc, x) => (rc, x)
      | (none, x) =>
        match (BodySource.file file).fetch env x.s.responseSent plen x.io with
        | (none, io) => (.failed, { x with io })
        | (some data, io) =>
          if data.length ≠ plen then (.failed, { x with io })
          else
            let index := x.s.responseChunkIndex + 1
            let header := chunkBuildHeader index x.s.responseTotalChunks plen x.s.responseChunkPayload
            let flags := if index = x.s.responseTotalChunks then endStreamFlag else 0
            match { x with io }.seqWrite env streamId flags (header ++ data) with
            | (false, x) => (.failed, x)
            | (true, x) => seqFileLoop streamId file bodyLen fuel x
    else x.flush env

def sendSeqFileBody (streamId : Nat) (file : FileBody) (bodyLen maxFrame : Nat) (x : Sender) : SendRc × Sender :=
  if bodyLen = 0 then (.failed, x)
  else
    match x.seqLayout env maxFrame bodyLen with
    | (some rc, x) => (rc, x)
    | (none, x) => x.seqFileLoop env streamId file bodyLen (bodyLen + 1)

def seqMemoryLoop (streamId : Nat) : List Bytes → Sender → SendRc × Sender
  | [], x => x.flush env
  | chunk :: rest, x =>
    match x.seqCredit env chunk.length with
    | (some rc, x) => (rc, x)
    | (none, x) =>
      match x.seqWrite env streamId (if rest = [] then endStreamFlag else 0) chunk with
      | (false, x) => (.failed, x)
      | (true, x) => x.seqMemoryLoop streamId rest

def sendSeqMemoryBody (streamId : Nat) (body : Bytes) (bodyLen maxFrame : Nat) (x : Sender) : SendRc × Sender :=
  match x.seqLayout env maxFrame bodyLen with
  | (some rc, x) => (rc, x)
  | (none, x) =>
    match Seq.split body x.s.responseChunkPayload with
    | none => (.failed, x)
    | some chunks => x.seqMemoryLoop env streamId (chunks.drop x.s.responseChunkIndex)

def sendBody (sequenced : Bool) (streamId : Nat) (res : Response) (maxFrame : Nat) (x : Sender) : SendRc × Sender :=
  if sequenced then
    match bodySource res with
    | .file file => x.sendSeqFileBody env streamId file res.bodyLen maxFrame
    | .memory body => x.sendSeqMemoryBody env streamId body res.bodyLen maxFrame
  else
    match x.bodyLoop env streamId maxFrame res.bodyLen (bodySource res) endStreamFlag (res.bodyLen + 1) with
    | (some rc, x) => (rc, x)
    | (none, x) => x.flush env

def sendResponse (sequenced : Bool) (peerMaxFrameSize : Nat) (isHead : Bool) (streamId : Nat) (res : Response)
    (x : Sender) : SendRc × Sender :=
  let grpcMode := responseIsGrpc res
  let bodyLen := if grpcMode then res.body.length else res.bodyLen
  let noContent := statusForbidsBody res.statusCode || isHead
  let maxFrame := if peerMaxFrameSize = 0 then maxSize else peerMaxFrameSize
  if !x.s.responseHeadersSent && grpcMode && grpcFailed res then x.sendGrpcTrailersOnly env streamId res maxFrame
  else
    let flags := if (bodyLen = 0 ∨ noContent) ∧ !grpcMode then endStreamFlag else 0
    match x.sendResponseHeaders env streamId res grpcMode maxFrame flags with
    | (false, x) => (.failed, x)
    | (true, x) =>
      if bodyLen = 0 ∨ noContent then
        if grpcMode then x.sendGrpcTrailers env streamId res maxFrame else (.done, x)
      else if grpcMode then
        match x.bodyLoop env streamId maxFrame bodyLen (.memory res.body) 0 (bodyLen + 1) with
        | (some rc, x) => (rc, x)
        | (none, x) => x.sendGrpcTrailers env streamId res maxFrame
      else x.sendBody env sequenced streamId res maxFrame

end Sender

end Cwist.H2
