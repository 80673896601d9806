import Cwist.Http2.Headers

/-!
# DATA frames

What a DATA frame does to the windows, to the octet counts and to the body of its stream, up to the request it completes.
-/

namespace Cwist.H2

def maxBodySize : Nat := 10 * 1024 * 1024

def Frame.dataOctets (f : Frame) : Option Bytes :=
  if f.has paddedFlag then
    match f.payload with
    | [] => none
    | pad :: rest => if pad.toNat > rest.length then none else some (rest.take (rest.length - pad.toNat))
  else some f.payload

def assembledBody : Option Seq.Assembler → Option Bytes
  | none => some []
  | some assembler => assembler.getData

namespace Conn

variable (env : Env)

section

variable (hc : Conn)

def dataUnknown (len : Nat) : Conn :=
  match hc.fc.receive len with
  | none => hc.abort env .flowControlError
  | some fc => hc.setFc (fc.consume len)

def dataReceive (s : Stream) (len : Nat) : Except Conn (Stream × Conn) :=
  if len = 0 then .ok (s, hc)
  else
    match hc.fc.receive len with
    | none => .error (hc.abort env .flowControlError)
    | some fc =>
      match s.progress.fc.receive len with
      | none => .error ((hc.setFc fc).abort env .flowControlError)
      | some sfc =>
        let s := { s with progress := { s.progress with fc := sfc.consume len } }
        .ok (s, (hc.setFc (fc.consume len)).put s)

def dataCount (s : Stream) (len : Nat) : Except Conn (Stream × Conn) :=
  if hc.sequencedData then .ok (s, hc)
  else
    let s := { s with receivedContent := s.receivedContent + len }
    let hc := hc.put s
    if s.hasContentLength then
      match s.req with
      | none => .error hc.fault
      | some req =>
        if s.receivedContent > req.contentLength then .error (hc.rejectContentLength env s.streamId) else .ok (s, hc)
    else .ok (s, hc)

def dataHookPoll (s : Stream) (endStream : Bool) : Conn :=
  match env.onPoll with
  | some onPoll =>
    if endStream then
      let finished := onPoll hc.ticks
      let hc := ((hc.log (.onPoll s.streamId)).tick).autoWindowUpdate env s.streamId
      if finished then hc.remove env s.streamId else hc
    else hc.autoWindowUpdate env s.streamId
  | none => hc.autoWindowUpdate env s.streamId

def dataHook (s : Stream) (data : Bytes) (endStream : Bool) : Conn :=
  if endStream ∧ !hc.sequencedData ∧ s.contentLengthMatches = none then hc.fault
  else if endStream ∧ !hc.sequencedData ∧ s.contentLengthMatches = some false then hc.rejectContentLength env s.streamId
  else
    match env.onData with
    | some onData =>
      if data ≠ [] ∨ endStream then
        let refused := onData hc.ticks
        let hc := (hc.log (.onData s.streamId data endStream)).tick
        if refused then hc.remove env s.streamId else hc.dataHookPoll env s endStream
      else hc.dataHookPoll env s endStream
    | none => hc.dataHookPoll env s endStream

def dataBuffer (s : Stream) (data : Bytes) : Except Conn (Stream × Conn) :=
  if data = [] then .ok (s, hc)
  else if hc.sequencedData then
    match Seq.chunkParse data with
    | none => .ok (s, hc)
    | some chunk =>
      match (s.bodyAssembler.getD (.createLimited maxBodySize)).feed chunk with
      | (false, _) => .error ((hc.reject env s.streamId .protocolError).remove env s.streamId)
      | (true, assembler) =>
        let s := { s with bodyAssembler := some assembler }
        .ok (s, hc.put s)
  else
    match s.req with
    | none => .error hc.fault
    | some req =>
      if req.body.length + data.length > maxBodySize then
        .error ((hc.reject env s.streamId .refusedStream).remove env s.streamId)
      else
        let s := { s with req := some { req with body := req.body ++ data } }
        .ok (s, hc.put s)

def dataIncomplete (s : Stream) : Conn :=
  ((hc.reject env s.streamId .refusedStream).autoWindowUpdate env s.streamId).remove env s.streamId

def dataAssemble (s : Stream) : Except Conn (Stream × Conn) :=
  if !hc.sequencedData then .ok (s, hc)
  else
    match assembledBody s.bodyAssembler, s.req with
    | none, _ => .error (hc.dataIncomplete env s)
    | some _, none => .error hc.fault
    | some octets, some req =>
      if s.bodyAssembler.isSome ∧ req.body.length + octets.length > maxBodySize then .error (hc.dataIncomplete env s)
      else
        let req := { req with body := req.body ++ octets }
        let s := { s with req := some req, receivedContent := req.body.length }
        .ok (s, hc.put s)

def dataServe (s : Stream) : Conn :=
  match s.contentLengthMatches, s.req with
  | some false, _ => hc.rejectContentLength env s.streamId
  | some true, some req => hc.dispatch env true s req
  | _, _ => hc.fault

def dataEnd (s : Stream) : Conn :=
  match hc.dataAssemble env s with
  | .error hc => hc
  | .ok (s, hc) => hc.dataServe env s

def dataBuffered (s : Stream) (data : Bytes) (endStream : Bool) : Conn :=
  match hc.dataBuffer env s data with
  | .error hc => hc
  | .ok (s, hc) => if endStream then hc.dataEnd env s else hc.autoWindowUpdate env s.streamId

def dataDeliver (s : Stream) (data : Bytes) (endStream : Bool) : Conn :=
  match hc.dataCount env s data.length with
  | .error hc => hc
  | .ok (s, hc) => if s.hookCtx.isSome then hc.dataHook env s data endStream else hc.dataBuffered env s data endStream

def dataStream (s : Stream) (len : Nat) (data : Bytes) (endStream : Bool) : Conn :=
  match hc.dataReceive env s len with
  | .error hc => hc
  | .ok (s, hc) => hc.dataDeliver env s data endStream

def dataCase (f : Frame) : Conn :=
  if f.streamId = 0 then hc.abortAt env 0 .protocolError
  else
    match f.dataOctets with
    | none => hc.abort env .protocolError
    | some data =>
      let hc := if f.endStream then hc.log (.endStream f.streamId) else hc
      match hc.find f.streamId with
      | none => hc.dataUnknown env f.payload.length
      | some s => hc.dataStream env s f.payload.length data f.endStream

end

end Conn

end Cwist.H2
