import Cwist.Grpc.Client
import Cwist.Grpc.Message

/-!
# Calls of a gRPC client

`grpc_client_pump` with a function for each type of frame, the sending of a request and the call API of `grpc_client.c`.
Calls have the clock and the transport through their client's `Io`.
-/

namespace Cwist.Grpc

open H2 (Frame getBytes putU31 emitIndex emitString)
open Http (decimal)

abbrev Status := Nat

namespace Status

def ok : Status := 0
def cancelled : Status := 1
def unknown : Status := 2
def deadlineExceeded : Status := 4
def internal : Status := 13
def unavailable : Status := 14

end Status

def strtol (s : CStr) : Option Int :=
  let rest := s.bytes.dropWhile fun c => c == 0x20 || (0x09 ≤ c && c ≤ 0x0d)
  let (negative, digits) :=
    match rest with
    | 0x2d :: digits => (true, digits)
    | 0x2b :: digits => (false, digits)
    | digits => (false, digits)
  if digits = [] ∨ ¬digits.all (fun c => 0x30 ≤ c && c ≤ 0x39) then none
  else
    let value : Nat := digits.foldl (fun v c => v * 10 + (c.toNat - 0x30)) 0
    some (if negative then -value else value)

def fieldNumber (value : CStr) (low high otherwise : Int) : Int :=
  match strtol value with
  | some v => if low ≤ v ∧ v ≤ high then v else otherwise
  | none => otherwise

/-- A call, with its client. The fields the callback was given, and how many frames the client had read and written when
the call was started, are kept for the record. -/
structure Call where
  client : Client
  streamId : Nat
  deadlineMs : Nat
  sendWindow : Int
  decoder : Decoder
  msgs : List Bytes
  status : Status
  statusSeen : Bool
  statusMessage : Option CStr
  trailers : Bool
  streamEnded : Bool
  failed : Bool
  headersReceived : Bool
  trailersOnly : Bool
  refusedStream : Bool
  goawayRefused : Bool
  pushbackSeen : Bool
  pushbackMs : Int
  fields : List (CStr × CStr)
  readBefore : Nat
  writtenBefore : Nat
  deriving DecidableEq

inductive Rc where
  | keep | ended | error
  deriving DecidableEq

def int32Max : Int := 0x7fffffff

namespace Call

section

variable (call : Call)

def setIo (io : Io) : Call := { call with client := { call.client with io } }

def slip (s : Slip) : Call := call.setIo (call.client.io.slip s)

def skip (f : Frame) : Call := call.setIo (call.client.io.drop call.streamId f)

def fail (status : Status) : Call := { call with failed := true, streamEnded := true, status }

def die : Call := { call with client := { call.client with dead := true } }

def say (message : Option CStr) : Call := { call with statusMessage := message }

end

def onHeader : Call × Int → CStr × CStr → Call × Int
  | (call, httpStatus), (name, value) =>
    let call := { call with fields := call.fields ++ [(name, value)] }
    if name.bytes = ascii ":status" then (call, fieldNumber value 100 599 0)
    else if name.bytes = ascii "grpc-status" then
      let status := (fieldNumber value 0 0x7fffffff Status.unknown).toNat
      ({ call with status, statusSeen := true }, httpStatus)
    else if name.bytes = ascii "grpc-message" then (call.say (some value), httpStatus)
    else if name.bytes = ascii "grpc-retry-pushback-ms" then
      ({ call with pushbackMs := fieldNumber value (-0x80000000) 0x7fffffff (-1), pushbackSeen := true }, httpStatus)
    else (call, httpStatus)

def decodeBlock (call : Call) (block : Bytes) : Bool × Call × Int :=
  let (ok, scan) := call.client.hpack.decode block
  let call := { call with client := { call.client with hpack := scan.table } }
  let call := if scan.stale then call.slip .danglingName else call
  (ok, scan.fields.foldl onHeader (call, 0))

def afterBlock (call : Call) (httpStatus : Int) (endStream : Bool) : Rc × Call :=
  if httpStatus ≠ 0 ∧ httpStatus ≠ 200 then
    (.ended, (call.fail .unavailable).say (some (.ofBytes (ascii "HTTP status " ++ decimal httpStatus.toNat))))
  else if endStream then
    (.ended, { call with
      trailersOnly := call.trailersOnly || !call.headersReceived
      trailers := true
      streamEnded := true
      status := if call.statusSeen then call.status else .unknown })
  else (.keep, { call with headersReceived := true })

def handleSettings (env : Env) (call : Call) (f : Frame) : Rc × Call :=
  if f.has Frame.ackFlag then (.keep, call)
  else
    let (ok, client, delta) := call.client.applySettings env f.payload
    let call := { call with client }
    -- `c->active` is not set before the request is sent
    let call := if client.active then { call with sendWindow := call.sendWindow + delta }
      else if delta = 0 then call else call.slip .lostDelta
    (if ok then .keep else .error, call)

def handlePing (env : Env) (call : Call) (f : Frame) : Rc × Call :=
  if ¬f.has Frame.ackFlag ∧ f.payload.length = 8 then
    let (ok, io) := call.client.io.writeFrame env ⟨Frame.ping, Frame.ackFlag, 0, f.payload⟩
    (if ok then .keep else .error, call.setIo io)
  else (.keep, call)

def increment (f : Frame) : Nat := if f.payload.length = 4 then getBytes f.payload % 2 ^ 31 else 0

section

variable (env : Env) (call : Call) (f : Frame)

def growConnection : Rc × Call :=
  if (increment f : Int) > int32Max - call.client.connSendWindow then
    (.error, ((call.skip f).setIo ((call.skip f).client.io.sendGoaway env 0x03)).die)
  else
    (.keep, { call with client := { call.client with connSendWindow := call.client.connSendWindow + increment f } })

def growStream : Rc × Call :=
  if (increment f : Int) > int32Max - call.sendWindow then
    (.ended, (call.setIo (call.client.io.sendRst env call.streamId 0x03)).fail .unavailable)
  else (.keep, { call with sendWindow := call.sendWindow + increment f })

def handleWindowUpdate : Rc × Call :=
  if increment f = 0 then (.error, call)
  else if f.streamId = 0 then call.growConnection env f
  else if f.streamId = call.streamId then call.growStream env f
  else (.keep, call)

end

def handleGoaway (call : Call) (f : Frame) : Rc × Call :=
  let call := { call with client := { call.client with goaway := true } }
  if call.trailers then (.keep, call)
  else
    let refused := f.payload.length ≥ 4 ∧ ¬call.headersReceived ∧ getBytes (f.payload.take 4) % 2 ^ 31 < call.streamId
    (.ended, ({ call with goawayRefused := call.goawayRefused || refused }.fail .unavailable).say none)

def handleRst (call : Call) (f : Frame) : Rc × Call :=
  if f.streamId = call.streamId then
    if call.trailers then (.ended, { call with streamEnded := true })
    else
      let refused := f.payload.length = 4 ∧ ¬call.headersReceived ∧ getBytes f.payload = 0x7
      (.ended, { call with refusedStream := call.refusedStream || refused }.fail .unavailable)
  else (.keep, call)

def handleHeaders (env : Env) (call : Call) (f : Frame) : Rc × Call :=
  if f.streamId ≠ call.streamId then (.keep, call.skip f)
  else
    match call.client.readHeaderBlock env call.streamId f with
    | (none, client) => (.error, { call with client })
    | (some block, client) =>
      match { call with client }.decodeBlock block with
      | (false, call, _) => (.error, call)
      | (true, call, httpStatus) => call.afterBlock httpStatus f.endStream

def unpadded (f : Frame) : Option Bytes :=
  if f.has Frame.paddedFlag then
    match f.payload with
    | [] => none
    | padding :: data =>
      if padding.toNat ≥ f.payload.length then none else some (data.take (data.length - padding.toNat))
  else some f.payload

def returnCredit (env : Env) (call : Call) (f : Frame) : Bool × Call :=
  let update := putU31 f.payload.length
  match call.client.io.writeFrame env ⟨Frame.windowUpdate, 0, 0, update⟩ with
  | (false, io) => (false, (call.setIo io).skip f)
  | (true, io) =>
    let (ok, io) := io.writeFrame env ⟨Frame.windowUpdate, 0, call.streamId, update⟩
    (ok, call.setIo io)

def afterData (call : Call) (endStream : Bool) : Rc × Call :=
  if endStream then
    (.ended, { call with
      streamEnded := true
      trailers := true
      status := if call.trailers then call.status else .unknown })
  else (.keep, call)

section

variable (env : Env) (call : Call)

def handleData (f : Frame) : Rc × Call :=
  if f.streamId ≠ call.streamId then (.keep, call.skip f)
  else
    match unpadded f with
    | none => (.error, ((call.skip f).setIo ((call.skip f).client.io.sendGoaway env 0x01)).die)
    | some data =>
      let (ok, decoder, messages) := call.decoder.feed data
      let call := { call with decoder, msgs := call.msgs ++ messages }
      if ¬ok then
        (.ended, ((call.skip f).fail .internal).say (some (.ofBytes (ascii "malformed gRPC message frame"))))
      else if f.payload = [] then call.afterData f.endStream
      else
        match call.returnCredit env f with
        | (false, call) => (.error, call)
        | (true, call) => call.afterData f.endStream

def handle (f : Frame) : Rc × Call :=
  if f.type = Frame.settings then call.handleSettings env f
  else if f.type = Frame.ping then call.handlePing env f
  else if f.type = Frame.windowUpdate then call.handleWindowUpdate env f
  else if f.type = Frame.goaway then call.handleGoaway f
  else if f.type = Frame.rstStream then call.handleRst f
  else if f.type = Frame.headers then call.handleHeaders env f
  else if f.type = Frame.data then call.handleData env f
  else (.keep, call.skip f)

def pastDeadline : Bool × Call :=
  if call.deadlineMs = 0 then (false, call)
  else
    let (now, io) := call.client.io.nowMs env
    (now ≥ call.deadlineMs, call.setIo io)

def deadlineExit : Rc × Call :=
  let call := (call.fail .deadlineExceeded).say (some (.ofBytes (ascii "deadline exceeded")))
  let (_, io) := call.client.io.nowMs env
  (.error, call.setIo (io.sendRst env call.streamId 0x08))

end

def transportExit (call : Call) : Rc × Call :=
  (.error, (call.die.fail .unavailable).say (some (.ofBytes (ascii "transport error"))))

def found (env : Env) (call : Call) : Found where
  streamId := call.streamId
  active := call.client.active
  window := call.client.peerInitialWindow
  conn := call.client.connSendWindow
  decoder := call.decoder
  writes := (env.writes call.client.io.tick, env.writes (call.client.io.tick + 1))

def see (env : Env) (call : Call) (f : Frame) : Call := call.setIo (call.client.io.see (.pumped f (call.found env)))

def pumpFrame (env : Env) (call : Call) : Rc × Call :=
  match call.client.io.readFrame env with
  | (none, io) =>
    match (call.setIo io).pastDeadline env with
    | (true, call) => call.deadlineExit env
    | (false, call) => call.transportExit
  | (some f, io) =>
    match ((call.setIo io).see env f).handle env f with
    | (.error, call) => (.error, call.slip .unreported)
    | other => other

def pump (env : Env) (call : Call) : Rc × Call :=
  match call.pastDeadline env with
  | (true, call) => call.deadlineExit env
  | (false, call) => call.pumpFrame env

def pumpLoop (env : Env) (done : Call → Bool) : Nat → Call → Call
  | 0, call => call
  | turns + 1, call =>
    if done call then call
    else
      match call.pump env with
      | (.keep, call) => pumpLoop env done turns call
      | (_, call) => call

def pumpUntil (env : Env) (done : Call → Bool) (call : Call) : Call :=
  pumpLoop env done (call.client.io.rest.length + 1) call

def blockSize : Nat := 4096

def encLiteral (nameIndex : Nat) (name value out : Bytes) : Except Bytes Bytes := do
  let out ← emitIndex blockSize nameIndex out
  let out ← if nameIndex = 0 then emitString blockSize name out else .ok out
  emitString blockSize value out

def requestBlock (tls : Bool) (authority method : CStr) (timeoutMs previousAttempts : Nat) : Except Bytes Bytes := do
  let out := [0x83, if tls then 0x87 else 0x86]
  let out ← encLiteral 4 [] method.bytes out
  let out ← encLiteral 1 [] authority.bytes out
  let out ← encLiteral 31 [] (ascii "application/grpc") out
  let out ← encLiteral 0 (ascii "te") (ascii "trailers") out
  let out ← if timeoutMs = 0 then .ok out
    else encLiteral 0 (ascii "grpc-timeout") (decimal (min timeoutMs 99999999) ++ ascii "m") out
  if previousAttempts = 0 then .ok out
  else encLiteral 0 (ascii "grpc-previous-rpc-attempts") (decimal previousAttempts) out

def chunk (call : Call) (left : Nat) : Nat :=
  let window := min call.client.connSendWindow call.sendWindow
  min (if (left : Int) > window then window.toNat else left) call.client.peerMaxFrame

def spend (call : Call) (size : Nat) : Call :=
  { call with
    sendWindow := call.sendWindow - size
    client := { call.client with
      connSendWindow := call.client.connSendWindow - size
      io := { call.client.io with
        spends := call.client.io.spends ++ [⟨size, call.client.connSendWindow, call.sendWindow⟩] } } }

def sendLoop (env : Env) (frame : Bytes) : Nat → Nat → Call → Bool × Call
  | 0, _, call => (false, call)
  | turns + 1, sent, call =>
    let size := call.chunk (frame.length - sent)
    if size = 0 then
      if frame.length = sent then (true, call)
      else
        match call.pump env with
        | (.keep, call) => sendLoop env frame turns sent call
        | (_, call) => (false, call)
    else
      let flags := if sent + size = frame.length then Frame.endStreamFlag else 0
      match call.client.io.writeFrame env ⟨Frame.data, flags, call.streamId, (frame.drop sent).take size⟩ with
      | (false, io) => (false, call.setIo io)
      | (true, io) =>
        let call := (call.setIo io).spend size
        if sent + size = frame.length then (true, call) else sendLoop env frame turns (sent + size) call

def sendRequest (env : Env) (call : Call) (frame : Bytes) : Bool × Call :=
  sendLoop env frame (call.client.io.rest.length + frame.length + 1) 0 call

def deadlineAfter (env : Env) (io : Io) (timeoutMs : Nat) : Nat × Io :=
  if timeoutMs = 0 then (0, io)
  else
    let (now, io) := io.nowMs env
    ((now + timeoutMs) % 2 ^ 64, io)

def init (env : Env) (c : Client) (timeoutMs : Nat) : Call where
  client := { c with io := (deadlineAfter env c.io timeoutMs).2, nextStreamId := (c.nextStreamId + 2) % 2 ^ 32 }
  streamId := c.nextStreamId
  deadlineMs := (deadlineAfter env c.io timeoutMs).1
  sendWindow := c.peerInitialWindow
  decoder := .init
  msgs := []
  status := .ok
  statusSeen := false
  statusMessage := none
  trailers := false
  streamEnded := false
  failed := false
  headersReceived := false
  trailersOnly := false
  refusedStream := false
  goawayRefused := false
  pushbackSeen := false
  pushbackMs := 0
  fields := []
  readBefore := c.io.received.length
  writtenBefore := c.io.written.length

def sendAll (env : Env) (call : Call) (block request : Bytes) : Bool × Call :=
  match call.client.io.writeFrame env ⟨Frame.headers, Frame.endHeadersFlag, call.streamId, block⟩ with
  | (false, io) => (false, call.setIo io)
  | (true, io) =>
    match encodeMessage request with
    | none => (false, call.setIo io)
    | some frame => (call.setIo io).sendRequest env frame

def startEx (env : Env) (c : Client) (method : CStr) (request : Bytes) (timeoutMs previousAttempts : Nat) :
    Except Client Call :=
  if c.dead ∨ c.goaway ∨ c.active then .error c
  else
    let call := init env c timeoutMs
    match requestBlock c.tls c.authority method timeoutMs previousAttempts with
    | .error _ => .error call.client
    | .ok block =>
      match call.sendAll env block request with
      | (false, call) => .error call.client
      | (true, call) => .ok { call with client := { call.client with active := true } }

inductive Received where
  | message (data : Bytes) | finished | failure
  deriving DecidableEq

section

variable (env : Env) (call : Call)

def recv : Received × Call :=
  let call := call.pumpUntil env fun call => call.msgs ≠ [] ∨ call.streamEnded
  match call.msgs with
  | data :: msgs => (.message data, { call with msgs })
  | [] => (if call.failed then .failure else .finished, call)

def awaitHeaders : Rc × Call :=
  let call := call.pumpUntil env fun call => call.headersReceived || call.streamEnded
  (if call.headersReceived then .keep else if call.streamEnded then .ended else .error, call)

def finish : Status × Call :=
  let call := call.pumpUntil env (·.streamEnded)
  (call.status, call)

end

def refused (call : Call) : Bool :=
  !call.headersReceived && !call.trailers && (call.refusedStream || call.goawayRefused)

def cancel (env : Env) (call : Call) : Call :=
  if call.streamEnded then call
  else
    let (_, io) := call.client.io.nowMs env
    (call.setIo (io.sendRst env call.streamId 0x08)).fail .cancelled

def destroy (env : Env) (call : Call) : Client := { (call.cancel env).client with active := false }

end Call

inductive Op where
  | start (method : CStr) (request : Bytes) (timeoutMs previousAttempts : Nat)
  | recv
  | awaitHeaders
  | finish
  | cancel
  | destroy
  deriving DecidableEq

inductive Session where
  | idle (client : Client)
  | busy (call : Call)
  deriving DecidableEq

namespace Session

def client : Session → Client
  | idle client => client
  | busy call => call.client

def status : Session → Option Status
  | idle _ => none
  | busy call => some call.status

def ofStart : Except Client Call → Session
  | .error client => idle client
  | .ok call => busy call

def step (env : Env) : Session → Op → Session
  | idle client, .start method request timeoutMs previousAttempts =>
    ofStart (Call.startEx env client method request timeoutMs previousAttempts)
  | idle client, _ => idle client
  -- a client has one call at a time
  | busy call, .start .. => busy call
  | busy call, .recv => busy (call.recv env).2
  | busy call, .awaitHeaders => busy (call.awaitHeaders env).2
  | busy call, .finish => busy (call.finish env).2
  | busy call, .cancel => busy (call.cancel env)
  | busy call, .destroy => idle (call.destroy env)

def run (env : Env) (s : Session) (ops : List Op) : Session := ops.foldl (step env) s

end Session

end Cwist.Grpc
