import Cwist.Http2.Data

/-!
# The connection loop

SETTINGS, PING, WINDOW_UPDATE and RST_STREAM, the switch over the frame types, and a turn of the loop: parked responses
and hooks first, then one input.
-/

namespace Cwist.H2
open Cwist.H2.Frame

open Http (Response)

namespace Conn

variable (env : Env)

def applySetting (hc : Conn) (id value : Nat) : Bool × Conn :=
  match id with
  | 0x2 => (value ≤ 1, hc)
  | 0x4 =>
    if value > 2147483647 then (false, hc)
    else
      let delta : Int := value - hc.peerInitialWindowSize
      let shift (s : Stream) : Stream :=
        { s with progress := { s.progress with fc := s.progress.fc.adjustSendWindow delta } }
      (true, { hc with peerInitialWindowSize := value, streams := hc.streams.map shift })
  | 0x5 => if value < 16384 ∨ value > 16777215 then (false, hc) else (true, { hc with peerMaxFrameSize := value })
  | _ => (true, hc)

def settingsLoop : Bytes → Conn → Bool × Conn
  | i₀ :: i₁ :: v₀ :: v₁ :: v₂ :: v₃ :: rest, hc =>
    match hc.applySetting (getBytes [i₀, i₁]) (getBytes [v₀, v₁, v₂, v₃]) with
    | (false, hc) => (false, hc)
    | (true, hc) => settingsLoop rest hc
  | _, hc => (true, hc)

section

variable (hc : Conn)

def handleSettings (payload : Bytes) (ack : Bool) : Bool × Conn :=
  if ack then (true, hc)
  else if payload.length % 6 ≠ 0 then (false, hc)
  else settingsLoop payload hc

def handleWindowUpdate (streamId : Nat) (payload : Bytes) : Bool × Conn :=
  let increment := getBytes payload % 2 ^ 31
  if payload.length ≠ 4 ∨ increment = 0 then (false, hc)
  else if streamId = 0 then
    if hc.fc.sendWindow + increment > Http2.maxWindow then (false, hc)
    else (true, hc.setFc { hc.fc with sendWindow := hc.fc.sendWindow + increment })
  else
    match hc.find streamId with
    | none => (true, hc)
    | some s =>
      let next := s.progress.fc.sendWindow + increment
      if next > Http2.maxWindow then (false, hc)
      else (true, hc.put { s with progress := { s.progress with fc := { s.progress.fc with sendWindow := next } } })

def settingsCase (f : Frame) : Conn :=
  let ack := f.has ackFlag
  match hc.handleSettings f.payload ack with
  | (false, hc) => hc.abort env .protocolError
  | (true, hc) =>
    if ack then hc
    else
      match hc.write env ⟨Frame.settings, ackFlag, 0, []⟩ with
      | (true, hc) => hc
      | (false, hc) => hc.close

def rstStreamCase (f : Frame) : Conn :=
  if f.streamId = 0 ∨ f.payload.length ≠ 4 then hc.abort env .protocolError
  else if f.streamId > hc.lastProcessedStreamId then hc.abort env .protocolError
  else
    match hc.consumeRstBudget env with
    | (false, hc) => hc.abort env .enhanceYourCalm
    | (true, hc) =>
      let cancelled := (hc.find f.streamId).any fun s => s.hookCtx.isSome && env.onCancel
      (if cancelled then hc.log (.onCancel f.streamId) else hc).remove env f.streamId

def pingAcknowledged : Conn :=
  let sample := (hc.nowUs env + 2 ^ 64 - hc.pingSentUs) % 2 ^ 64
  let hc := ({ hc with pingOutstanding := false }.setFc (hc.fc.updateRtt sample)).tick
  if hc.streams = [] then hc else hc.sendPing env

def pingCase (f : Frame) : Conn :=
  if f.payload.length ≠ 8 then hc.abort env .frameSizeError
  else if f.has ackFlag then
    if hc.pingOutstanding ∧ f.payload = hc.pingPayload then hc.pingAcknowledged env else hc
  else
    match hc.consumePingBudget env with
    | (false, hc) => hc.abort env .enhanceYourCalm
    | (true, hc) =>
      match hc.write env ⟨Frame.ping, ackFlag, 0, f.payload⟩ with
      | (true, hc) => hc
      | (false, hc) => hc.close

def windowUpdateCase (f : Frame) : Conn :=
  if f.payload.length ≠ 4 then hc.abort env .frameSizeError
  else
    match hc.handleWindowUpdate f.streamId f.payload with
    | (false, hc) => hc.abort env .flowControlError
    | (true, hc) => hc

def frameCase (f : Frame) : Conn :=
  if f.payload.length > maxSize then hc.abort env .frameSizeError
  else if hc.cont.expecting ∧ (f.type ≠ Frame.continuation ∨ f.streamId ≠ hc.cont.streamId) then
    hc.abort env .protocolError
  else if f.type = Frame.settings then hc.settingsCase env f
  else if f.type = Frame.headers then hc.headersCase env f
  else if f.type = Frame.continuation then hc.continuationCase env f
  else if f.type = Frame.data then hc.dataCase env f
  else if f.type = rstStream then hc.rstStreamCase env f
  else if f.type = Frame.ping then hc.pingCase env f
  else if f.type = Frame.goaway then hc.close
  else if f.type = windowUpdate then hc.windowUpdateCase env f
  else hc

def serve (streamId : Nat) (res : Response) : Bool × Conn :=
  match hc.sendResponse env streamId res with
  | (.parked, hc) => (true, hc)
  | (.done, hc) => (true, hc.remove env streamId)
  | (.failed, hc) => (false, hc.remove env streamId)

end

def resumeResponses : List Stream → Conn → Bool × Conn
  | [], hc => (true, hc)
  | s :: rest, hc =>
    match s.response with
    | none => resumeResponses rest hc
    | some res =>
      match hc.serve env s.streamId res with
      | (false, hc) => (false, hc)
      | (true, hc) => resumeResponses rest hc

def pollHooks : List Stream → Conn → Conn
  | [], hc => hc
  | s :: rest, hc =>
    match env.onPoll, s.hookCtx with
    | some onPoll, some _ =>
      let finished := onPoll hc.ticks
      let hc := (hc.log (.onPoll s.streamId)).tick
      pollHooks rest (if finished then hc.remove env s.streamId else hc)
    | _, _ => pollHooks rest hc

def asyncDrain : List (Nat × Response) → Conn → Bool × Conn
  | [], hc => (true, hc)
  | (streamId, res) :: rest, hc =>
    match hc.find streamId with
    | none => asyncDrain rest hc
    | some s =>
      let res := res.injectAltSvc env.http3Port
      match (hc.put { s with req := none, response := some res }).serve env streamId res with
      | (false, hc) => (false, hc)
      | (true, hc) => asyncDrain rest hc

end Conn

/-- What wakes the loop: a frame, responses completed elsewhere, a deadline, the two ways to stop. -/
inductive Input where
  | frame (f : Frame)
  | completions (queue : List (Nat × Response))
  | deadline
  | shutdown
  | hangUp

namespace Conn

variable (env : Env)

def housekeeping (hc : Conn) (input : Input) : Conn :=
  match resumeResponses env hc.streams { hc with pacingWaiting := false } with
  | (false, hc) => hc.close
  | (true, hc) =>
    let hc := pollHooks env hc.streams hc
    match input with
    | .completions queue =>
      match asyncDrain env queue hc with
      | (true, hc) => hc
      | (false, hc) => hc.close
    | _ => hc

/-- A closed connection ignores its input. -/
def turn (hc : Conn) (input : Input) : Conn :=
  if !hc.connected then hc
  else
    match input with
    | .shutdown =>
      match hc.sendGoaway env hc.lastProcessedStreamId .noError with
      | (true, hc) => hc
      | (false, hc) => hc.close
    | .hangUp => hc.close
    | .frame f =>
      let hc := hc.housekeeping env (.frame f)
      if hc.connected then hc.frameCase env f else hc
    | input => hc.housekeeping env input

def run (hc : Conn) (inputs : List Input) : Conn := inputs.foldl (turn env) hc

def serverSettings : Bytes :=
  [0x00, 0x01, 0x00, 0x00, 0x10, 0x00, 0x00, 0x03, 0x00, 0x00, 0x00, 0x64,
   0x00, 0x04, 0x7f, 0xff, 0xff, 0xff, 0x00, 0x06, 0x00, 0x01, 0x00, 0x00]

def init (sequenced : Bool) : Conn :=
  let nowMs := env.clockNs 0 / 1000000 % 2 ^ 64
  { fc := { Http2.FlowControl.init 0 Http2.maxWindow with sendWindow := 65535 }
    pacingWaiting := false
    ticks := 1
    trace := []
    sequencedData := sequenced
    rst := ⟨env.rstBurst, nowMs, 0⟩
    ping := ⟨100, nowMs, 0⟩
    outRst := ⟨env.rstBurst, nowMs, 0⟩ }

def start (sequenced : Bool) : Conn :=
  match (init env sequenced).write env ⟨Frame.settings, 0, 0, serverSettings⟩ with
  | (false, hc) => hc.close
  | (true, hc) =>
    let hc := (hc.write env ⟨windowUpdate, 0, 0, putU31 (2147483647 - 65535)⟩).2
    (hc.setFc { hc.fc with receiveWindow := Http2.maxWindow }).sendPing env

end Conn

end Cwist.H2
