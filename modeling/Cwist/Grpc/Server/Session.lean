import Cwist.Grpc.Call

/-!
# The state of a server call

A streaming call as `grpc_server.c` keeps it: the queue of received messages, the flags, and what has been sent.
-/

namespace Cwist.Grpc

namespace Status

def invalidArgument : Status := 3
def resourceExhausted : Status := 8
def unimplemented : Status := 12

end Status

namespace Server
open Http (decimal)

def signed (n : Int) : Bytes := if n < 0 then 0x2d :: decimal n.natAbs else decimal n.natAbs

inductive Sent where
  | responseHeaders (fields : List (Bytes × Bytes))
  | data (octets : Bytes)
  | trailers (status : Status) (fields : List (Bytes × Bytes))
  | trailersOnly (status : Status) (fields : List (Bytes × Bytes))
  deriving DecidableEq

/-- How a write ends: `broken` with so many octets handed over before. -/
inductive Write where
  | done
  | broken (handed : Nat)
  deriving DecidableEq

def Write.block (w : Write) (block : Sent) : List Sent :=
  match w with
  | .done | .broken (_ + 1) => [block]
  | .broken 0 => []

/-- Three lists are kept for the statements only: `out` of what was sent, `decoded` of every message taken from the wire,
`received` of those that the handler has read. -/
structure Session where
  decoder : Decoder
  gzip : Bool
  respGzip : Bool
  queue : List Bytes
  cancelled : Bool
  eof : Bool
  status : Status
  statusMessage : Option Bytes
  closed : Bool
  pushback : Option Int
  headersSent : Bool
  trailersSent : Bool
  attached : Bool
  out : List Sent
  decoded : List Bytes
  received : List Bytes

namespace Session

def init (gzip respGzip : Bool) : Session :=
  { decoder := .init, gzip, respGzip, queue := [], cancelled := false, eof := false, status := .ok, statusMessage := none
    closed := false, pushback := none, headersSent := false, trailersSent := false, attached := true, out := []
    decoded := [], received := [] }

section

variable (s : Session)

def push (data : Bytes) : Option Session :=
  if s.cancelled || s.eof then none else some { s with queue := s.queue ++ [data], decoded := s.decoded ++ [data] }

def markFailed (status : Status) (message : Option Bytes) : Session :=
  { s with cancelled := true, status, statusMessage := message }

def sendHeaders (w : Write) : Bool × Session :=
  if s.headersSent then (true, s)
  else if !s.attached then (false, s)
  else
    let fields := [(ascii "content-type", ascii "application/grpc"), (ascii "grpc-accept-encoding", ascii "gzip, identity")] ++
      if s.respGzip then [(ascii "grpc-encoding", ascii "gzip")] else []
    let s := { s with out := s.out ++ w.block (.responseHeaders fields) }
    if w = .done then (true, { s with headersSent := true }) else (false, s)

def finalFields (status : Status) (message : Option Bytes) : List (Bytes × Bytes) :=
  [(ascii "grpc-status", decimal status)] ++ (message.map fun text => (ascii "grpc-message", text)).toList ++
    (s.pushback.map fun ms => (ascii "grpc-retry-pushback-ms", signed ms)).toList

def sendTrailers (status : Status) (message : Option Bytes) (first second : Write) : Session :=
  if s.attached && !s.trailersSent then
    if !s.headersSent && status != .ok then
      let fields := [(ascii "content-type", ascii "application/grpc"),
        (ascii "grpc-accept-encoding", ascii "gzip, identity")] ++ s.finalFields status message
      { s with
        out := s.out ++ first.block (.trailersOnly status fields)
        headersSent := first == .done
        trailersSent := true }
    else
      match s.sendHeaders first with
      | (true, s) =>
        { s with out := s.out ++ second.block (.trailers status (s.finalFields status message)), trailersSent := true }
      | (false, s) => { s with trailersSent := true }
  else s

def writeFrame (frame : Bytes) (first second : Write) : Bool × Session :=
  if s.attached && !s.trailersSent then
    match s.sendHeaders first with
    | (true, s) =>
      match second with
      | .done => (true, { s with out := s.out ++ [.data frame] })
      | .broken handed => (false, { s with out := s.out ++ [.data (frame.take handed)] })
    | (false, s) => (false, s)
  else (false, s)

def recv (expired : Bool) : Option (Option Bytes × Session) :=
  match s.queue with
  | data :: queue => some (some data, { s with queue, received := s.received ++ [data] })
  | [] =>
    if s.cancelled then some (none, s)
    else if s.eof then some (none, s)
    else if expired then
      some (none,
        { s with cancelled := true, status := .deadlineExceeded, statusMessage := some (ascii "deadline exceeded") })
    else none

def markEof : Session := { s with eof := true }

def cancel : Session := { s with cancelled := true }

def detach : Session := { s with attached := false }

def inboundSide : List Bytes × List Bytes × List Bytes × Bool := (s.queue, s.decoded, s.received, s.cancelled)

end

lemma sendHeaders_inboundSide (s : Session) (w : Write) : (s.sendHeaders w).2.inboundSide = s.inboundSide := by
  unfold sendHeaders
  split_ifs <;> rfl

lemma sendTrailers_inboundSide (s : Session) (status : Status) (message : Option Bytes) (first second : Write) :
    (s.sendTrailers status message first second).inboundSide = s.inboundSide := by
  have headers := s.sendHeaders_inboundSide first
  unfold sendTrailers
  split_ifs
  · rfl
  · split <;> rename_i sent <;> rw [sent] at headers <;> exact headers
  · rfl

lemma writeFrame_inboundSide (s : Session) (frame : Bytes) (first second : Write) :
    (s.writeFrame frame first second).2.inboundSide = s.inboundSide := by
  have headers := s.sendHeaders_inboundSide first
  unfold writeFrame
  split_ifs
  · split <;> rename_i sent <;> rw [sent] at headers
    · split <;> exact headers
    · exact headers
  · rfl

end Session

end Cwist.Grpc.Server
