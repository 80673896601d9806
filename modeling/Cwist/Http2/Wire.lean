import Cwist.Http.Request
import Cwist.Http.Response
import Cwist.Http2.FlowControl

namespace Cwist.H2

open Http (Request Response)
open Http2 (FlowControl StreamFlowControl)

structure Frame where
  type : UInt8
  flags : UInt8
  streamId : Nat
  payload : Bytes
  deriving DecidableEq

namespace Frame

def data : UInt8 := 0x00
def headers : UInt8 := 0x01
def rstStream : UInt8 := 0x03
def settings : UInt8 := 0x04
def ping : UInt8 := 0x06
def goaway : UInt8 := 0x07
def windowUpdate : UInt8 := 0x08
def continuation : UInt8 := 0x09

def maxSize : Nat := 16384

def endStreamFlag : UInt8 := 0x01
def ackFlag : UInt8 := 0x01
def endHeadersFlag : UInt8 := 0x04
def paddedFlag : UInt8 := 0x08
def priorityFlag : UInt8 := 0x20

def has (f : Frame) (flag : UInt8) : Bool := f.flags &&& flag != 0

def endStream (f : Frame) : Bool := f.has endStreamFlag
def endHeaders (f : Frame) : Bool := f.has endHeadersFlag

def ofResponse (f : Frame) : Bool := f.type == data || f.type == headers || f.type == continuation

end Frame

inductive ErrorCode where
  | noError | protocolError | flowControlError | frameSizeError | refusedStream | enhanceYourCalm
  deriving DecidableEq, Repr

def ErrorCode.toNat : ErrorCode → Nat
  | noError => 0x0
  | protocolError => 0x1
  | flowControlError => 0x3
  | frameSizeError => 0x6
  | refusedStream => 0x7
  | enhanceYourCalm => 0xb

def putU32 (v : Nat) : Bytes := [24, 16, 8, 0].map fun shift => UInt8.ofNat (v >>> shift)

def putU31 (v : Nat) : Bytes := putU32 (v % 2 ^ 31)

def getBytes (b : Bytes) : Nat := b.foldl (fun v c => v * 256 + c.toNat) 0

def putU64 (v : Nat) : Bytes := [56, 48, 40, 32, 24, 16, 8, 0].map fun shift => UInt8.ofNat (v >>> shift)

inductive Outcome where
  | unavailable
  | deferred
  | response (res : Response)

structure Env where
  clockNs : Nat → Nat
  /-- Whether appending to or flushing the output buffer succeeds. -/
  writes : Nat → Bool
  reads : Nat → Nat
  handler : Nat → Request → Outcome
  /-- The hooks that are installed: the context of a taken stream, and whether a return is non-zero. -/
  onHeaders : Option (Nat → Request → Option Nat)
  onData : Option (Nat → Bool)
  onPoll : Option (Nat → Bool)
  onCancel : Bool
  onClose : Bool
  http3Port : Option Nat
  rstBurst : Nat
  rstRate : Nat

def Env.simple (outcome : Outcome) : Env where
  clockNs _ := 0
  writes _ := true
  reads _ := 0
  handler _ _ := outcome
  onHeaders := none
  onData := none
  onPoll := none
  onCancel := false
  onClose := false
  http3Port := none
  rstBurst := 100
  rstRate := 100

inductive Event where
  | frame (f : Frame)
  | handler (streamId : Nat) (req : Request) (blockOpen : Bool)
  | onHeaders (streamId : Nat) (req : Request) (blockOpen : Bool)
  | onData (streamId : Nat) (data : Bytes) (endStream : Bool)
  | onPoll (streamId : Nat)
  | onCancel (streamId : Nat)
  | onClose (streamId : Nat)
  | endStream (streamId : Nat)
  | created (streamId : Nat)
  | refused (streamId : Nat)
  | decoded (streamId : Nat)
  | rejected (streamId : Nat)
  /-- The budget does not allow `h2_send_rst_stream` to reset a stream. -/
  | exhausted (streamId : Nat)
  deriving DecidableEq

structure Io where
  fc : FlowControl
  pacingWaiting : Bool
  ticks : Nat
  trace : List Event

namespace Io

def log (io : Io) (e : Event) : Io := { io with trace := io.trace ++ [e] }

def tick (io : Io) : Io := { io with ticks := io.ticks + 1 }

section

variable (env : Env) (io : Io)

def nowMs : Nat := env.clockNs io.ticks / 1000000 % 2 ^ 64
def nowUs : Nat := env.clockNs io.ticks / 1000 % 2 ^ 64

def writeFrame (f : Frame) : Bool × Io :=
  if env.writes io.ticks then (true, (io.log (.frame f)).tick) else (false, io.tick)

def flush : Bool × Io := (env.writes io.ticks, io.tick)

end

end Io

end Cwist.H2
