import Cwist.Grpc.Transport
import Cwist.Hpack.Encode

namespace Cwist.Grpc

open H2 (Frame getBytes)

def pushPromise : UInt8 := 0x05

def maxHeaderBlock : Nat := 64 * 1024

def maxContinuations : Nat := 16

structure Client where
  io : Io
  tls : Bool
  authority : CStr
  active : Bool
  nextStreamId : Nat
  peerMaxFrame : Nat
  peerInitialWindow : Nat
  connSendWindow : Int
  hpack : Hpack
  goaway : Bool
  dead : Bool
  deriving DecidableEq

def startsBlock (f : Frame) : Bool := f.type == Frame.headers || f.type == pushPromise

/-- What is lost with a frame that is passed over, seen from the call on `streamId`. -/
def lostWith (streamId : Nat) (f : Frame) : List Slip :=
  if startsBlock f then [.undecoded]
  else if f.type = Frame.data then if f.payload = [] then [] else [.uncredited]
  else if f.type = Frame.windowUpdate then if f.streamId = 0 ∨ f.streamId = streamId then [.lostIncrement] else []
  else if f.type = Frame.settings then if f.has Frame.ackFlag then [] else [.lostDelta]
  else []

def Io.drop (io : Io) (streamId : Nat) (f : Frame) : Io := { io with slips := io.slips ++ lostWith streamId f }

def Io.abandon (io : Io) : Io := io.slip .undecoded

namespace Client

def isDead (c : Client) : Bool := c.dead || c.goaway

def settingEntries (payload : Bytes) : List (Nat × Nat) :=
  (List.range (payload.length / 6)).map fun i =>
    (getBytes ((payload.drop (6 * i)).take 2), getBytes ((payload.drop (6 * i + 2)).take 4))

def applySetting (c : Client) : Nat × Nat → Option (Client × Int)
  | (0x2, value) => if value ≠ 0 then none else some (c, 0)
  | (0x4, value) =>
    if value > 0x7fffffff then none else some ({ c with peerInitialWindow := value }, value - c.peerInitialWindow)
  | (0x5, value) => if value < 16384 ∨ value > 16777215 then none else some ({ c with peerMaxFrame := value }, 0)
  | _ => some (c, 0)

def applyEntries : List (Nat × Nat) → Client → Bool × Client × Int
  | [], c => (true, c, 0)
  | entry :: rest, c =>
    match c.applySetting entry with
    | none => (false, c, 0)
    | some (c, delta) =>
      let (ok, c, more) := applyEntries rest c
      (ok, c, delta + more)

def applySettings (env : Env) (c : Client) (payload : Bytes) : Bool × Client × Int :=
  if payload.length % 6 ≠ 0 then (false, c, 0)
  else
    match applyEntries (settingEntries payload) c with
    | (false, c, delta) => (false, c, delta)
    | (true, c, delta) =>
      let (ok, io) := c.io.writeFrame env ⟨Frame.settings, Frame.ackFlag, 0, []⟩
      (ok, { c with io }, delta)

def fragment (f : Frame) : Option Bytes :=
  let len := f.payload.length
  if len > maxHeaderBlock then none
  else if f.has Frame.paddedFlag ∧ len = 0 then none
  else
    let padding := if f.has Frame.paddedFlag then (f.payload.getD 0 0).toNat else 0
    let offset := if f.has Frame.paddedFlag then 1 else 0
    if f.has Frame.priorityFlag ∧ len - offset < 5 then none
    else
      let offset := if f.has Frame.priorityFlag then offset + 5 else offset
      if padding > len - offset then none else some ((f.payload.drop offset).take (len - offset - padding))

def readContinuations (env : Env) (streamId : Nat) : Nat → Io → Bytes → Option Bytes × Io
  | 0, io, _ => (none, io.abandon)
  | left + 1, io, block =>
    match io.readFrame env with
    | (none, io) => (none, io.abandon)
    | (some cont, io) =>
      let io := io.see (.inBlock cont)
      if cont.type ≠ Frame.continuation ∨ cont.streamId ≠ streamId ∨
          cont.payload.length > maxHeaderBlock - block.length then
        (none, io.abandon.drop streamId cont)
      else if cont.endHeaders then (some (block ++ cont.payload), io)
      else readContinuations env streamId left io (block ++ cont.payload)

def readHeaderBlock (env : Env) (c : Client) (streamId : Nat) (first : Frame) : Option Bytes × Client :=
  match fragment first with
  | none => (none, { c with io := c.io.drop streamId first })
  | some block =>
    if first.endHeaders then (some block, c)
    else
      let (block, io) := readContinuations env streamId maxContinuations c.io block
      (block, { c with io })

def handshake (env : Env) : Nat → Bool → Bool → Client → Bool × Client
  | 0, _, _, c => (false, c)
  | turns + 1, serverSettings, ourAck, c =>
    if serverSettings && ourAck then (true, c)
    else
      match c.io.readFrame env with
      | (none, io) => (false, { c with io })
      | (some f, io) =>
        let io := io.see (.greeting f)
        if f.type = Frame.settings ∧ ¬f.has Frame.ackFlag then
          match applySettings env { c with io } f.payload with
          | (false, c, _) => (false, c)
          | (true, c, _) => handshake env turns true ourAck c
        else if f.type = Frame.settings then handshake env turns serverSettings true { c with io }
        else if f.type = Frame.ping ∧ ¬f.has Frame.ackFlag ∧ f.payload.length = 8 then
          match io.writeFrame env ⟨Frame.ping, Frame.ackFlag, 0, f.payload⟩ with
          | (false, io) => (false, { c with io })
          | (true, io) => handshake env turns serverSettings ourAck { c with io }
        else if f.type = Frame.goaway then (false, { c with io })
        else handshake env turns serverSettings ourAck { c with io := io.drop 0 f }

def fresh (tls : Bool) (authority : CStr) (tick : Nat) (server : Bytes) : Client where
  io := ⟨server, tick, [], [], [], [], []⟩
  tls := tls
  authority := authority
  active := false
  nextStreamId := 1
  peerMaxFrame := 16384
  peerInitialWindow := defaultWindow
  connSendWindow := defaultWindow
  hpack := .init
  goaway := false
  dead := false

def greet (env : Env) (c : Client) : Bool × Client :=
  match c.io.writeAll env with
  | (false, io) => (false, { c with io })
  | (true, io) =>
    match io.writeFrame env ⟨Frame.settings, 0, 0, []⟩ with
    | (false, io) => (false, { c with io })
    | (true, io) => handshake env (io.rest.length + 1) false false { c with io }

def close (env : Env) (c : Client) : Io :=
  if c.dead then c.io else (({ c.io with tick := c.io.tick + 1 } : Io).writeFrame env ⟨Frame.goaway, 0, 0, []⟩).2

def connect (env : Env) (tls : Bool) (authority : CStr) (tick : Nat) : Except Nat Client :=
  match env.dial tick with
  | none => .error (tick + 2)
  | some server =>
    match greet env (fresh tls authority (tick + 2) server) with
    | (true, c) => .ok c
    | (false, c) => .error (c.close env).tick

end Client

end Cwist.Grpc
