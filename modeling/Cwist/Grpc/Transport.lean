import Cwist.Grpc.Hpack
import Cwist.Grpc.Message
import Cwist.Lib.Trace

namespace Cwist.Grpc
open List

open H2 (Frame getBytes)
open Trace (Extends)

/-!
# The transport of a gRPC client

`grpc_client_read_all`, `grpc_client_write_all` and the frame functions over them. Every answer of the outside is a
function of the tick at which it is asked for.
-/

/-- The clock, how many octets a read or a write stops after (`none`: it goes through), what a dial connects to, and the
jitter of a backoff. -/
structure Env where
  clock : Nat → Nat
  reads : Nat → Option Nat
  writes : Nat → Option Nat
  dial : Nat → Option Bytes
  jitter : Nat → Rat

/-- What can go wrong on a connection without the code taking note of it. The functions only ever add to the list. -/
inductive Slip where
  /-- A header block was not given to the decoder. -/
  | undecoded
  /-- A field's name is read after the entry it was borrowed from has been freed. -/
  | danglingName
  /-- A WINDOW_UPDATE was passed over. -/
  | lostIncrement
  /-- A new initial window was not applied to the open call. -/
  | lostDelta
  /-- Octets of a DATA frame are not returned to the connection's window. -/
  | uncredited
  /-- The switch over the frame types failed, and the call does not say so. -/
  | unreported
  deriving DecidableEq

/-- What the pump finds with a frame: the call and whether the client knows of it, the windows, the decoder, and what the
transport has to say to the next two writes. -/
structure Found where
  streamId : Nat
  active : Bool
  window : Nat
  conn : Int
  decoder : Decoder
  writes : Option Nat × Option Nat
  deriving DecidableEq

/-- A frame where it was read: in the handshake, inside a header block, or by the pump. -/
inductive Sight where
  | greeting (f : Frame)
  | inBlock (f : Frame)
  | pumped (f : Frame) (found : Found)
  deriving DecidableEq

/-- A DATA frame and the two windows it was cut to. -/
structure Spend where
  size : Nat
  conn : Int
  stream : Int
  deriving DecidableEq

/-- What the server still has to say, and the records of what has gone over the wire. -/
structure Io where
  rest : Bytes
  tick : Nat
  received : List Frame
  written : List Frame
  slips : List Slip
  spends : List Spend
  sights : List Sight
  deriving DecidableEq

def frameHeader : Nat := 9

def maxInboundFrame : Nat := 16384

def defaultWindow : Nat := 65535

namespace Io

def slip (io : Io) (s : Slip) : Io := { io with slips := io.slips ++ [s] }

def see (io : Io) (sight : Sight) : Io := { io with sights := io.sights ++ [sight] }

def nowMs (env : Env) (io : Io) : Nat × Io := (env.clock io.tick, { io with tick := io.tick + 1 })

def take (io : Io) (n : Nat) : Io := { io with rest := io.rest.drop n, tick := io.tick + 1 }

section

variable (env : Env) (io : Io)

def readAll (len : Nat) : Option Bytes × Io :=
  match env.reads io.tick with
  | none => if len ≤ io.rest.length then (some (io.rest.take len), io.take len) else (none, io.take io.rest.length)
  | some n => (none, io.take (min n (min (len - 1) io.rest.length)))

def writeAll : Bool × Io :=
  match env.writes io.tick with
  | none => (true, { io with tick := io.tick + 1 })
  | some _ => (false, { io with tick := io.tick + 1 })

def writeFrame (f : Frame) : Bool × Io :=
  -- the header has 31 bits for the identifier
  let f := { f with streamId := f.streamId % 2 ^ 31 }
  match io.writeAll env with
  | (false, io) => (false, io)
  | (true, io) =>
    if f.payload.length = 0 then (true, { io with written := io.written ++ [f] })
    else
      match io.writeAll env with
      | (false, io) => (false, io)
      | (true, io) => (true, { io with written := io.written ++ [f] })

def sendGoaway (code : UInt8) : Io :=
  (io.writeFrame env ⟨Frame.goaway, 0, 0, [0, 0, 0, 0, 0, 0, 0, code]⟩).2

def sendRst (streamId : Nat) (code : UInt8) : Io :=
  (io.writeFrame env ⟨Frame.rstStream, 0, streamId, [0, 0, 0, code]⟩).2

end

def frameOfHeader (hdr : Bytes) : Frame × Nat :=
  (⟨hdr.getD 3 0, hdr.getD 4 0, getBytes ((hdr.drop 5).take 4) % 2 ^ 31, []⟩, getBytes (hdr.take 3))

def readFrame (env : Env) (io : Io) : Option Frame × Io :=
  match io.readAll env frameHeader with
  | (none, io) => (none, io)
  | (some hdr, io) =>
    let (f, len) := frameOfHeader hdr
    if len > maxInboundFrame then (none, io.sendGoaway env 0x06)
    else if len = 0 then (some f, { io with received := io.received ++ [f] })
    else
      match io.readAll env len with
      | (none, io) => (none, io)
      | (some payload, io) => (some { f with payload }, { io with received := io.received ++ [{ f with payload }] })

end Io

def tally (size : Frame → Nat) (frames : List Frame) : Nat := (frames.map size).sum

@[simp] lemma tally_nil (size : Frame → Nat) : tally size [] = 0 := rfl

@[simp] lemma tally_append (size : Frame → Nat) (frames more : List Frame) :
    tally size (frames ++ more) = tally size frames + tally size more := by
  simp only [tally, map_append, sum_append]

@[simp] lemma tally_singleton (size : Frame → Nat) (f : Frame) : tally size [f] = size f := by
  simp only [tally, map_cons, map_nil, sum_cons, sum_nil, add_zero]

lemma tally_eq_zero {size : Frame → Nat} {frames : List Frame} (none_ : ∀ f ∈ frames, size f = 0) :
    tally size frames = 0 := by
  apply sum_eq_zero
  intro n member
  obtain ⟨f, present, rfl⟩ := mem_map.mp member
  exact none_ f present

lemma tally_extends {size : Frame → Nat} {kind : Frame → Prop} {frames later : List Frame}
    (added : Extends kind frames later) (none_ : ∀ f, kind f → size f = 0) : tally size later = tally size frames := by
  obtain ⟨more, rfl, kinds⟩ := added
  rw [tally_append, tally_eq_zero fun f member => none_ f (kinds f member), add_zero]

def onWire (f : Frame) : Frame := { f with streamId := f.streamId % 2 ^ 31 }

def Io.sentFrame (io : Io) (f : Frame) (tick : Nat) : Io :=
  { io with tick, written := io.written ++ [onWire f] }

lemma writeFrame_cases (env : Env) (io : Io) (f : Frame) : (∃ tick, io.writeFrame env f = (true, io.sentFrame f tick)) ∨
    ∃ tick, io.writeFrame env f = (false, { io with tick }) := by
  unfold Io.writeFrame Io.writeAll
  cases env.writes io.tick with dsimp only
  | some n => exact .inr ⟨io.tick + 1, rfl⟩
  | none =>
    split
    · exact .inl ⟨io.tick + 1, rfl⟩
    · cases env.writes (io.tick + 1) with
      | some n => exact .inr ⟨io.tick + 1 + 1, rfl⟩
      | none => exact .inl ⟨io.tick + 1 + 1, rfl⟩

variable {io io' : Io} {env : Env}

lemma writeFrame_true {f : Frame} (call : io.writeFrame env f = (true, io')) : ∃ tick, io' = io.sentFrame f tick := by
  rcases writeFrame_cases env io f with ⟨tick, wrote⟩ | ⟨tick, wrote⟩ <;> rw [wrote] at call <;> cases call
  exact ⟨tick, rfl⟩

lemma writeFrame_taken (f : Frame) (first : env.writes io.tick = none) (second : env.writes (io.tick + 1) = none) :
    (io.writeFrame env f).1 = true := by
  unfold Io.writeFrame Io.writeAll
  rw [first]
  dsimp only
  split
  · rfl
  · rw [second]

/-- The types of frame that no request and no window depends on. -/
def Control (type : UInt8) : Prop := type ≠ Frame.data ∧ type ≠ Frame.headers ∧ type ≠ Frame.windowUpdate

/-- Nothing happens but writes of frames of one kind and looks at the clock. -/
structure Io.Writes (kind : Frame → Prop) (io io' : Io) : Prop where
  rest : io'.rest = io.rest
  received : io'.received = io.received
  spends : io'.spends = io.spends
  sights : io'.sights = io.sights
  written : Extends kind io.written io'.written
  slips : io'.slips = io.slips

abbrev Io.Chatter : Io → Io → Prop := Io.Writes fun f => Control f.type

namespace Io.Writes

variable {kind : Frame → Prop} {f : Frame}

lemma tick (io : Io) (tick : Nat) : io.Writes kind { io with tick } :=
  ⟨rfl, rfl, rfl, rfl, .refl _ _, rfl⟩

lemma refl (io : Io) : io.Writes kind io := tick io io.tick

lemma trans {io₁ io₂ io₃ : Io} (first : io₁.Writes kind io₂) (second : io₂.Writes kind io₃) : io₁.Writes kind io₃ where
  rest := second.rest.trans first.rest
  received := second.received.trans first.received
  spends := second.spends.trans first.spends
  sights := second.sights.trans first.sights
  written := first.written.trans second.written
  slips := second.slips.trans first.slips

lemma failed (call : io.writeFrame env f = (false, io')) : io.Writes kind io' := by
  rcases writeFrame_cases env io f with ⟨tick, wrote⟩ | ⟨tick, wrote⟩ <;> rw [wrote] at call <;> cases call
  exact .tick io tick

lemma of_write {ok : Bool} (call : io.writeFrame env f = (ok, io')) (same : kind (onWire f)) : io.Writes kind io' := by
  cases ok with
  | false => exact .failed call
  | true =>
    obtain ⟨tick, rfl⟩ := writeFrame_true call
    exact ⟨rfl, rfl, rfl, rfl, .snoc _ same, rfl⟩

lemma writeFrame (env : Env) (io : Io) (same : kind (onWire f)) : io.Writes kind (io.writeFrame env f).2 :=
  of_write rfl same

end Io.Writes

lemma sendGoaway_chatter (env : Env) (io : Io) (code : UInt8) : io.Chatter (io.sendGoaway env code) :=
  have control : Control Frame.goaway := ⟨by decide, by decide, by decide⟩
  .writeFrame env io control

lemma sendRst_chatter (env : Env) (io : Io) (streamId : Nat) (code : UInt8) : io.Chatter (io.sendRst env streamId code) :=
  have control : Control Frame.rstStream := ⟨by decide, by decide, by decide⟩
  .writeFrame env io control

lemma readAll_some {len : Nat} {data : Bytes} (call : io.readAll env len = (some data, io')) :
    data.length = len ∧ io' = io.take len ∧ len ≤ io.rest.length := by
  unfold Io.readAll at call
  split at call
  · split at call
    next enough =>
      cases call
      exact ⟨length_take_of_le enough, rfl, enough⟩
    · cases call
  · cases call

lemma readAll_none {len : Nat} (call : io.readAll env len = (none, io')) : ∃ n, io' = io.take n := by
  unfold Io.readAll at call
  split at call
  · split at call
    · cases call
    · cases call
      exact ⟨_, rfl⟩
  · cases call
    exact ⟨_, rfl⟩

def Io.got (io : Io) (f : Frame) (rest : Bytes) (tick : Nat) : Io :=
  { io with rest, tick, received := io.received ++ [f] }

lemma readFrame_cases (env : Env) (io : Io) :
    (∃ f rest tick, io.readFrame env = (some f, io.got f rest tick) ∧ rest.length < io.rest.length ∧
      f.payload.length ≤ maxInboundFrame) ∨ ∃ n io', io.readFrame env = (none, io') ∧ (io.take n).Chatter io' := by
  unfold Io.readFrame
  rcases call : io.readAll env frameHeader with ⟨_ | hdr, after⟩
  · obtain ⟨n, rfl⟩ := readAll_none call
    exact .inr ⟨n, _, rfl, .refl _⟩
  obtain ⟨-, rfl, enough⟩ := readAll_some call
  have header : frameHeader = 9 := rfl
  dsimp only
  split
  · exact .inr ⟨frameHeader, _, rfl, sendGoaway_chatter env _ 0x06⟩
  rename_i small
  split
  · left
    refine ⟨_, _, _, rfl, ?_, Nat.zero_le _⟩
    simp only [Io.take, length_drop]
    omega
  generalize (Io.frameOfHeader hdr).2 = len at small
  rcases second : (io.take frameHeader).readAll env len with ⟨_ | payload, after⟩
  · obtain ⟨n, rfl⟩ := readAll_none second
    have both : (io.take frameHeader).take n =
        { io.take (frameHeader + n) with tick := io.tick + 1 + 1 } := by
      simp only [Io.take, drop_drop, add_assoc]
    refine .inr ⟨frameHeader + n, _, rfl, ?_⟩
    rw [both]
    exact .tick _ _
  · obtain ⟨length, rfl, room⟩ := readAll_some second
    left
    refine ⟨{ (Io.frameOfHeader hdr).1 with payload }, ((io.take frameHeader).take len).rest,
      ((io.take frameHeader).take len).tick, ?_, ?_, ?_⟩
    · rfl
    · simp only [Io.take, length_drop]
      omega
    · dsimp only
      omega

end Cwist.Grpc
