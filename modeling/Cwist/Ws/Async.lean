import Cwist.Ws.Frame

/-!
# The event-driven WebSocket reader

The parser of `websocket_async.c` over its buffer, and what it does with each frame.
-/

namespace Cwist.Ws

def extended (size least : Nat) (base : Bytes) : Length Bytes :=
  if base.length < size then .more
  else if H2.getBytes (base.take size) < least then .short
  else .length (H2.getBytes (base.take size)) (base.drop size)

def lengthField (len7 : UInt8) (base : Bytes) : Length Bytes :=
  if len7 = 126 then extended 2 126 base
  else if len7 = 127 then extended 8 65536 base
  else .length len7.toNat base

def parseBehind (b0 b1 : UInt8) (base : Bytes) : Parsed Bytes :=
  match Opcode.ofNibble (b0 &&& 0x0F) with
  | none => .failed
  | some opcode =>
    let fin := b0 &&& 0x80 != 0
    if b0 &&& 0x70 ≠ 0 then .failed
    else if b1 &&& 0x80 = 0 then .failed
    else
      match lengthField (b1 &&& 0x7F) base with
      | .more => .more
      | .short => .short
      | .length len base =>
        if len > maxPayloadBytes then .failed
        else if opcode.isControl && (len > 125 || !fin) then .failed
        else if base.length < 4 + len then .more
        else .frame fin opcode (unmask (base.take 4) ((base.drop 4).take len)) (base.drop (4 + len))

def parseFrame : Bytes → Parsed Bytes
  | b0 :: b1 :: base => parseBehind b0 b1 base
  | _ => .more

/-- `sent` and `delivered` list what was queued for the peer and what the callback was given. -/
structure Async where
  fragBuf : Bytes
  fragOpcode : Opcode
  fragActive : Bool
  closed : Bool
  terminatePending : Bool
  sent : List (Opcode × Bytes)
  delivered : List Frame

namespace Async

def init : Async := ⟨[], .continuation, false, false, false, [], []⟩

section

variable (ws : Async)

def queueFrame (opcode : Opcode) (data : Bytes) : Async :=
  if sendArgsValid opcode data.length then { ws with sent := ws.sent ++ [(opcode, data)] } else ws

def closeCode (code : Nat) : Async :=
  if ws.closed then ws
  else { { ws with closed := true }.queueFrame .close (closeBody code) with terminatePending := true }

def fragAppend (src : Bytes) : Option Async :=
  if src.length > maxMessageBytes - ws.fragBuf.length then none else some { ws with fragBuf := ws.fragBuf ++ src }

def deliver (fin : Bool) (opcode : Opcode) (payload : Bytes) : Bool × Async :=
  if opcode = .text ∧ !utf8Valid payload then (false, ws.closeCode 1007)
  else if opcode = .close then
    match closeError payload with
    | some code => (false, ws.closeCode code)
    | none =>
      let ws := ws.queueFrame .close (if payload.length ≥ 2 then payload.take 2 else [])
      (true, { ws with closed := true, terminatePending := true })
  else
    let ws := if opcode = .ping then ws.queueFrame .pong payload else ws
    (true, { ws with delivered := ws.delivered ++ [⟨fin, opcode, payload⟩] })

def assemble (fin : Bool) (payload : Bytes) : Bool × Async :=
  match ws.fragAppend payload with
  | none => (false, { ws with fragBuf := [], fragActive := false })
  | some ws =>
    if !fin then (true, ws) else { ws with fragBuf := [], fragActive := false }.deliver fin ws.fragOpcode ws.fragBuf

def processFrame (fin : Bool) (opcode : Opcode) (payload : Bytes) : Bool × Async :=
  if opcode.isControl then ws.deliver fin opcode payload
  else if opcode = .continuation then if !ws.fragActive then (false, ws) else ws.assemble fin payload
  else if ws.fragActive then (false, ws)
  else if !fin then { ws with fragActive := true, fragOpcode := opcode }.assemble fin payload
  else ws.deliver fin opcode payload

end

end Async

variable {base rest payload : Bytes} {opcode : Opcode} {fin : Bool}

lemma lengthField_le {len7 : UInt8} {len : Nat} (read : lengthField len7 base = .length len rest) :
    rest.length ≤ base.length := by
  unfold lengthField extended at read
  split_ifs at read <;> cases read <;> simp

lemma parseBehind_le {b0 b1 : UInt8}
    (parsed : parseBehind b0 b1 base = .frame fin opcode payload rest) : rest.length ≤ base.length := by
  unfold parseBehind at parsed
  split at parsed
  · cases parsed
  dsimp only at parsed
  split at parsed
  · cases parsed
  split at parsed
  · cases parsed
  split at parsed
  · cases parsed
  · cases parsed
  rename_i length
  split at parsed
  · cases parsed
  split at parsed
  · cases parsed
  split at parsed
  · cases parsed
  cases parsed
  have := lengthField_le length
  rw [List.length_drop]
  omega

lemma parseFrame_shorter (parsed : parseFrame base = .frame fin opcode payload rest) : rest.length < base.length := by
  unfold parseFrame at parsed
  split at parsed
  · have := parseBehind_le parsed
    simp only [List.length_cons]
    omega
  · cases parsed

namespace Async

def feedLoop (ws : Async) (base : Bytes) : Bool × Async × Bytes :=
  match _parsed : parseFrame base with
  | .more => (true, ws, base)
  | .failed => (false, ws, base)
  | .short => (false, ws.closeCode 1002, base)
  | .frame fin opcode payload rest =>
    match ws.processFrame fin opcode payload with
    | (false, ws) => (false, ws, rest)
    | (true, ws) => if ws.terminatePending then (true, ws, rest) else ws.feedLoop rest
termination_by base.length
decreasing_by exact parseFrame_shorter _parsed

def serve (ws : Async) (stash : Bytes) : List Bytes → Async × Bool
  | [] => (ws, false)
  | seg :: segs =>
    match ws.feedLoop (stash ++ seg) with
    | (false, ws, _) => (ws, true)
    | (true, ws, stash) => if ws.terminatePending then (ws, true) else ws.serve stash segs

end Async

end Cwist.Ws
