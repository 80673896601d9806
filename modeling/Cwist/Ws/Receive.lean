import Cwist.Ws.Frame

/-!
# The blocking WebSocket reader

`cwist_websocket_receive` over what the peer sends, as the segments that `recv` returns.
-/

namespace Cwist.Ws
open List

/-- Waits for all the octets: `none` if the segments end before. -/
def readExact : Nat → List Bytes → Option (Bytes × List Bytes)
  | 0, segs => some ([], segs)
  | _ + 1, [] => none
  | n + 1, seg :: segs =>
    if n + 1 < seg.length then some (seg.take (n + 1), seg.drop (n + 1) :: segs)
    else (readExact (n + 1 - seg.length) segs).map fun (got, segs) => (seg ++ got, segs)

def skip : Nat → List Bytes → List Bytes
  | 0, segs => segs
  | _ + 1, [] => []
  | n + 1, seg :: segs => if n + 1 < seg.length then seg.drop (n + 1) :: segs else skip (n + 1 - seg.length) segs

variable {segs segs' : List Bytes} {opcode : Opcode} {payload : Bytes} {fin : Bool}

lemma skip_flatten (n : Nat) (segs : List Bytes) : (skip n segs).flatten = segs.flatten.drop n := by
  induction segs generalizing n with
  | nil => cases n <;> simp [skip]
  | cons seg segs ih =>
    cases n with
    | zero => rfl
    | succ n =>
      rw [skip, flatten_cons]
      split
      · rw [drop_append_of_le_length (by omega), flatten_cons]
      · have all : seg.drop (n + 1) = [] := drop_of_length_le (by omega)
        rw [ih, drop_append, all, nil_append]

lemma readExact_eq (n : Nat) (segs : List Bytes) :
    readExact n segs = if n ≤ segs.flatten.length then some (segs.flatten.take n, skip n segs) else none := by
  induction segs generalizing n with
  | nil => cases n <;> simp [readExact, skip]
  | cons seg segs ih =>
    cases n with
    | zero => simp [readExact, skip]
    | succ n =>
      rw [readExact, skip, flatten_cons, length_append]
      split
      · rw [if_pos (by omega), take_append_of_le_length (by omega)]
      have all : seg.take (n + 1) = seg := take_of_length_le (by omega)
      rw [ih, take_append, all]
      by_cases enough : n + 1 - seg.length ≤ segs.flatten.length
      · rw [if_pos enough, if_pos (by omega)]
        rfl
      · rw [if_neg enough, if_neg (by omega)]
        rfl

lemma readExact_some {n : Nat} {got : Bytes} (read : readExact n segs = some (got, segs')) :
    segs'.flatten.length + n = segs.flatten.length := by
  rw [readExact_eq] at read
  split at read
  · cases read
    rw [skip_flatten, length_drop]
    omega
  · cases read

def readExtended (size least : Nat) (segs : List Bytes) : Length (List Bytes) :=
  match readExact size segs with
  | none => .more
  | some (field, segs) => if H2.getBytes field < least then .short else .length (H2.getBytes field) segs

def readLength (len7 : UInt8) (segs : List Bytes) : Length (List Bytes) :=
  if len7 = 126 then readExtended 2 126 segs
  else if len7 = 127 then readExtended 8 65536 segs
  else .length len7.toNat segs

def readPayload (fin : Bool) (opcode : Opcode) (len : Nat) (segs : List Bytes) : Parsed (List Bytes) :=
  match readExact 4 segs with
  | none => .more
  | some (mask, segs) =>
    match readExact len segs with
    | none => .more
    | some (payload, segs) => .frame fin opcode (unmask mask payload) segs

def readBehind (b0 b1 : UInt8) (segs : List Bytes) : Parsed (List Bytes) :=
  match Opcode.ofNibble (b0 &&& 0x0F) with
  | none => .failed
  | some opcode =>
    if b0 &&& 0x70 ≠ 0 then .failed
    else if b1 &&& 0x80 = 0 then .failed
    else
      match readLength (b1 &&& 0x7F) segs with
      | .more => .more
      | .short => .short
      | .length len segs =>
        if len > maxPayloadBytes then .failed
        else if opcode.isControl && len > 125 then .failed
        else readPayload (b0 &&& 0x80 != 0) opcode len segs

def readFrame (segs : List Bytes) : Parsed (List Bytes) :=
  match readExact 2 segs with
  | none => .more
  | some (head, segs) => readBehind (head.getD 0 0) (head.getD 1 0) segs

lemma readExtended_le {size least len : Nat}
    (read : readExtended size least segs = .length len segs') : segs'.flatten.length ≤ segs.flatten.length := by
  unfold readExtended at read
  split at read
  · cases read
  rename_i got
  split at read
  · cases read
  · cases read
    have := readExact_some got
    omega

lemma readLength_le {len7 : UInt8} {len : Nat}
    (read : readLength len7 segs = .length len segs') : segs'.flatten.length ≤ segs.flatten.length := by
  unfold readLength at read
  split_ifs at read
  · exact readExtended_le read
  · exact readExtended_le read
  · cases read
    exact le_rfl

lemma readPayload_eq (fin : Bool) (opcode : Opcode) (len : Nat) (segs : List Bytes) :
    readPayload fin opcode len segs =
      if segs.flatten.length < 4 + len then .more
      else
        .frame fin opcode (unmask (segs.flatten.take 4) ((segs.flatten.drop 4).take len)) (skip len (skip 4 segs)) := by
  unfold readPayload
  rw [readExact_eq]
  by_cases key : 4 ≤ segs.flatten.length
  · rw [if_pos key]
    dsimp only
    rw [readExact_eq, skip_flatten, length_drop]
    by_cases there : len ≤ segs.flatten.length - 4
    · rw [if_pos there, if_neg (by omega)]
    · rw [if_neg there, if_pos (by omega)]
  · rw [if_neg key, if_pos (by omega)]

lemma readBehind_le {b0 b1 : UInt8}
    (read : readBehind b0 b1 segs = .frame fin opcode payload segs') : segs'.flatten.length ≤ segs.flatten.length := by
  unfold readBehind at read
  split at read
  · cases read
  split at read
  · cases read
  split at read
  · cases read
  split at read
  · cases read
  · cases read
  rename_i length
  split at read
  · cases read
  split at read
  · cases read
  rw [readPayload_eq] at read
  split at read
  · cases read
  cases read
  have := readLength_le length
  simp only [skip_flatten, length_drop]
  omega

lemma readFrame_shorter
    (read : readFrame segs = .frame fin opcode payload segs') : segs'.flatten.length < segs.flatten.length := by
  unfold readFrame at read
  split at read
  · cases read
  rename_i got
  have := readExact_some got
  have := readBehind_le read
  omega

/-- `sent` lists what the reader answers on its own: pongs and closes. -/
structure WebSocket where
  isClosed : Bool
  fragBuf : Bytes
  fragOpcode : Opcode
  sent : List (Opcode × Bytes)

namespace WebSocket

def init : WebSocket := ⟨false, [], .continuation, []⟩

def send (ws : WebSocket) (opcode : Opcode) (data : Bytes) : WebSocket :=
  if ws.isClosed || !sendArgsValid opcode data.length then ws else { ws with sent := ws.sent ++ [(opcode, data)] }

def fragAppend (ws : WebSocket) (src : Bytes) : Option WebSocket :=
  if src = [] then some ws
  else if ws.fragBuf.length + src.length > maxMessageBytes then none
  else some { ws with fragBuf := ws.fragBuf ++ src }

def closeWith (ws : WebSocket) (body : Bytes) : WebSocket := { ws.send .close body with isClosed := true }

inductive Handled where
  | again (ws : WebSocket)
  | null (ws : WebSocket)
  | deliver (frame : Frame) (ws : WebSocket)

section

variable (ws : WebSocket)

def complete (fin : Bool) (opcode : Opcode) (payload : Bytes) : Handled :=
  if opcode = .text ∧ !utf8Valid payload then .null (ws.closeWith (closeBody 1007))
  else if opcode = .close then
    match closeError payload with
    | some code => .null (ws.closeWith (closeBody code))
    | none => .deliver ⟨fin, opcode, payload⟩ (ws.closeWith (if payload.length ≥ 2 then payload.take 2 else []))
  else if opcode = .ping then .deliver ⟨fin, opcode, payload⟩ (ws.send .pong payload)
  else .deliver ⟨fin, opcode, payload⟩ ws

def buffer (payload : Bytes) : Handled :=
  match ws.fragAppend payload with
  | none => .null ws
  | some ws => .again ws

def assemble (fin : Bool) (payload : Bytes) : Handled :=
  match ws.fragAppend payload with
  | none => .null { ws with fragBuf := [], fragOpcode := .continuation }
  | some ws' => { ws' with fragBuf := [], fragOpcode := .continuation }.complete fin ws'.fragOpcode ws'.fragBuf

def handle (fin : Bool) (opcode : Opcode) (payload : Bytes) : Handled :=
  if opcode.isControl ∧ !fin then .null ws
  else if !opcode.isControl ∧ !fin then
    if opcode = .continuation then if ws.fragOpcode = .continuation then .null ws else ws.buffer payload
    else if ws.fragOpcode ≠ .continuation then .null ws
    else { ws with fragOpcode := opcode }.buffer payload
  else if !opcode.isControl ∧ opcode = .continuation ∧ ws.fragOpcode = .continuation then .null ws
  else if !opcode.isControl ∧ ws.fragOpcode ≠ .continuation then
    if opcode ≠ .continuation then .null ws else ws.assemble fin payload
  else ws.complete fin opcode payload

end

/-- `blocked`: the reader waits for more than the peer has sent. -/
inductive Received where
  | frame (frame : Frame) (ws : WebSocket) (segs : List Bytes)
  | null (ws : WebSocket)
  | blocked (ws : WebSocket)

def receiveLoop (ws : WebSocket) (segs : List Bytes) : Received :=
  match _read : readFrame segs with
  | .more => .blocked ws
  | .failed => .null ws
  | .short => .null (ws.closeWith (closeBody 1002))
  | .frame fin opcode payload segs =>
    match ws.handle fin opcode payload with
    | .again ws => ws.receiveLoop segs
    | .null ws => .null ws
    | .deliver frame ws => .frame frame ws segs
termination_by segs.flatten.length
decreasing_by exact readFrame_shorter _read

def receive (ws : WebSocket) (segs : List Bytes) : Received := if ws.isClosed then .null ws else ws.receiveLoop segs

lemma receiveLoop_shorter {ws ws' : WebSocket} {frame : Frame}
    (received : ws.receiveLoop segs = .frame frame ws' segs') : segs'.flatten.length < segs.flatten.length := by
  fun_induction receiveLoop ws segs with
  | case1 | case2 | case3 | case5 => cases received
  | case4 ws segs fin opcode payload rest read ws1 handled ih => exact (ih received).trans (readFrame_shorter read)
  | case6 ws segs fin opcode payload rest read frame' ws1 handled =>
    cases received
    exact readFrame_shorter read

lemma receive_shorter {ws ws' : WebSocket} {frame : Frame}
    (received : ws.receive segs = .frame frame ws' segs') : segs'.flatten.length < segs.flatten.length := by
  unfold receive at received
  split at received
  · cases received
  · exact receiveLoop_shorter received

/-- What a loop of calls hands out, and whether it ended with the connection. -/
structure Served where
  frames : List Frame
  ws : WebSocket
  ended : Bool

def serve (ws : WebSocket) (segs : List Bytes) : Served :=
  match _received : ws.receive segs with
  | .frame frame ws segs =>
    let served := ws.serve segs
    { served with frames := frame :: served.frames }
  | .null ws => ⟨[], ws, true⟩
  | .blocked ws => ⟨[], ws, false⟩
termination_by segs.flatten.length
decreasing_by exact receive_shorter _received

end WebSocket

end Cwist.Ws
