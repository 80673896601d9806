import Cwist.Lib.Incremental
import Cwist.Grpc.Server.Session

/-!
# Messages that a server call receives

Octets become messages as they arrive, or all at once from a whole body. Decompression is a parameter.
-/

namespace Cwist.Grpc.Server
open H2 (getBytes)

inductive InflateError where
  | corrupt | tooLarge
  deriving DecidableEq

variable (inflate : Bytes → Except InflateError Bytes)

namespace Session

def decode (s : Session) (compressed : Nat) (payload : Bytes) : Option Session :=
  if compressed ≠ 0 then
    if !s.gzip then none
    else
      match inflate payload with
      | .ok data => s.push data
      | .error _ => none
  else s.push payload

def feedLoop : Nat → Session → Bytes → Bool × Session
  | 0, s, _ => (true, s)
  | turns + 1, s, input =>
    if input = [] then (true, s)
    else
      match s.decoder.feedStep input with
      | (false, decoder, _, _) => (false, { s with decoder })
      | (true, decoder, none, rest) => feedLoop turns { s with decoder } rest
      | (true, decoder, some payload, rest) =>
        match { s with decoder }.decode inflate decoder.compressed payload with
        | none => (false, { s with decoder })
        | some s => feedLoop turns s rest

def fail (s : Session) (status : Status) (message : Bytes) : Session :=
  (s.markFailed status (some message)).sendTrailers status (some message) .done .done

def onData (s : Session) (data : Bytes) : Session :=
  match s.feedLoop inflate data.length data with
  | (true, s) => s
  | (false, s) =>
    if !s.gzip then s.fail .unimplemented (ascii "compressed gRPC message without grpc-encoding: gzip")
    else s.fail .invalidArgument (ascii "malformed gRPC message frame")

def inbound (s : Session) : List Bytes → Session
  | [] => s.markEof
  | data :: frames =>
    let s := s.onData inflate data
    if s.cancelled then s else s.inbound frames

end Session

def decodeNextMessage (frames : Bytes) : Option (Nat × Bytes × Bytes) :=
  if frames.length < 5 then none
  else
    let len := getBytes ((frames.drop 1).take 4)
    if len > frames.length - 5 then none
    else some ((frames.getD 0 0).toNat, (frames.drop 5).take len, frames.drop (5 + len))

lemma decodeNextMessage_shorter {frames rest payload : Bytes} {flag : Nat}
    (decoded : decodeNextMessage frames = some (flag, payload, rest)) : rest.length < frames.length := by
  unfold decodeNextMessage at decoded
  split at decoded
  · cases decoded
  dsimp only at decoded
  split at decoded
  · cases decoded
  · cases decoded
    rw [List.length_drop]
    omega

def decodeMessages (body : Bytes) : Option (List (Nat × Bytes)) :=
  if body = [] then some []
  else
    match _decoded : decodeNextMessage body with
    | none => none
    | some (flag, payload, rest) => (decodeMessages rest).map fun messages => (flag, payload) :: messages
termination_by body.length
decreasing_by exact decodeNextMessage_shorter _decoded

def messageInflate (gzip : Bool) : Nat × Bytes → Except InflateError Bytes
  | (flag, payload) => if flag = 0 then .ok payload else if !gzip then .error .corrupt else inflate payload

def inflateAll (gzip : Bool) : List (Nat × Bytes) → Except InflateError (List Bytes)
  | [] => .ok []
  | message :: messages =>
    match messageInflate inflate gzip message with
    | .error e => .error e
    | .ok data =>
      match inflateAll gzip messages with
      | .error e => .error e
      | .ok rest => .ok (data :: rest)

def dispatchStream (gzip : Bool) (body : Bytes) : Except (Status × Bytes) (List Bytes) :=
  if body = [] then .error (.invalidArgument, ascii "missing gRPC request body")
  else
    match decodeMessages body with
    | none => .error (.invalidArgument, ascii "malformed gRPC stream frame")
    | some messages =>
      match inflateAll inflate gzip messages with
      | .ok messages => .ok messages
      | .error .tooLarge => .error (.resourceExhausted, ascii "decompressed gRPC message exceeds size limit")
      | .error .corrupt => .error (.unimplemented, ascii "unsupported compressed gRPC message")

end Cwist.Grpc.Server
