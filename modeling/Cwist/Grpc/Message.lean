import Cwist.Http2.Wire

/-!
# Length-prefixed messages

The five-octet prefix of gRPC, and the decoder that takes it in pieces.
-/

namespace Cwist.Grpc

open H2 (getBytes putU32)

def encodeMessage (payload : Bytes) : Option Bytes :=
  if payload.length > 2 ^ 32 - 1 then none else some (0 :: putU32 payload.length ++ payload)

/-- A decoder in a message: the prefix so far, and the payload so far of an announced length. -/
structure Decoder where
  maxMessageSize : Nat
  header : Bytes
  compressed : Nat
  payload : Bytes
  payloadLen : Nat
  deriving DecidableEq

namespace Decoder

def init : Decoder := ⟨16 * 1024 * 1024, [], 0, [], 0⟩

def feedPayload (d : Decoder) (input : Bytes) : Decoder × Option Bytes × Bytes :=
  let take := min (d.payloadLen - d.payload.length) input.length
  let payload := d.payload ++ input.take take
  if payload.length ≠ d.payloadLen then ({ d with payload }, none, input.drop take)
  else ({ d with header := [], payload := [], payloadLen := 0 }, some payload, input.drop take)

def feedStep (d : Decoder) (input : Bytes) : Bool × Decoder × Option Bytes × Bytes :=
  if d.header.length < 5 then
    let take := min (5 - d.header.length) input.length
    let header := d.header ++ input.take take
    let input := input.drop take
    if header.length < 5 then (true, { d with header }, none, input)
    else
      let d := { d with header, compressed := (header.getD 0 0).toNat, payloadLen := getBytes (header.drop 1) }
      if d.compressed > 1 ∨ d.payloadLen > d.maxMessageSize then (false, d, none, input) else (true, d.feedPayload input)
  else (true, d.feedPayload input)

def feedLoop : Nat → Decoder → Bytes → List Bytes → Bool × Decoder × List Bytes
  | 0, d, _, messages => (true, d, messages)
  | turns + 1, d, input, messages =>
    if input = [] then (true, d, messages)
    else
      match d.feedStep input with
      | (false, d, message, _) => (false, d, messages ++ message.toList)
      | (true, d, message, input) => feedLoop turns d input (messages ++ message.toList)

def feed (d : Decoder) (input : Bytes) : Bool × Decoder × List Bytes := feedLoop input.length d input []

end Decoder

example : (Decoder.init.feed [0, 0, 0, 0, 0, 0, 0, 0]).2.2 = [[]] ∧
    ((Decoder.init.feed [0, 0, 0, 0, 0, 0, 0, 0]).2.1.feed [0, 1, 7]).2.2 = [[7]] := by
  decide

end Cwist.Grpc
