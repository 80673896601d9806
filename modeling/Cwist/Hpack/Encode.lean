import Cwist.Hpack.Integer
import Cwist.Hpack.Table
import Cwist.Http.Response

/-!
# Encoding headers

Literals without indexing into a buffer of fixed capacity: the status, the headers of a response and pairs of trailers.
-/

namespace Cwist.H2

open Http (Response toLower caseEq headerGet decimal)

def encodeString (dstCap : Nat) (str : Bytes) : Nat × Bytes :=
  let (n, octets) := encodeInteger 0 dstCap (str.length % 2 ^ 32) 7
  if n = 0 ∨ n + str.length > dstCap then (0, octets) else (n + str.length, octets ++ str)

def emit (cap : Nat) (call : Nat → Nat × Bytes) (out : Bytes) : Except Bytes Bytes :=
  let (n, octets) := call (cap - out.length)
  if n = 0 then .error (out ++ octets) else .ok (out ++ octets)

def emitIndex (cap index : Nat) (out : Bytes) : Except Bytes Bytes :=
  if out.length + 1 > cap then .error out else emit cap (fun room => encodeInteger 0 room index 4) out

def emitString (cap : Nat) (str out : Bytes) : Except Bytes Bytes := emit cap (fun room => encodeString room str) out

def staticTableFindName (name : Bytes) : Nat :=
  match staticEntries.findIdx? fun (known, _) => caseEq known.bytes name with
  | some i => i + 1
  | none => 0

def lowerName (name : Bytes) : Bytes := (name.take 255).map toLower

def emitPair (cap : Nat) (out : Bytes) (name value : Bytes) : Except Bytes Bytes := do
  let index := staticTableFindName name
  let out ← emitIndex cap index out
  let out ← if index = 0 then emitString cap name out else .ok out
  emitString cap value out

def encodeHeaderPairs (cap : Nat) (pairs : List (CStr × CStr)) : Except Bytes Bytes :=
  pairs.foldlM (fun out (name, value) => emitPair cap out (lowerName name.bytes) value.bytes) []

def statusForbidsBody (statusCode : Nat) : Bool :=
  (100 ≤ statusCode && statusCode < 200) || statusCode == 204 || statusCode == 304

def emitStatus (cap statusCode : Nat) : Except Bytes Bytes :=
  let indexed (octet : UInt8) : Except Bytes Bytes := if 0 ≥ cap then .error [] else .ok [octet]
  match statusCode with
  | 200 => indexed 0x88
  | 204 => indexed 0x89
  | 206 => indexed 0x8a
  | 304 => indexed 0x8b
  | 400 => indexed 0x8c
  | 404 => indexed 0x8d
  | 500 => indexed 0x8e
  | other => do
    let out ← emitIndex cap 0 []
    let out ← emitString cap (ascii ":status") out
    emitString cap (decimal other) out

def grpcTrailerNames : List Bytes := ["grpc-status", "grpc-message", "grpc-retry-pushback-ms"].map ascii

def skipsHeader (grpcMode : Bool) (name : CStr) (value : Bytes) : Bool :=
  let among (names : List Bytes) : Bool := names.any (caseEq name.bytes)
  let text := (CStr.ofBytes value).bytes
  caseEq name.bytes (ascii "content-length") ||
    among (["connection", "keep-alive", "proxy-connection", "transfer-encoding", "upgrade"].map ascii) ||
    (caseEq name.bytes (ascii "te") && !caseEq text (ascii "trailers")) ||
    (grpcMode && among grpcTrailerNames) ||
    text.any (fun c => c == 0x0d || c == 0x0a) || text.length != value.length

def encodeResponseHeaders (res : Response) (cap : Nat) (grpcMode : Bool) : Except Bytes Bytes := do
  let out ← emitStatus cap res.statusCode
  let out ← if grpcMode || statusForbidsBody res.statusCode then .ok out
    else emitPair cap out (ascii "content-length") (decimal res.bodyLen)
  res.headers.foldlM (fun out (name, value) =>
    if skipsHeader grpcMode name value then .ok out
    else emitPair cap out (lowerName name.bytes) (CStr.ofBytes value).bytes) out

def encodeResponseBlock (res : Response) (grpcMode : Bool) : Option Bytes :=
  (List.range 7).findSome? fun i =>
    match encodeResponseHeaders res (16384 * 2 ^ i) grpcMode with
    | .ok out => if out = [] then none else some out
    | .error _ => none

end Cwist.H2
