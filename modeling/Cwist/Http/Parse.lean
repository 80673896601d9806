import Cwist.Http.Chunked
import Cwist.Http.Method
import Cwist.Http.Response

/-!
# HTTP/1 requests

The request line, the single pass over the header lines and the checks behind it, as in `cwist_http_parse_request_len`.
-/

namespace Cwist.Http
open Delimit

inductive ParseError where
  | eof | malformed | headerOverflow | bodyTooLarge | teUnsupported | expectFailed
  deriving DecidableEq, Repr

structure WireRequest extends Request where
  version : Bytes
  keepAlive : Bool
  teChunkedSeen : Bool
  expect100Seen : Bool
  deriving DecidableEq

def isBlank (c : UInt8) : Bool := c == 0x20 || c == 0x09

def parseContentLength (value : Bytes) : Option Nat :=
  if value = [] then none
  else
    value.foldlM (fun len c =>
      if 0x30 ≤ c ∧ c ≤ 0x39 then
        if len > (2 ^ 64 - 1 - 9) / 10 then none else some (len * 10 + (c.toNat - 0x30))
      else none) 0

/-- The flags that a single pass over the lines sets; they are judged behind it. -/
structure HeaderPass where
  headers : List (Bytes × Bytes)
  keepAlive : Bool
  hasHost : Bool
  hostDup : Bool
  hostEmpty : Bool
  clSeen : Bool
  clBad : Bool
  clValue : Nat
  contentLength : Nat
  teSeen : Bool
  expect100 : Bool
  expectBad : Bool

namespace HeaderPass

def init (keepAlive : Bool) : HeaderPass :=
  ⟨[], keepAlive, false, false, false, false, false, 0, 0, false, false, false⟩

section

variable (value : Bytes) (pass : HeaderPass)

def seeConnection : HeaderPass :=
  if caseEq value (ascii "close") then { pass with keepAlive := false }
  else if caseEq value (ascii "keep-alive") then { pass with keepAlive := true }
  else pass

def seeContentLength : HeaderPass :=
  match parseContentLength (value.rdropWhile isBlank) with
  | none => { pass with clBad := true }
  | some len =>
    { pass with
      clBad := pass.clBad || pass.clSeen && pass.clValue != len
      clSeen := true
      clValue := len
      contentLength := len }

def seeHost : HeaderPass :=
  { pass with
    hostDup := pass.hostDup || pass.hasHost
    hasHost := true
    hostEmpty := pass.hostEmpty || (value.rdropWhile isBlank).isEmpty }

def seeExpect : HeaderPass :=
  if caseEq (value.rdropWhile isBlank) (ascii "100-continue") then { pass with expect100 := true }
  else { pass with expectBad := true }

end

def see (key value : Bytes) (pass : HeaderPass) : HeaderPass :=
  if key.length = 10 then
    -- two words compared with the bit for lower case set, in which only letters are equal
    if key.map (· ||| 0x20) = ascii "connection" then pass.seeConnection value else pass
  else if key.length = 14 then if caseEq key (ascii "Content-Length") then pass.seeContentLength value else pass
  else if key.length = 4 then if caseEq key (ascii "Host") then pass.seeHost value else pass
  else if key.length = 17 then
    if caseEq key (ascii "Transfer-Encoding") then { pass with teSeen := true } else pass
  else if key.length = 6 then if caseEq key (ascii "Expect") then pass.seeExpect value else pass
  else pass

def line (pass : HeaderPass) (line : Bytes) : Option HeaderPass :=
  match cut [0x3a] line with
  | none => some pass
  | some (key, after) =>
    if key.getLast?.any isBlank then none
    else
      let value := after.dropWhile (· == 0x20)
      some (see key value { pass with headers := (key, value) :: pass.headers })

def loop (pass : HeaderPass) (buf : Bytes) : Option HeaderPass :=
  if buf.length ≤ 2 then some pass
  else
    match _found : cut crlf buf with
    | none | some ([], _) => some pass
    | some (text, after) => (pass.line text).bind fun pass => pass.loop after
termination_by buf.length
decreasing_by have := cut_crlf_length _found; omega

end HeaderPass

def codings (value : Bytes) : List Bytes :=
  match value with
  | [] => []
  | c :: rest =>
    let start := (c :: rest).dropWhile fun c => isBlank c || c == 0x2c
    let token := (start.takeWhile (· != 0x2c)).rdropWhile isBlank
    let next := (start.dropWhile (· != 0x2c)).drop 1
    if token = [] then codings next else token :: codings next
termination_by value.length
decreasing_by
  all_goals
    have shorter := (List.dropWhile_suffix (· != 0x2c) (l := start)).length_le
    have := (List.dropWhile_suffix (fun c => isBlank c || c == 0x2c) (l := c :: rest)).length_le
    rw [List.length_drop]
    simp only [start, List.length_cons] at shorter this ⊢
    omega

def validateTransferEncoding (headers : List (Bytes × Bytes)) : Except ParseError Unit :=
  let values := (headers.filter fun (key, _) => caseEq (CStr.ofBytes key).bytes (ascii "Transfer-Encoding")).map
    fun (_, value) => codings (CStr.ofBytes value).bytes
  let isChunked := fun coding => caseEq coding (ascii "chunked")
  match values with
  | [] => .ok ()
  | final :: _ =>
    if ¬final.getLast?.any isChunked then .error .malformed
    else if values.any fun tokens => tokens.any fun coding => !isChunked coding then .error .teUnsupported
    else .ok ()

structure RequestLine where
  method : Method
  path : Bytes
  query : Bytes
  version : Bytes
  keepAlive : Bool

def requestLine (line : Bytes) : Option RequestLine :=
  if line = ascii "GET / HTTP/1.1" then some ⟨.get, ascii "/", [], ascii "HTTP/1.1", true⟩
  else
    match cut [0x20] line with
    | none => none
    | some (token, behind) =>
      match cut [0x20] behind with
      | none => none
      | some (target, version) =>
        let (path, query) := (cut [0x3f] target).getD (target, [])
        some ⟨stringToMethodLen token (0x20 :: behind), path, query, version, (ascii "HTTP/1.1").isPrefixOf version⟩

def HeaderPass.check (pass : HeaderPass) (isHttp11 : Bool) : Except ParseError Unit :=
  if isHttp11 && (!pass.hasHost || pass.hostDup || pass.hostEmpty) then .error .malformed
  else if pass.clBad then .error .malformed
  else if pass.teSeen && pass.clSeen then .error .malformed
  else
    match if pass.teSeen then validateTransferEncoding pass.headers else .ok () with
    | .error e => .error e
    | .ok () => if pass.expectBad then .error .expectFailed else .ok ()

def parseRequestWithHeaderEnd (block rest : Bytes) : Except ParseError WireRequest :=
  match cut crlf (block ++ crlf) with
  | none => .error .malformed
  | some (first, after) =>
    match requestLine first with
    | none => .error .malformed
    | some line =>
      match (HeaderPass.init line.keepAlive).loop after with
      | none => .error .malformed
      | some pass => do
        pass.check ((ascii "HTTP/1.1").isPrefixOf line.version)
        let len := pass.contentLength
        let toTake := if len > 0 ∧ len < rest.length then len else rest.length
        .ok
          { method := line.method, path := line.path, query := line.query, headers := pass.headers
            body := rest.take toTake, contentLength := len, version := line.version, keepAlive := pass.keepAlive
            teChunkedSeen := pass.teSeen, expect100Seen := pass.expect100 }

def crlfcrlf : Bytes := crlf ++ crlf

def parseRequestLen (raw : Bytes) : Option WireRequest :=
  match cut crlfcrlf raw with
  | none => none
  | some (block, rest) => (parseRequestWithHeaderEnd block rest).toOption

end Cwist.Http
