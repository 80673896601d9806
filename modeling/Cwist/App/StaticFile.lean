import Cwist.Http.Response
import Cwist.Lib.Numeral

namespace Cwist.App

open Http (Response caseEq decimal)

def strtoull (s : Bytes) : Option (Nat × Bytes) :=
  let s := s.dropWhile isSpace
  let digits := if s.head? = some 0x2d ∨ s.head? = some 0x2b then s.tail else s
  let n := digitsValue (digits.takeWhile isDigit)
  if digits.takeWhile isDigit = [] then none
  else
    let value := if 2 ^ 64 ≤ n then 2 ^ 64 - 1 else if s.head? = some 0x2d then (2 ^ 64 - n) % 2 ^ 64 else n
    some (value, digits.dropWhile isDigit)

def hexOctet (d : Nat) : UInt8 := if d < 10 then (0x30 + d).toUInt8 else (0x61 + (d - 10)).toUInt8

def hexadecimal (n : Nat) : Bytes := if n = 0 then [0x30] else (Nat.digits 16 n).reverse.map hexOctet

structure CachedFile where
  fsPath : CStr
  data : Bytes
  lastMod : Int
  lastModHdr : Bytes
  small : data.length < 2 ^ 63

namespace CachedFile

section

variable (file : CachedFile)

def size : Nat := file.data.length

def tag : Bytes :=
  hexadecimal (file.lastMod % 2 ^ 64).toNat ++ 0x2d :: hexadecimal file.size

def etag : Bytes := 0x22 :: (file.tag ++ [0x22])

def extension : Option Bytes :=
  if 0x2e ∈ file.fsPath.bytes then some (0x2e :: (file.fsPath.bytes.reverse.takeWhile (· != 0x2e)).reverse) else none

def mime : Bytes :=
  let types : List (String × String) :=
    [(".html", "text/html; charset=utf-8"), (".css", "text/css; charset=utf-8"), (".js", "application/javascript"),
      (".json", "application/json"), (".png", "image/png"), (".jpg", "image/jpeg"), (".jpeg", "image/jpeg"),
      (".gif", "image/gif"), (".svg", "image/svg+xml"), (".txt", "text/plain; charset=utf-8")]
  match file.extension with
  | none => ascii "application/octet-stream"
  | some dot =>
    match types.find? fun (name, _) => caseEq dot (ascii name) with
    | some (_, type) => ascii type
    | none => ascii "application/octet-stream"

end

end CachedFile

structure StaticRequest where
  isHead : Bool
  ifNoneMatch : Option CStr
  ifModifiedSince : Option CStr
  range : Option CStr

/-- The part of the C library that reads dates: `strptime` on a text and a format, which fills in a `struct tm`, and
`timegm`. -/
structure DateLibrary where
  Tm : Type
  zero : Tm
  strptime : CStr → Bytes → Tm → Bool × Tm
  timegm : Tm → Int

section Handler

variable (lib : DateLibrary)

/-- `cwist_http_parse_date`. A failed `strptime` hands what it has filled in to the next one. -/
def parseDate (str : CStr) : Int :=
  let imf := lib.strptime str (ascii "%a, %d %b %Y %H:%M:%S %Z") lib.zero
  if imf.1 then lib.timegm imf.2
  else
    let rfc850 := lib.strptime str (ascii "%a, %d-%b-%y %H:%M:%S %Z") imf.2
    if rfc850.1 then lib.timegm rfc850.2
    else
      let asctime := lib.strptime str (ascii "%a %b %d %H:%M:%S %Y") rfc850.2
      if asctime.1 then lib.timegm asctime.2 else -1

def notModified (req : StaticRequest) (file : CachedFile) : Bool :=
  if req.ifNoneMatch.map CStr.bytes = some file.etag then true
  else
    match req.ifModifiedSince with
    | none => false
    | some value => parseDate lib value ≠ -1 && file.lastMod ≤ parseDate lib value

def readRange (size : Nat) (p : Bytes) : Option (Nat × Nat) :=
  let last := (size + (2 ^ 64 - 1)) % 2 ^ 64
  match p with
  | 0x2d :: suffix =>
    match strtoull suffix with
    | some (sv, []) => some (if size > sv then size - sv else 0, last)
    | _ => none
  | _ =>
    match strtoull p with
    | none => none
    | some (rs, _) =>
      match p.dropWhile (· != 0x2d) with
      | _ :: c :: rest =>
        match strtoull (c :: rest) with
        | some (re, _) => some (rs, re)
        | none => some (rs, last)
      | _ => some (rs, last)

def headerAdd (headers : List (CStr × Bytes)) (key : String) (value : Bytes) : List (CStr × Bytes) :=
  if 0x0d ∈ value ∨ 0x0a ∈ value then headers else (.ofBytes (ascii key), value) :: headers

def cacheControlOf (cacheControl : Option Bytes) : Bytes := cacheControl.getD (ascii "public, max-age=3600")

def notModifiedResponse (cacheControl : Option Bytes) (file : CachedFile) : Response :=
  let headers := headerAdd [] "ETag" file.etag
  let headers := headerAdd headers "Last-Modified" file.lastModHdr
  ⟨304, headerAdd headers "Cache-Control" (cacheControlOf cacheControl), [], none, none⟩

def rangeNotSatisfiable (file : CachedFile) : Response :=
  ⟨416, headerAdd [] "Content-Range" (ascii "bytes */" ++ decimal file.size), [], none, none⟩

def bodyHeaders (headers : List (CStr × Bytes)) (cacheControl : Option Bytes) (file : CachedFile) (sendLen : Nat) :
    List (CStr × Bytes) :=
  let headers := headerAdd headers "Content-Length" (decimal sendLen)
  let headers := headerAdd headers "Content-Type" file.mime
  let headers := headerAdd headers "ETag" file.etag
  let headers := headerAdd headers "Last-Modified" file.lastModHdr
  let headers := headerAdd headers "Cache-Control" (cacheControlOf cacheControl)
  headerAdd headers "Accept-Ranges" (ascii "bytes")

def contentRange (first last size : Nat) : Bytes :=
  ascii "bytes " ++ decimal first ++ 0x2d :: decimal last ++ 0x2f :: decimal size

section

variable (cacheControl : Option Bytes)

def partialContent (file : CachedFile) (rangeStart rangeEnd : Nat) : Response :=
  let sendLen := rangeEnd - rangeStart + 1
  let headers := headerAdd [] "Content-Range" (contentRange rangeStart rangeEnd file.size)
  ⟨206, bodyHeaders headers cacheControl file sendLen, [], some ((file.data.drop rangeStart).take sendLen), none⟩

def wholeFile (file : CachedFile) : Response :=
  ⟨200, bodyHeaders [] cacheControl file file.size, [], some file.data, none⟩

def serveFile (req : StaticRequest) (file : CachedFile) : Response :=
  if notModified lib req file then notModifiedResponse cacheControl file
  else
    match req.range with
    | none => wholeFile cacheControl file
    | some value =>
      if value.bytes.take 6 = ascii "bytes=" then
        match readRange file.size (value.bytes.drop 6) with
        | none => rangeNotSatisfiable file
        | some (rangeStart, rangeEnd) =>
          if rangeStart > rangeEnd ∨ rangeStart ≥ file.size then rangeNotSatisfiable file
          else partialContent cacheControl file rangeStart (if rangeEnd ≥ file.size then file.size - 1 else rangeEnd)
      else wholeFile cacheControl file

end

end Handler

end Cwist.App
