import Cwist.Http.Chunked
import Cwist.Http.Request

namespace Cwist.App
open List

open Http (Method hexDigit)

def pathMax : Nat := 4096

/-- What `cwist_normalize_prefix` leaves: a slash in front, and none at the end unless it is the only octet. -/
def NormalPrefix (s : CStr) : Prop := ∃ rest, s.bytes = 0x2f :: rest ∧ rest.getLast? ≠ some 0x2f

structure StaticDir where
  urlPrefix : CStr
  fsRoot : CStr
  normal : NormalPrefix urlPrefix

/-- An absolute path without empty names, `.` and `..`. -/
def Canonical (path : Bytes) : Prop :=
  path = [0x2f] ∨
    ∃ rest, path = 0x2f :: rest ∧ ∀ name ∈ rest.splitOn 0x2f, name ≠ [] ∧ name ≠ ascii "." ∧ name ≠ ascii ".."

structure FileSystem where
  realpath : CStr → Option CStr
  canonical : ∀ path resolved, realpath path = some resolved → Canonical resolved.bytes ∧ resolved.length < pathMax
  settled : ∀ path resolved, realpath path = some resolved → realpath resolved = some resolved

def staticDecode : Bytes → Nat → Bytes
  | [], _ => []
  | _, 0 => []
  | c :: rest, room + 1 =>
    if c = 0x25 then
      match rest with
      | h :: l :: rest' =>
        match hexDigit h, hexDigit l with
        | some high, some low => (16 * high + low).toUInt8 :: staticDecode rest' room
        | _, _ => c :: staticDecode (h :: l :: rest') room
      | rest => c :: staticDecode rest room
    else if c = 0x2b then 0x20 :: staticDecode rest room
    else c :: staticDecode rest room

def parentRefFrom (prev : UInt8) : Bytes → Bool
  | [] => false
  | c :: rest =>
    (c == 0x2e && prev == 0x2f &&
      match rest with
      | next :: nextNext => next == 0x2e && (nextNext.head? == some 0x2f || nextNext == [])
      | [] => false) || parentRefFrom c rest

def hasParentRef (path : CStr) : Bool := parentRefFrom 0x2f path.bytes

def matchEntry (entry : StaticDir) (path : CStr) : Option (Option Bytes) :=
  if path.bytes = [] then none
  else if entry.urlPrefix.length = 0 then none
  else if entry.urlPrefix.bytes = [0x2f] then
    match path.bytes with
    | 0x2f :: [] => some none
    | 0x2f :: relative => some (some relative)
    | _ => none
  else if path.bytes.take entry.urlPrefix.length ≠ entry.urlPrefix.bytes then none
  else
    match path.bytes.drop entry.urlPrefix.length with
    | [] => some none
    | 0x2f :: relative => some (some relative)
    | _ => none

def firstMatch (path : CStr) : List StaticDir → Option (StaticDir × Option Bytes)
  | [] => none
  | entry :: rest =>
    match matchEntry entry path with
    | some relative => some (entry, relative)
    | none => firstMatch path rest

def prepareStatic (dirs : List StaticDir) (method : Method) (path : CStr) : Option (StaticDir × Option Bytes) :=
  if method = .get ∨ method = .head then firstMatch path dirs else none

inductive StaticError where
  | traversalBlocked
  | pathTooLong
  | notFound
  deriving DecidableEq

def StaticError.status : StaticError → Nat
  | traversalBlocked => 403
  | pathTooLong => 400
  | notFound => 404

def StaticError.body : StaticError → Bytes
  | traversalBlocked => ascii "Directory traversal blocked"
  | pathTooLong => ascii "Static path too long"
  | notFound => ascii "Not Found"

def relativeBuf : Option Bytes → Bytes
  | none | some [] => ascii "index.html"
  | some relative => relative.take (pathMax - 1)

def resolveStatic (fs : FileSystem) (entry : StaticDir) (relative : Option Bytes) : Except StaticError CStr :=
  let decoded := CStr.ofBytes (staticDecode (relativeBuf relative) (pathMax - 1))
  if hasParentRef decoded then .error .traversalBlocked
  else
    let fsPath := entry.fsRoot.bytes ++ 0x2f :: decoded.bytes
    if fsPath.length ≥ pathMax then .error .pathTooLong
    else
      match fs.realpath (.ofBytes fsPath) with
      | none => .error .notFound
      | some canonical =>
        let rootLen := entry.fsRoot.length
        if canonical.bytes.take rootLen ≠ entry.fsRoot.bytes ∨
            canonical.bytes[rootLen]? ≠ some 0x2f ∧ canonical.bytes[rootLen]? ≠ none then
          .error .traversalBlocked
        else .ok canonical

def servedFile (fs : FileSystem) (dirs : List StaticDir) (method : Method) (path : CStr) : Option (Except StaticError CStr) :=
  (prepareStatic dirs method path).map fun (entry, relative) => resolveStatic fs entry relative

end Cwist.App
