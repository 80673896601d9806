import Cwist.Basic

namespace Cwist.Http

inductive Method where
  | get | post | put | delete | patch | head | options | connect | unknown
  deriving DecidableEq, Repr

def methodMagic (str magic : Bytes) : Option Method :=
  if magic = ascii "GET " then some .get
  else if magic = ascii "POST" then some .post
  else if magic = ascii "PUT " then some .put
  else if magic = ascii "DELE" then if str.length ≥ 6 ∧ str.take 6 = ascii "DELETE" then some .delete else none
  else if magic = ascii "HEAD" then if str.length = 4 then some .head else none
  else none

def methodByLength (str : Bytes) : Method :=
  if str.length = 3 then
    if str = ascii "GET" then .get else if str = ascii "PUT" then .put else .unknown
  else if str.length = 4 then
    if str = ascii "POST" then .post else if str = ascii "HEAD" then .head else .unknown
  else if str.length = 5 then if str = ascii "PATCH" then .patch else .unknown
  else if str.length = 6 then if str = ascii "DELETE" then .delete else .unknown
  else if str.length = 7 then if str = ascii "OPTIONS" then .options else .unknown
  else .unknown

def stringToMethodLen (str following : Bytes) : Method :=
  if str.length ≥ 3 then (methodMagic str ((str ++ following).take 4)).getD (methodByLength str) else .unknown

/-- The octet behind a C string is its NUL. -/
def stringToMethod (str : Bytes) : Method := stringToMethodLen str [0]

structure Request where
  method : Method
  path : Bytes
  query : Bytes
  headers : List (Bytes × Bytes)
  body : Bytes
  contentLength : Nat
  deriving DecidableEq

def Request.create : Request := ⟨.get, ascii "/", [], [], [], 0⟩

def Request.headerAdd (req : Request) (name value : Bytes) : Request :=
  { req with headers := (name, value) :: req.headers }

end Cwist.Http
