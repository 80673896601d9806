import Cwist.App.MatchPath
import Cwist.Http.Request

namespace Cwist.App

open Http (Method QueryMap)

abbrev Ptr := Option Nat

structure Target where
  handler : Ptr := none
  handlerEx : Ptr := none
  userCtx : Ptr := none
  ctxDestroy : Ptr := none
  wsHandler : Ptr := none
  deriving DecidableEq

structure Route where
  name : Option CStr
  target : Target
  wsAsyncOnMessage : Ptr
  wsAsyncUserData : Ptr
  opts : UInt32
  deriving DecidableEq

abbrev Key := Method × CStr

abbrev RouteEntry := Key × Route

structure RouteTable where
  buckets : List (List RouteEntry)
  paramRoutes : List RouteEntry

def routeBuckets : Nat := 127

def endpointDefault : UInt32 := 1

def routeHasParams (path : CStr) : Bool := path.bytes.contains 0x3a

def methodCode : Method → UInt64
  | .get => 0
  | .post => 1
  | .put => 2
  | .delete => 3
  | .patch => 4
  | .head => 5
  | .options => 6
  | .connect => 7
  | .unknown => 8

def routeHash (bucketCount : Nat) (key : Key) : Nat :=
  let start : UInt64 := 1469598103934665603 ^^^ methodCode key.1
  (key.2.bytes.foldl (fun hash c => (hash ^^^ c.toUInt64) * 1099511628211) start).toNat % bucketCount

namespace RouteTable

def create : RouteTable := ⟨List.replicate routeBuckets [], []⟩

def setTarget (route : Route) (target : Target) (opts : UInt32) : Route :=
  { route with target, wsAsyncOnMessage := none, wsAsyncUserData := none, opts }

def entryCreate (name : Option CStr) (target : Target) (opts : UInt32) : Route := ⟨name, target, none, none, opts⟩

def retarget (key : Key) (target : Target) (opts : UInt32) : List RouteEntry → Option (List RouteEntry)
  | [] => none
  | curr :: rest =>
    if curr.1 = key then some ((curr.1, setTarget curr.2 target opts) :: rest)
    else (retarget key target opts rest).map (curr :: ·)

def insert (table : RouteTable) (path : CStr) (name : Option CStr) (method : Method) (target : Target) (opts : UInt32) :
    RouteTable :=
  let entry : RouteEntry := ((method, path), entryCreate name target opts)
  if routeHasParams path then { table with paramRoutes := entry :: table.paramRoutes }
  else
    let idx := routeHash table.buckets.length entry.1
    match retarget entry.1 target opts (table.buckets[idx]?.getD []) with
    | some chain => { table with buckets := table.buckets.set idx chain }
    | none => { table with buckets := Buckets.insert (routeHash table.buckets.length) table.buckets entry }

def word (s : Bytes) : Nat := Nat.ofDigits 256 (s.map UInt8.toNat)

def samePath (curr path : CStr) : Bool :=
  if path.length ≤ 8 then curr.length == path.length && word curr.bytes == word path.bytes
  else curr.length == path.length && curr.bytes == path.bytes

def lookup (table : RouteTable) (method : Method) (path : CStr) : Option RouteEntry :=
  (table.buckets[routeHash table.buckets.length (method, path)]?.getD []).find? fun curr =>
    curr.1.1 == method && samePath curr.1.2 path

section Params
variable (hash : CStr → UInt64) (room : Nat → Bool)

def matchParamsLoop (method : Method) (path : CStr) :
    List RouteEntry → Option QueryMap → Option RouteEntry × Option QueryMap
  | [], pathParams => (none, pathParams)
  | curr :: rest, pathParams =>
    if curr.1.1 = method then
      match pathParams with
      | none =>
        if (matchPath hash room curr.1.2 path none).1 then
          (some curr, (matchPath hash room curr.1.2 path (some .create)).2)
        else matchParamsLoop method path rest none
      | some map =>
        let (matched, pathParams) := matchPath hash room curr.1.2 path (some map)
        if matched then (some curr, pathParams) else matchParamsLoop method path rest pathParams
    else matchParamsLoop method path rest pathParams

def matchParams (table : RouteTable) (method : Method) (path : CStr) (pathParams : Option QueryMap) :
    Option RouteEntry × Option QueryMap :=
  matchParamsLoop hash room method path table.paramRoutes pathParams

def select (table : RouteTable) (method : Method) (path : CStr) (pathParams : Option QueryMap) : Option RouteEntry :=
  match table.lookup method path with
  | some route => some route
  | none => (table.matchParams hash room method path pathParams).1

end Params

def setAsync (key : Key) (onMessage userData : Ptr) : List RouteEntry → List RouteEntry
  | [] => []
  | curr :: rest =>
    if curr.1.1 == key.1 && samePath curr.1.2 key.2 then
      (curr.1, { curr.2 with wsAsyncOnMessage := onMessage, wsAsyncUserData := userData }) :: rest
    else curr :: setAsync key onMessage userData rest

end RouteTable

inductive Registration where
  /-- `cwist_app_get`, `_opt`, `_named` and those of the other methods. -/
  | named (path : CStr) (name : Option CStr) (method : Method) (handler : Ptr) (opts : UInt32)
  | ex (path : CStr) (method : Method) (handler userCtx destroy : Ptr)
  | ws (path : CStr) (handler : Ptr) (opts : UInt32)
  | wsAsync (path : CStr) (onMessage userData : Ptr)

namespace RouteTable

def defaultOpts (opts : UInt32) : UInt32 := if opts = 0 then endpointDefault else opts

def register (table : RouteTable) : Registration → RouteTable
  | .named path name method handler opts => table.insert path name method { handler } (defaultOpts opts)
  | .ex path method handler userCtx destroy =>
    if handler.isNone then table
    else table.insert path none method { handlerEx := handler, userCtx, ctxDestroy := destroy } endpointDefault
  | .ws path handler opts => table.insert path none .get { wsHandler := handler } (defaultOpts opts)
  | .wsAsync path onMessage userData =>
    if onMessage.isNone then table
    else
      let table := table.insert path none .get {} endpointDefault
      let idx := routeHash table.buckets.length (.get, path)
      { table with buckets := table.buckets.modify idx (setAsync (.get, path) onMessage userData) }

def build (regs : List Registration) : RouteTable := regs.foldl register create

def cloneTarget (entry : RouteEntry) : Target := { entry.2.target with ctxDestroy := none }

def cloneEntry (dst : RouteTable) (entry : RouteEntry) : RouteTable :=
  dst.insert entry.1.2 entry.2.name entry.1.1 (cloneTarget entry) entry.2.opts

def clone (src : RouteTable) : RouteTable :=
  src.paramRoutes.foldl cloneEntry (src.buckets.flatten.foldl cloneEntry create)

end RouteTable

end Cwist.App
