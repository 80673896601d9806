import Cwist.Lib.Numeral

/-!
# The reader of Redis replies

`redis_recv_line`, `redis_recv_bytes`, `redis_read_resp` and `redis_command_frame_tree` of `cwist_redis.c`.
-/

namespace Cwist.Redis

inductive Arrival where
  | octet (c : UInt8)
  | fault
  deriving DecidableEq

structure Conn where
  arrivals : List Arrival
  asked : Nat

structure Error where
  errI16 : Int
  deriving DecidableEq

def makeError : Error := ⟨0⟩

def lineMax : Nat := 8192

def maxBulkBytes : Nat := 512 * 1024 * 1024

def maxReplyDepth : Nat := 16

def maxReplyElements : Nat := 2 ^ 20

def stripCr (line : Bytes) : Bytes := if line.getLast? = some 0x0d then line.dropLast else line

def recvLineLoop : Nat → Bytes → List Arrival → Option Bytes × List Arrival
  | 0, _, arrivals => (none, arrivals)
  | _ + 1, _, [] => (none, [])
  | _ + 1, _, .fault :: rest => (none, rest)
  | room + 1, line, .octet c :: rest =>
    if c = 0x0a then (some (stripCr line), rest) else recvLineLoop room (line ++ [c]) rest

def recvLine (arrivals : List Arrival) : Option Bytes × List Arrival := recvLineLoop (lineMax - 1) [] arrivals

def recvBytes : Nat → List Arrival → Option Bytes × List Arrival
  | 0, arrivals => (some [], arrivals)
  | _ + 1, [] => (none, [])
  | _ + 1, .fault :: rest => (none, rest)
  | n + 1, .octet c :: rest => ((recvBytes n rest).1.map (c :: ·), (recvBytes n rest).2)

def cString (text : Bytes) : Bytes := text.takeWhile (· != 0)

def clamp (n : Int) : Int := max (-2 ^ 63) (min n (2 ^ 63 - 1))

def strtoll (s : Bytes) : Option (Int × Bytes) :=
  let s := s.dropWhile isSpace
  let digits := if s.head? = some 0x2d ∨ s.head? = some 0x2b then s.tail else s
  let n : Int := digitsValue (digits.takeWhile isDigit)
  if digits.takeWhile isDigit = [] then none
  else some (clamp (if s.head? = some 0x2d then -n else n), digits.dropWhile isDigit)

def number (text : Bytes) : Option Int :=
  match strtoll (cString text) with
  | some (n, []) => some n
  | _ => none

inductive Tree where
  | node (type : UInt8) (str : Option Bytes) (integer : Int) (element : List (Option Tree))

structure Outcome where
  error : Error
  tree : Option Tree
  conn : Conn

def fail (conn : Conn) : Outcome := ⟨makeError, none, conn⟩

section Reader

variable (room : Nat → Bool)

def Conn.alloc (conn : Conn) : Bool × Conn := (room conn.asked, { conn with asked := conn.asked + 1 })

def readText (error : Error) (type : UInt8) (integer : Int) (text : Bytes) (conn : Conn) : Outcome :=
  let (ok, conn) := conn.alloc room
  if ok then ⟨error, some (.node type (some (cString text)) integer []), conn⟩ else fail conn

def readBulk (blen : Nat) (conn : Conn) : Outcome :=
  if blen > maxBulkBytes then fail conn
  else
    let (ok, conn) := conn.alloc room
    if !ok then fail conn
    else
      match recvBytes blen conn.arrivals with
      | (none, arrivals) => fail { conn with arrivals }
      | (some buf, arrivals) =>
        match recvBytes 2 arrivals with
        | (none, arrivals) => fail { conn with arrivals }
        | (some _, arrivals) => ⟨⟨0⟩, some (.node 0x24 (some buf) blen []), { conn with arrivals }⟩

def readElements (read : Conn → Outcome) : Nat → Conn → Option (List (Option Tree)) × Conn
  | 0, conn => (some [], conn)
  | count + 1, conn =>
    if (read conn).error.errI16 ≠ 0 then (none, (read conn).conn)
    else
      let (elements, conn') := readElements read count (read conn).conn
      (elements.map ((read conn).tree :: ·), conn')

def readArray (read : Conn → Outcome) (text : Bytes) (conn : Conn) : Outcome :=
  match number text with
  | none => fail conn
  | some count =>
    if count < 0 ∨ count > maxReplyElements then fail conn
    else if count = 0 then ⟨⟨0⟩, some (.node 0x2a none 0 []), conn⟩
    else
      let (ok, conn) := conn.alloc room
      if !ok then fail conn
      else
        match readElements read count.toNat conn with
        | (none, conn) => fail conn
        | (some element, conn) => ⟨⟨0⟩, some (.node 0x2a none 0 element), conn⟩

def readLine (array : Bytes → Conn → Outcome) (conn : Conn) : Bytes → Outcome
  | [] => fail conn
  | type :: text =>
    if type = 0x2b then readText room ⟨0⟩ type 0 text conn
    else if type = 0x2d then readText room makeError type 0 text conn
    else if type = 0x3a then
      match number text with
      | none => fail conn
      | some v => readText room ⟨0⟩ type v text conn
    else if type = 0x24 then
      match number text with
      | none => fail conn
      | some blen => if blen < 0 then ⟨⟨0⟩, some (.node type none 0 []), conn⟩ else readBulk room blen.toNat conn
    else if type = 0x2a then array text conn
    else fail conn

def readNode (array : Bytes → Conn → Outcome) (conn : Conn) : Outcome :=
  let (ok, conn) := conn.alloc room
  if !ok then fail conn
  else
    match recvLine conn.arrivals with
    | (none, arrivals) => fail { conn with arrivals }
    | (some line, arrivals) => readLine room array { conn with arrivals } line

def readResp : Nat → Conn → Outcome
  | 0 => readNode room fun _ conn => fail conn
  | levels + 1 => readNode room (readArray room (readResp levels))

def commandFrameTree (sent : Bool) (conn : Conn) : Outcome :=
  if sent then readResp room maxReplyDepth conn else ⟨makeError, none, conn⟩

end Reader

inductive Reply where
  | simple (s : Bytes)
  | error (s : Bytes)
  | integer (n : Int)
  | bulk (s : Bytes)
  | nullBulk
  | array (elements : List Reply)
  | nullArray

mutual

def Tree.meaning : Tree → Option Reply
  | .node type str integer element =>
    if type = 0x2b then str.map .simple
    else if type = 0x2d then str.map .error
    else if type = 0x3a then some (.integer integer)
    else if type = 0x24 then some (str.elim .nullBulk .bulk)
    else if type = 0x2a then (meaningAll element).map .array
    else none

def meaningAll : List (Option Tree) → Option (List Reply)
  | [] => some []
  | none :: _ => none
  | some tree :: rest =>
    match tree.meaning, meaningAll rest with
    | some reply, some replies => some (reply :: replies)
    | _, _ => none

end

end Cwist.Redis
