import Cwist.Hpack.Block

namespace Cwist.Grpc

open H2 (HpackEntry decodeInteger decodeStringCounted staticHeader)

def headerTable : Nat := 4096

structure Hpack where
  head : List HpackEntry
  size : Nat
  cap : Nat
  deriving DecidableEq

namespace Hpack

def init : Hpack := ⟨[], 0, headerTable⟩

def evictLoop (limit : Nat) : Nat → Hpack → Hpack
  | 0, t => t
  | turns + 1, t =>
    if limit < t.size then
      match t.head.getLast? with
      | none => t
      | some old => evictLoop limit turns { t with head := t.head.dropLast, size := t.size - old.size }
    else t

def evictTo (t : Hpack) (limit : Nat) : Hpack := evictLoop limit t.head.length t

def insert (t : Hpack) (name value : CStr) : Hpack :=
  let size := name.length + value.length + 32
  if size > t.cap then t.evictTo 0
  else
    let t := t.evictTo (t.cap - size)
    { t with head := ⟨name, value, size, rfl⟩ :: t.head, size := t.size + size }

def get (t : Hpack) (index : Nat) : Option (CStr × CStr) :=
  match staticHeader index with
  | some entry => some entry
  | none => if index < 62 then none else (t.head[index - 62]?).map fun e => (e.name, e.value)

end Hpack

/-- The decoder inside a block. `stale` is set once a field has been handed over with a name borrowed from an entry that
its own insertion has evicted: in C that name is freed memory, here it is still the old one, so fields are as the source
has them only while the flag is down. -/
structure Scan where
  pos : Nat
  table : Hpack
  fields : List (CStr × CStr)
  stale : Bool
  deriving DecidableEq

namespace Scan

def hand (s : Scan) (name value : CStr) : Scan := { s with fields := s.fields ++ [(name, value)] }

def indexed (buf : Bytes) (s : Scan) : Except Scan Scan :=
  match decodeInteger buf s.pos 7 with
  | none => .error s
  | some (index, pos) =>
    match s.table.get index with
    | none => .error { s with pos }
    | some (name, value) => .ok ({ s with pos }.hand name value)

def string (buf : Bytes) (pos : Nat) : Option (CStr × Nat) :=
  (decodeStringCounted buf pos).map fun (octets, pos) => (.ofBytes octets, pos)

def literal (buf : Bytes) (prefixBits : Nat) (s : Scan) : Option (Nat × CStr × CStr × Nat) := do
  let (nameIndex, pos) ← decodeInteger buf s.pos prefixBits
  let (name, pos) ← if nameIndex ≠ 0 then (s.table.get nameIndex).map fun (name, _) => (name, pos) else string buf pos
  let (value, pos) ← string buf pos
  some (nameIndex, name, value, pos)

def incremental (buf : Bytes) (s : Scan) : Except Scan Scan :=
  match literal buf 6 s with
  | none => .error s
  | some (nameIndex, name, value, pos) =>
    let table := s.table.insert name value
    let kept := table.head.length - 1
    .ok ({ s with pos, table, stale := s.stale || (62 ≤ nameIndex && kept ≤ nameIndex - 62) }.hand name value)

def sizeUpdate (buf : Bytes) (s : Scan) : Except Scan Scan :=
  match decodeInteger buf s.pos 5 with
  | none => .error s
  | some (newSize, pos) =>
    if newSize > headerTable then .error { s with pos }
    else .ok { s with pos, table := { s.table with cap := newSize }.evictTo newSize }

def plain (buf : Bytes) (s : Scan) : Except Scan Scan :=
  match literal buf 4 s with
  | none => .error s
  | some (_, name, value, pos) => .ok ({ s with pos }.hand name value)

def step (buf : Bytes) (first : UInt8) (s : Scan) : Except Scan Scan :=
  if first.toNat &&& 0x80 ≠ 0 then s.indexed buf
  else if first.toNat &&& 0xc0 ≠ 0 then s.incremental buf
  else if first.toNat &&& 0x20 ≠ 0 then s.sizeUpdate buf
  else s.plain buf

def loop (buf : Bytes) : Nat → Scan → Except Scan Scan
  | 0, s => .ok s
  | turns + 1, s =>
    match buf[s.pos]? with
    | none => .ok s
    | some first => (s.step buf first).bind (loop buf turns)

end Scan

def Hpack.decode (t : Hpack) (buf : Bytes) : Bool × Scan :=
  match Scan.loop buf buf.length ⟨0, t, [], false⟩ with
  | .ok s => (true, s)
  | .error s => (false, s)

end Cwist.Grpc
