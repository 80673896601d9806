import Cwist.Basic

namespace Cwist.Jobs

def be32 (n : Nat) : Bytes :=
  [(n / 2 ^ 24 % 256).toUInt8, (n / 2 ^ 16 % 256).toUInt8, (n / 2 ^ 8 % 256).toUInt8, (n % 256).toUInt8]

def jqBlob (type : CStr) (attempts : Nat) (payload : Bytes) : Bytes :=
  be32 type.length ++ be32 attempts ++ type.bytes.take (type.length % 2 ^ 32) ++ payload

def blobNumber (blob : Bytes) (offset : Nat) : Nat :=
  let octet (i : Nat) : Nat := (blob[offset + i]?.getD 0).toNat
  octet 0 * 16777216 + octet 1 * 65536 + octet 2 * 256 + octet 3

def blobType (blob : Bytes) : CStr := .ofBytes ((blob.drop 8).take (blobNumber blob 0))

def blobPayload (blob : Bytes) : Bytes := blob.drop (8 + blobNumber blob 0)

def blobAttempts (blob : Bytes) : Nat := blobNumber blob 4

structure Entry where
  job : Nat
  type : CStr
  payload : Bytes
  deriving DecidableEq

structure Parked where
  job : Nat
  blob : Bytes
  due : Nat
  deriving DecidableEq

structure DeadLetter where
  job : Nat
  blob : Bytes
  deriving DecidableEq

structure Store where
  stream : List Entry
  delivered : Nat
  pending : List Nat
  attempts : Nat → Option Int
  delay : List Parked
  dead : List DeadLetter

namespace Store

def empty : Store := ⟨[], 0, [], fun _ => none, [], []⟩

def xadd (e : Entry) (r : Store) : Store := { r with stream := r.stream ++ [e] }

def xack (id : Nat) (r : Store) : Bool × Store := (decide (id ∈ r.pending), { r with pending := r.pending.erase id })

def count (r : Store) (id : Nat) : Int := (r.attempts id).getD 0

def hset (id : Nat) (n : Int) (r : Store) : Store := { r with attempts := Function.update r.attempts id (some n) }

def hincrby (id : Nat) (r : Store) : Int × Store := (r.count id + 1, r.hset id (r.count id + 1))

def hdel (id : Nat) (r : Store) : Store := { r with attempts := Function.update r.attempts id none }

/-- The order of a sorted set: by score, then by member. -/
def before (p q : Parked) : Prop := p.due < q.due ∨ p.due = q.due ∧ p.blob ≤ q.blob

instance : DecidableRel before := fun p q => inferInstanceAs (Decidable (p.due < q.due ∨ p.due = q.due ∧ p.blob ≤ q.blob))

def zadd (p : Parked) (r : Store) : Store :=
  match r.delay.find? fun q => q.blob == p.blob with
  | some q => { r with delay := (r.delay.erase q).orderedInsert before { q with due := p.due } }
  | none => { r with delay := r.delay.orderedInsert before p }

def rpush (d : DeadLetter) (r : Store) : Store := { r with dead := r.dead ++ [d] }

def nackScript (id next maxRetries : Nat) (p : Parked) (r : Store) : Store :=
  let (ok, r) := r.xack id
  if !ok then r
  else
    let r := r.hdel id
    if next > maxRetries then r.rpush ⟨p.job, p.blob⟩ else r.zadd p

def reapOne (r : Store) (p : Parked) : Store :=
  let id := r.stream.length
  let r := r.xadd ⟨p.job, blobType p.blob, blobPayload p.blob⟩
  let r := r.hset id ((blobAttempts p.blob : Int) - 1)
  { r with delay := r.delay.erase p }

def reapScript (now : Nat) (r : Store) : Store := ((r.delay.filter (·.due ≤ now)).take 128).foldl reapOne r

end Store

inductive Task where
  | idle
  | reaped
  /-- In the loop of `jq_redis_autoclaim`, before the count of the first candidate. -/
  | claimed (id : Nat) (e : Entry) (rest : List (Nat × Entry))
  | exhausted (id : Nat) (e : Entry) (attempts : Nat) (rest : List (Nat × Entry))
  | stored (id : Nat) (e : Entry) (rest : List (Nat × Entry))
  | removed (id : Nat) (rest : List (Nat × Entry))
  | missed
  | fresh (id : Nat) (e : Entry)
  | holding (id : Nat) (e : Entry) (attempts : Nat)
  | settled (id : Nat)

def Task.next : List (Nat × Entry) → Task
  | [] => .missed
  | (id, e) :: rest => .claimed id e rest

structure World where
  store : Store
  tasks : Nat → Task
  jobs : List (CStr × Bytes)
  acked : List Nat
  handed : List Nat

namespace World

def start : World := ⟨.empty, fun _ => .idle, [], [], []⟩

def setTask (w : World) (c : Nat) (t : Task) : World := { w with tasks := Function.update w.tasks c t }

end World

inductive Action where
  | enqueue (type : CStr) (payload : Bytes)
  | reap (c now : Nat)
  /-- `XAUTOCLAIM`, with the entries that have been idle for long enough. -/
  | autoclaim (c : Nat) (ids : List Nat)
  | readgroup (c : Nat)
  | count (c : Nat)
  | bury (c : Nat)
  | remove (c : Nat)
  | forget (c : Nat)
  | ack (c : Nat)
  | nack (c due : Nat)
  | crash (c : Nat)

def argumentMax : Nat := 512 * 1024 * 1024

def deliveryCount (n : Int) : Nat := if n > 0 then n.toNat % 2 ^ 32 else 1

section Steps

variable (maxRetries : Nat)

def countStep (w : World) (c : Nat) : World :=
  match w.tasks c with
  | .claimed id e rest =>
    let (n, store) := w.store.hincrby id
    let w := { w with store }
    if deliveryCount n ≤ maxRetries then
      { w with handed := w.handed ++ [e.job] }.setTask c (.holding id e (deliveryCount n))
    else w.setTask c (.exhausted id e (deliveryCount n) rest)
  | .fresh id e =>
    let (n, store) := w.store.hincrby id
    { w with store, handed := w.handed ++ [e.job] }.setTask c (.holding id e (deliveryCount n))
  | _ => w

def nackStep (w : World) (c due : Nat) : World :=
  match w.tasks c with
  | .holding id e attempts =>
    let next := (attempts + 1) % 2 ^ 32
    let store := w.store.nackScript id next maxRetries ⟨e.job, jqBlob e.type next e.payload, due⟩
    { w with store }.setTask c .idle
  | _ => w

def step (w : World) : Action → World
  | .enqueue type payload =>
    if type.length ≤ argumentMax ∧ payload.length ≤ argumentMax then
      { w with store := w.store.xadd ⟨w.jobs.length, type, payload⟩, jobs := w.jobs ++ [(type, payload)] }
    else w
  | .reap c now =>
    match w.tasks c with
    | .idle => { w with store := w.store.reapScript now }.setTask c .reaped
    | _ => w
  | .autoclaim c ids =>
    match w.tasks c with
    | .reaped =>
      if ids.length ≤ 128 ∧ ∀ id ∈ ids, id ∈ w.store.pending then
        w.setTask c (.next (ids.filterMap fun id => w.store.stream[id]?.map fun e => (id, e)))
      else w
    | _ => w
  | .readgroup c =>
    match w.tasks c with
    | .missed =>
      let id := w.store.delivered
      match w.store.stream[id]? with
      | none => w.setTask c .idle
      | some e =>
        { w with store := { w.store with delivered := id + 1, pending := w.store.pending ++ [id] } }.setTask c (.fresh id e)
    | _ => w
  | .count c => countStep maxRetries w c
  | .bury c =>
    match w.tasks c with
    | .exhausted id e attempts rest =>
      { w with store := w.store.rpush ⟨e.job, jqBlob e.type attempts e.payload⟩ }.setTask c (.stored id e rest)
    | _ => w
  | .remove c =>
    match w.tasks c with
    | .stored id _ rest => { w with store := (w.store.xack id).2 }.setTask c (.removed id rest)
    | _ => w
  | .forget c =>
    match w.tasks c with
    | .removed id rest => { w with store := w.store.hdel id }.setTask c (.next rest)
    | .settled id => { w with store := w.store.hdel id }.setTask c .idle
    | _ => w
  | .ack c =>
    match w.tasks c with
    | .holding id e _ =>
      let (ok, store) := w.store.xack id
      { w with store, acked := if ok then w.acked ++ [e.job] else w.acked }.setTask c (.settled id)
    | _ => w
  | .nack c due => nackStep maxRetries w c due
  | .crash c => w.setTask c .idle

def run (actions : List Action) : World := actions.foldl (step maxRetries) .start

end Steps

end Cwist.Jobs
