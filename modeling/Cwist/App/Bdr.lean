import Cwist.Core.SipHash
import Cwist.Lib.Buckets

/-!
# The reply cache

`big_dumb_reply.c`: a reply is learned for a request once two observations in a row agree, and a request is known by
a hash of its path alone.
-/

namespace Cwist.App

open Cwist.Core (siphash24)

structure BdrEntry where
  responseHash : UInt64
  isStable : Bool
  blob : Option Bytes
  hits : UInt64
  createdAt : Int

structure Bdr where
  buckets : List (List (UInt64 × BdrEntry))
  currentBytes : Nat
  maxBytes : Nat
  maxEntryAgeSec : Int
  revalidateHits : UInt64
  gcCursor : Nat
  putCount : UInt64
  isDiskMode : Bool

structure BdrEnv where
  now : Int
  entryRoom : Bool
  blobRoom : Bool
  spills : Bool

def bdrBuckets : Nat := 1024

def bdrKey : Bytes := [0, 1, 2, 3, 4, 5, 6, 7, 8, 9, 10, 11, 12, 13, 14, 15]

def bdrHash (path : CStr) : UInt64 := siphash24 path.bytes bdrKey ^^^ 0x47

def bdrHashData (data : Bytes) : UInt64 := siphash24 data bdrKey

def blobLen (entry : BdrEntry) : Nat := (entry.blob.map List.length).getD 0

namespace Bdr

def create (maxBytes : Nat) (maxEntryAgeSec : Int) (revalidateHits : UInt64) : Bdr :=
  ⟨List.replicate bdrBuckets [], 0, maxBytes, maxEntryAgeSec, revalidateHits, 0, 0, false⟩

def place (reqH : UInt64) : Nat := reqH.toNat % bdrBuckets

def chain (bdr : Bdr) (reqH : UInt64) : List (UInt64 × BdrEntry) := bdr.buckets[place reqH]?.getD []

def find (bdr : Bdr) (reqH : UInt64) : Option BdrEntry := (bdr.chain reqH).lookup reqH

def setEntry (bdr : Bdr) (reqH : UInt64) (entry : BdrEntry) : Bdr :=
  match Buckets.assign reqH entry (bdr.chain reqH) with
  | some chain => { bdr with buckets := bdr.buckets.set (place reqH) chain }
  | none => bdr

def publish (bdr : Bdr) (reqH : UInt64) (old entry : BdrEntry) : Bdr :=
  { bdr.setEntry reqH entry with currentBytes := bdr.currentBytes + blobLen entry - blobLen old }

def findOrInsert (bdr : Bdr) (env : BdrEnv) (reqH : UInt64) : Bdr × Option BdrEntry :=
  match bdr.find reqH with
  | some entry => (bdr, some entry)
  | none =>
    if env.entryRoom then
      let entry : BdrEntry := ⟨0, false, none, 0, env.now⟩
      ({ bdr with buckets := Buckets.insert place bdr.buckets (reqH, entry) }, some entry)
    else (bdr, none)

def shouldDecay (bdr : Bdr) (entry : BdrEntry) (now : Int) : Bool :=
  bdr.maxEntryAgeSec > 0 && entry.createdAt > 0 && now - entry.createdAt > bdr.maxEntryAgeSec ||
    entry.isStable && bdr.revalidateHits > 0 && entry.hits ≥ bdr.revalidateHits

def thin (bdr : Bdr) (idx : Nat) (retired : UInt64 × BdrEntry → Bool) : Bdr :=
  let gone := (bdr.buckets[idx]?.getD []).filter retired
  { bdr with
    buckets := bdr.buckets.modify idx (·.filter fun e => !retired e)
    currentBytes := gone.foldl (fun bytes e => bytes - blobLen e.2) bdr.currentBytes }

def sweep (bdr : Bdr) (now : Int) : Nat → Bdr
  | 0 => bdr
  | steps + 1 =>
    let idx := bdr.gcCursor % bdrBuckets
    let bdr := { bdr with gcCursor := (bdr.gcCursor + 1) % bdrBuckets }
    (bdr.thin idx fun e => bdr.shouldDecay e.2 now).sweep now steps

def oldest (bdr : Bdr) : Option (UInt64 × BdrEntry) :=
  bdr.buckets.flatten.foldl
    (fun victim e =>
      if e.2.blob.isNone then victim
      else
        match victim with
        | none => some e
        | some v => if e.2.createdAt < v.2.createdAt then some e else some v)
    none

def trim (bdr : Bdr) : Nat → Bdr
  | 0 => bdr
  | turns + 1 =>
    if bdr.currentBytes > bdr.maxBytes then
      match bdr.oldest with
      | none => bdr
      | some victim => (bdr.thin (place victim.1) fun e => e.1 == victim.1).trim turns
    else bdr

def checkRam (bdr : Bdr) (env : BdrEnv) : Bdr :=
  if !bdr.isDiskMode && env.spills then
    { bdr with
      buckets := bdr.buckets.map fun _ => []
      currentBytes := bdr.buckets.flatten.foldl (fun bytes e => bytes - blobLen e.2) bdr.currentBytes
      isDiskMode := true }
  else bdr

def janitorTick (bdr : Bdr) (env : BdrEnv) : Bdr :=
  let bdr := { bdr with putCount := bdr.putCount + 1 }
  if bdr.putCount % 64 ≠ 0 then bdr
  else
    let bdr := (bdr.checkRam env).sweep env.now 8
    if bdr.maxBytes > 0 then bdr.trim bdr.buckets.flatten.length else bdr

def get (bdr : Bdr) (method path : CStr) : Bdr × Option Bytes :=
  if method.bytes ≠ ascii "GET" ∨ bdr.isDiskMode then (bdr, none)
  else
    match bdr.find (bdrHash path) with
    | none => (bdr, none)
    | some entry =>
      (bdr.setEntry (bdrHash path) { entry with hits := entry.hits + 1 }, if entry.isStable then entry.blob else none)

def learn (bdr : Bdr) (env : BdrEnv) (reqH : UInt64) (entry : BdrEntry) (data : Bytes) : Bdr :=
  let resH := bdrHashData data
  if entry.isStable then
    if entry.responseHash ≠ resH then
      bdr.publish reqH entry ⟨resH, false, none, 0, env.now⟩
    else bdr
  else if entry.responseHash = resH then
    if env.blobRoom then bdr.publish reqH entry ⟨resH, true, some data, 0, env.now⟩ else bdr
  else bdr.setEntry reqH { entry with responseHash := resH }

def put (bdr : Bdr) (env : BdrEnv) (method path : CStr) (data : Bytes) : Bdr :=
  if data = [] ∨ method.bytes ≠ ascii "GET" ∨ bdr.isDiskMode then bdr
  else
    let reqH := bdrHash path
    match bdr.findOrInsert env reqH with
    | (bdr, none) => bdr
    | (bdr, some entry) => (bdr.learn env reqH entry data).janitorTick env

def putFixed (bdr : Bdr) (env : BdrEnv) (method path : CStr) (data : Bytes) : Bdr :=
  if data = [] ∨ method.bytes ≠ ascii "GET" ∨ bdr.isDiskMode then bdr
  else
    let reqH := bdrHash path
    match bdr.findOrInsert env reqH with
    | (bdr, none) => bdr
    | (bdr, some entry) =>
      if env.blobRoom then
        (bdr.publish reqH entry ⟨bdrHashData data, true, some data, 0, env.now⟩).janitorTick env
      else bdr

end Bdr

end Cwist.App
