import Cwist.Basic
import Cwist.Lib.Buckets

/-!
# The query map

The chained hash table of `query.c` and the parser that fills it. The hash and the success of an allocation are
parameters.
-/

namespace Cwist.Http

def queryMapDefaultSize : Nat := 16

def maxBuckets : Nat := (2 ^ 64 - 1) / 8

structure QueryMap where
  buckets : List (List (CStr × CStr))
  count : Nat

namespace QueryMap

def size (map : QueryMap) : Nat := map.buckets.length

def create : QueryMap := ⟨List.replicate queryMapDefaultSize [], 0⟩

def clear (map : QueryMap) : QueryMap := ⟨map.buckets.map fun _ => [], 0⟩

section Hash
variable (hash : CStr → UInt64) (room : Nat → Bool)

def index (size : Nat) (key : CStr) : Nat := (hash key).toNat % size

section

variable (map : QueryMap)

/-- A table that cannot grow stays as it is. -/
def grow : QueryMap :=
  if map.size ≠ 0 ∧ map.count + 1 ≤ map.size - map.size / 4 then map
  else
    let newSize := if map.size ≠ 0 then map.size * 2 else queryMapDefaultSize
    if newSize ≤ map.size ∨ newSize > maxBuckets then map
    else if !room newSize then map
    else { map with buckets := Buckets.rehash (index hash newSize) newSize map.buckets.flatten }

def addNode (key value : CStr) : QueryMap :=
  ⟨Buckets.insert (index hash map.size) map.buckets (key, value), map.count + 1⟩

def setIn (key value : CStr) (chain : List (CStr × CStr)) : QueryMap :=
  match Buckets.assign key value chain with
  | some chain => { map with buckets := map.buckets.set (index hash map.size key) chain }
  | none =>
    let map := if map.count + 1 > map.size - map.size / 4 then map.grow hash room else map
    map.addNode hash key value

def set (key value : CStr) : QueryMap :=
  let map := if map.size = 0 then map.grow hash room else map
  match map.buckets[index hash map.size key]? with
  | none => map
  | some chain => map.setIn hash room key value chain

def get (key : CStr) : Option CStr :=
  if map.size = 0 then none else (map.buckets[index hash map.size key]?.getD []).lookup key

end

end Hash

end QueryMap

def urlDecodeHex (c : UInt8) : Option UInt8 :=
  if 0x30 ≤ c ∧ c ≤ 0x39 then some (c - 0x30)
  else if 0x41 ≤ c ∧ c ≤ 0x46 then some (c - 0x41 + 10)
  else if 0x61 ≤ c ∧ c ≤ 0x66 then some (c - 0x61 + 10)
  else none

def urlDecode : Bytes → Bytes
  | [] => []
  | c :: rest =>
    if c = 0x2b then 0x20 :: urlDecode rest
    else if c = 0x25 then
      match rest with
      | a :: b :: rest' =>
        match urlDecodeHex a, urlDecodeHex b with
        | some high, some low => (high <<< 4 ||| low) :: urlDecode rest'
        | _, _ => c :: urlDecode (a :: b :: rest')
      | rest => c :: urlDecode rest
    else c :: urlDecode rest

def splitPair (token : Bytes) : Option (Bytes × Bytes) :=
  match token.dropWhile (· != 0x3d) with
  | [] => none
  | _ :: value => some (token.takeWhile (· != 0x3d), value)

namespace QueryMap

variable (hash : CStr → UInt64) (room : Nat → Bool)

def parseToken (map : QueryMap) (token : Bytes) : QueryMap :=
  match splitPair token with
  | none => map
  | some (keyRaw, valueRaw) =>
    let key := CStr.ofBytes (urlDecode keyRaw)
    if (map.get hash key).isNone then map.set hash room key (.ofBytes (urlDecode valueRaw)) else map

def parseLoop (map : QueryMap) (seg : Bytes) : QueryMap :=
  if seg = [] then map
  else
    match _rest : seg.dropWhile (· != 0x26) with
    | [] => map.parseToken hash room seg
    | _ :: rest => (map.parseToken hash room (seg.takeWhile (· != 0x26))).parseLoop rest
termination_by seg.length
decreasing_by
  have shorter := (List.dropWhile_suffix (l := seg) (· != 0x26)).length_le
  rw [_rest, List.length_cons] at shorter
  omega

def parse (map : QueryMap) (rawQuery : CStr) : QueryMap := map.parseLoop hash room rawQuery.bytes

end QueryMap

end Cwist.Http
