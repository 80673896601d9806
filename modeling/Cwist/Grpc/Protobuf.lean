import Cwist.Basic

/-!
# Protocol buffers

The growing writer and the field reader of `protobuf.c`. Whether `realloc` succeeds is an input, numbered by the calls made.
-/

namespace Cwist.Pb

inductive WireType where
  | varint | bits64 | len | bits32
  deriving DecidableEq, Repr

namespace WireType

def code : WireType → UInt64
  | varint => 0
  | bits64 => 1
  | len => 2
  | bits32 => 5

def ofCode (code : UInt64) : Option WireType :=
  if code = 0 then some varint
  else if code = 1 then some bits64
  else if code = 2 then some len
  else if code = 5 then some bits32
  else none

end WireType

def maxFieldNumber : UInt32 := 536870911

def sizeMax : Nat := 2 ^ 64 - 1

/-- `reallocs` counts the calls of `realloc`, so that each has its own answer. -/
structure Writer where
  data : Bytes
  cap : Nat
  reallocs : Nat

def Writer.init : Writer := ⟨[], 0, 0⟩

/-- The capacity is doubled until it suffices, or taken as needed where doubling would wrap. -/
def doubled (cap need : Nat) : Nat :=
  if 0 < cap ∧ cap < need then if cap > sizeMax / 2 then need else doubled (cap * 2) need else cap
termination_by need - cap

namespace Writer

def reserve (mem : Nat → Bool) (w : Writer) (extra : Nat) : Bool × Writer :=
  if extra > sizeMax - w.data.length then (false, w)
  else if w.data.length + extra ≤ w.cap then (true, w)
  else if mem w.reallocs then
    (true, { w with
      cap := doubled (if w.cap = 0 then 64 else w.cap) (w.data.length + extra)
      reallocs := w.reallocs + 1 })
  else (false, { w with reallocs := w.reallocs + 1 })

def andThen : Bool × Writer → (Writer → Bool × Writer) → Bool × Writer
  | (true, w), next => next w
  | (false, w), _ => (false, w)

def append (octets : Bytes) (w : Writer) : Bool × Writer := (true, { w with data := w.data ++ octets })

end Writer

def varintOctets (value : UInt64) : Bytes :=
  if 0x80 ≤ value.toNat then (value ||| 0x80).toUInt8 :: varintOctets (value >>> 7) else [value.toUInt8]
termination_by value.toNat
decreasing_by
  rw [UInt64.toNat_shiftRight, Nat.shiftRight_eq_div_pow]
  have : (7 : UInt64).toNat % 64 = 7 := rfl
  rw [this]
  omega

namespace Writer

variable (mem : Nat → Bool)

section

variable (w : Writer)

def writeVarint (value : UInt64) : Bool × Writer :=
  andThen (w.reserve mem 10) (append (varintOctets value))

def writeKey (fieldNumber : UInt32) (wireType : WireType) : Bool × Writer :=
  if fieldNumber = 0 ∨ fieldNumber > maxFieldNumber then (false, w)
  else w.writeVarint mem (fieldNumber.toUInt64 <<< 3 ||| wireType.code)

def writeUint64Field (fieldNumber : UInt32) (value : UInt64) : Bool × Writer :=
  andThen (w.writeKey mem fieldNumber .varint) (·.writeVarint mem value)

def writeInt64Field (fieldNumber : UInt32) (value : Int64) : Bool × Writer :=
  w.writeUint64Field mem fieldNumber value.toUInt64

def writeBoolField (fieldNumber : UInt32) (value : Int32) : Bool × Writer :=
  w.writeUint64Field mem fieldNumber (if value = 0 then 0 else 1)

def writeRaw32 (value : UInt32) : Bool × Writer :=
  andThen (w.reserve mem 4)
    (append [value.toUInt8, (value >>> 8).toUInt8, (value >>> 16).toUInt8, (value >>> 24).toUInt8])

def writeRaw64 (value : UInt64) : Bool × Writer :=
  andThen (w.reserve mem 8) (append ((List.range 8).map fun i => (value >>> UInt64.ofNat (i * 8)).toUInt8))

def writeFixed32Field (fieldNumber : UInt32) (value : UInt32) : Bool × Writer :=
  andThen (w.writeKey mem fieldNumber .bits32) (·.writeRaw32 mem value)

def writeFixed64Field (fieldNumber : UInt32) (value : UInt64) : Bool × Writer :=
  andThen (w.writeKey mem fieldNumber .bits64) (·.writeRaw64 mem value)

def writeFloatField (fieldNumber : UInt32) (bits : UInt32) : Bool × Writer :=
  w.writeFixed32Field mem fieldNumber bits

def writeDoubleField (fieldNumber : UInt32) (bits : UInt64) : Bool × Writer :=
  w.writeFixed64Field mem fieldNumber bits

def writeBytesField (fieldNumber : UInt32) (data : Bytes) : Bool × Writer :=
  andThen (w.writeKey mem fieldNumber .len) fun w =>
    andThen (w.writeVarint mem (UInt64.ofNat data.length)) fun w => andThen (w.reserve mem data.length) (append data)

def writeStringField (fieldNumber : UInt32) (value : CStr) : Bool × Writer :=
  w.writeBytesField mem fieldNumber value.bytes

end

end Writer

/-- The reader is what is left of the buffer. -/
def readVarintLoop (value : UInt64) (shift : Nat) : Bytes → Option UInt64 × Bytes
  | [] => (none, [])
  | byte :: rest =>
    if shift > 63 then (none, byte :: rest)
    else if shift = 63 ∧ (byte &&& 0x7f) > 1 then (none, rest)
    else
      let value := value ||| (byte &&& 0x7f).toUInt64 <<< UInt64.ofNat shift
      if byte &&& 0x80 = 0 then (some value, rest) else readVarintLoop value (shift + 7) rest

def readVarint (r : Bytes) : Option UInt64 × Bytes := readVarintLoop 0 0 r

structure Field where
  number : UInt32
  wireType : WireType
  varint : UInt64
  bytes : Bytes
  deriving DecidableEq

inductive Read where
  | field (field : Field)
  | finished
  | malformed
  deriving DecidableEq

def readBytes (number : UInt32) (wireType : WireType) (len : Nat) (r : Bytes) : Read × Bytes :=
  if len > r.length then (.malformed, r) else (.field ⟨number, wireType, 0, r.take len⟩, r.drop len)

def readPayload (number : UInt32) (r : Bytes) : WireType → Read × Bytes
  | .varint =>
    match readVarint r with
    | (none, r) => (.malformed, r)
    | (some varint, r) => (.field ⟨number, .varint, varint, []⟩, r)
  | .len =>
    match readVarint r with
    | (none, r) => (.malformed, r)
    | (some len, r) => readBytes number .len len.toNat r
  | .bits32 => readBytes number .bits32 4 r
  | .bits64 => readBytes number .bits64 8 r

def readField (r : Bytes) : Read × Bytes :=
  if r = [] then (.finished, r)
  else
    match readVarint r with
    | (none, r) => (.malformed, r)
    | (some key, r) =>
      if key >>> 3 = 0 ∨ key >>> 3 > maxFieldNumber.toUInt64 then (.malformed, r)
      else
        match WireType.ofCode (key &&& 0x07) with
        | none => (.malformed, r)
        | some wireType => readPayload (key >>> 3).toUInt32 r wireType

def load32Le (p : Bytes) : UInt32 :=
  (p.getD 0 0).toUInt32 ||| (p.getD 1 0).toUInt32 <<< 8 ||| (p.getD 2 0).toUInt32 <<< 16 ||| (p.getD 3 0).toUInt32 <<< 24

def load64Le (p : Bytes) : UInt64 := (load32Le p).toUInt64 ||| (load32Le (p.drop 4)).toUInt64 <<< 32

end Cwist.Pb
