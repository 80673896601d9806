import Cwist.Basic

namespace Cwist.Core

structure SipState where
  v0 : UInt64
  v1 : UInt64
  v2 : UInt64
  v3 : UInt64

def rotl (x : UInt64) (b : UInt64) : UInt64 := x <<< b ||| x >>> (64 - b)

namespace SipState

def sipround (s : SipState) : SipState :=
  let v0 := s.v0 + s.v1
  let v1 := rotl s.v1 13 ^^^ v0
  let v0 := rotl v0 32
  let v2 := s.v2 + s.v3
  let v3 := rotl s.v3 16 ^^^ v2
  let v0 := v0 + v3
  let v3 := rotl v3 21 ^^^ v0
  let v2 := v2 + v1
  let v1 := rotl v1 17 ^^^ v2
  let v2 := rotl v2 32
  ⟨v0, v1, v2, v3⟩

def absorb (s : SipState) (m : UInt64) : SipState :=
  let s := sipround (sipround { s with v3 := s.v3 ^^^ m })
  { s with v0 := s.v0 ^^^ m }

end SipState

def le64 (b : Bytes) : UInt64 := b.foldr (fun c word => word <<< 8 ||| c.toUInt64) 0

def sipBlocks (length : UInt64) : Bytes → SipState → SipState
  | a :: b :: c :: d :: e :: f :: g :: h :: rest, s => sipBlocks length rest (s.absorb (le64 [a, b, c, d, e, f, g, h]))
  | rest, s => s.absorb (length <<< 56 ||| le64 rest)

def siphash24 (src : Bytes) (key : Bytes) : UInt64 :=
  let k0 := le64 (key.take 8)
  let k1 := le64 (key.drop 8)
  let start : SipState :=
    ⟨k0 ^^^ 0x736f6d6570736575, k1 ^^^ 0x646f72616e646f6d, k0 ^^^ 0x6c7967656e657261, k1 ^^^ 0x7465646279746573⟩
  let s := sipBlocks (UInt64.ofNat src.length) src start
  let s := { s with v2 := s.v2 ^^^ 0xff }
  let s := s.sipround.sipround.sipround.sipround
  s.v0 ^^^ s.v1 ^^^ s.v2 ^^^ s.v3

end Cwist.Core
