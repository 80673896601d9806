import Mathlib

namespace Cwist

abbrev Bytes := List UInt8

def ascii (s : String) : Bytes := s.toList.map fun c => c.toNat.toUInt8

structure CStr where
  bytes : Bytes
  nul : (0 : UInt8) ∉ bytes
  deriving DecidableEq

namespace CStr

def ofBytes (b : Bytes) : CStr where
  bytes := b.takeWhile (· != 0)
  nul := fun member => by simpa using List.mem_takeWhile_imp member

def length (s : CStr) : Nat := s.bytes.length

lemma ofBytes_bytes {b : Bytes} (nul : (0 : UInt8) ∉ b) : (ofBytes b).bytes = b := by
  apply List.takeWhile_eq_self_iff.mpr
  intro x member
  simp only [bne_iff_ne, ne_eq]
  rintro rfl
  exact nul member

lemma ofBytes_self (s : CStr) : ofBytes s.bytes = s := by
  have whole := ofBytes_bytes s.nul
  exact CStr.mk.injEq .. |>.mpr whole

lemma ofBytes_length_iff (b : Bytes) : (ofBytes b).length = b.length ↔ (0 : UInt8) ∉ b := by
  constructor
  · intro same
    have whole := List.IsPrefix.eq_of_length (List.takeWhile_prefix _) same
    exact whole ▸ (ofBytes b).nul
  · intro nul
    rw [length, ofBytes_bytes nul]

end CStr

end Cwist
