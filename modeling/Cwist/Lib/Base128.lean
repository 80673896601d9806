import Mathlib

namespace Base128

def value : List UInt8 → Nat
  | [] => 0
  | b :: rest => b.toNat % 128 + 128 * value rest

inductive Terminated : List UInt8 → Prop where
  | last {b : UInt8} (low : b.toNat < 128) : Terminated [b]
  | more {b : UInt8} {rest : List UInt8} (high : 128 ≤ b.toNat) (others : Terminated rest) : Terminated (b :: rest)

lemma Terminated.ne_nil {bytes : List UInt8} (terminated : Terminated bytes) : bytes ≠ [] := by
  cases terminated <;> simp

lemma Terminated.length_pos {bytes : List UInt8} (terminated : Terminated bytes) : 0 < bytes.length :=
  List.length_pos_iff.mpr terminated.ne_nil

lemma exists_front_cons {b : UInt8} {bytes rest : List UInt8} {P : List UInt8 → Prop} :
    (∃ enc, b :: bytes = enc ++ rest ∧ Terminated enc ∧ P enc) ↔
      if b.toNat < 128 then bytes = rest ∧ P [b] else ∃ enc, bytes = enc ++ rest ∧ Terminated enc ∧ P (b :: enc) := by
  constructor
  · rintro ⟨enc, front, terminated, holds⟩
    cases terminated with obtain ⟨rfl, same⟩ := List.cons.inj front
    | last low =>
      rw [if_pos low]
      exact ⟨same, holds⟩
    | more high others =>
      rw [if_neg (by omega)]
      exact ⟨_, same, others, holds⟩
  · split
    · rintro ⟨rfl, holds⟩
      rename_i low
      exact ⟨[b], rfl, .last low, holds⟩
    · rintro ⟨enc, rfl, terminated, holds⟩
      exact ⟨b :: enc, rfl, .more (by omega) terminated, holds⟩

def octets (n : Nat) : List UInt8 :=
  if n < 128 then [UInt8.ofNat n] else UInt8.ofNat (n % 128 + 128) :: octets (n / 128)

lemma octets_terminated (n : Nat) : Terminated (octets n) := by
  fun_induction octets n with
  | case1 n small =>
    refine .last ?_
    rw [UInt8.toNat_ofNat']
    omega
  | case2 n large ih =>
    refine .more ?_ ih
    rw [UInt8.toNat_ofNat']
    omega

lemma value_octets (n : Nat) : value (octets n) = n := by
  fun_induction octets n with
  | case1 n small =>
    rw [value, value, UInt8.toNat_ofNat']
    omega
  | case2 n large ih =>
    rw [value, UInt8.toNat_ofNat']
    omega

lemma octets_length_le {k n : Nat} (positive : 0 < k) (fits : n < 128 ^ k) : (octets n).length ≤ k := by
  induction k generalizing n with
  | zero => omega
  | succ k ih =>
    rw [octets]
    split
    · simp
    have rest := Nat.div_lt_of_lt_mul (by rwa [Nat.pow_succ'] at fits)
    have more : 0 < k := by
      rcases Nat.eq_zero_or_pos k with rfl | more
      · omega
      · exact more
    exact Nat.succ_le_succ (ih more rest)

end Base128
