import Mathlib

namespace PrefixInt

def full (k : Nat) : Nat := 2 ^ k - 1

def continuation : List UInt8 → Option (Nat × Nat)
  | [] => none
  | b :: rest =>
    if b.toNat < 128 then some (b.toNat, 1)
    else (continuation rest).map fun r => (b.toNat - 128 + 128 * r.1, r.2 + 1)

def value (k : Nat) : List UInt8 → Option (Nat × Nat)
  | [] => none
  | b :: rest =>
    if b.toNat % 2 ^ k < full k then some (b.toNat % 2 ^ k, 1)
    else (continuation rest).map fun r => (full k + r.1, r.2 + 1)

lemma full_lt {k : Nat} (small : k ≤ 8) : full k < 2 ^ 8 := by
  have : 2 ^ k ≤ 2 ^ 8 := Nat.pow_le_pow_right (by decide) small
  unfold full
  omega

lemma mod_full {b k : Nat} (big : ¬b % 2 ^ k < full k) : b % 2 ^ k = full k := by
  unfold full at big ⊢
  omega

def groups : Nat → Nat → List Nat
  | 0, v => [v]
  | fuel + 1, v => if v < 128 then [v] else (v % 128 + 128) :: groups fuel (v / 128)

lemma length_groups_le (fuel v : Nat) : (groups fuel v).length ≤ fuel + 1 := by
  induction fuel generalizing v with
  | zero => simp [groups]
  | succ fuel ih =>
    rw [groups]
    split
    · simp
    · simpa using ih (v / 128)

lemma continuation_groups (fuel v : Nat) (rest : List UInt8) (fits : v < 2 ^ (7 * (fuel + 1))) :
    continuation ((groups fuel v).map UInt8.ofNat ++ rest) = some (v, (groups fuel v).length) := by
  induction fuel generalizing v with
  | zero =>
    have small : v < 128 := by simpa using fits
    simp [groups, continuation, Nat.mod_eq_of_lt (show v < 256 by omega), small]
  | succ fuel ih =>
    rw [groups]
    split
    next small => simp [continuation, Nat.mod_eq_of_lt (show v < 256 by omega), small]
    have bound : v / 128 < 2 ^ (7 * (fuel + 1)) := by
      have : 2 ^ (7 * (fuel + 1)) * 128 = 2 ^ (7 * (fuel + 1 + 1)) := by ring
      omega
    have byte : (UInt8.ofNat (v % 128 + 128)).toNat = v % 128 + 128 := by
      rw [UInt8.toNat_ofNat']
      omega
    simp only [List.map_cons, List.cons_append, continuation, byte, ih (v / 128) bound,
      show ¬(v % 128 + 128 < 128) by omega, if_false, Option.map_some, List.length_cons,
      Option.some.injEq, Prod.mk.injEq, and_true]
    omega

end PrefixInt
