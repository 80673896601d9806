import Mathlib

namespace Varint
open List

def value (acc : Nat) (bytes : List UInt8) : Nat := bytes.foldl (fun v b => v * 256 + b.toNat) acc

def decode : List UInt8 → Option (Nat × List UInt8)
  | [] => none
  | b :: rest =>
    let more := 2 ^ (b.toNat / 64) - 1
    if rest.length < more then none else some (value (b.toNat % 64) (rest.take more), rest.drop more)

def octets : Nat → Nat → List UInt8
  | 0, _ => []
  | width + 1, n => UInt8.ofNat (n / 256 ^ width) :: octets width n

lemma octets_length (width n : Nat) : (octets width n).length = width := by
  induction width with
  | zero => rfl
  | succ width ih => rw [octets, length_cons, ih]

lemma octets_concat (width n : Nat) : octets (width + 1) n = octets width (n / 256) ++ [UInt8.ofNat n] := by
  induction width with
  | zero => simp [octets]
  | succ width ih => rw [octets, ih, octets, Nat.div_div_eq_div_mul, ← Nat.pow_succ', cons_append]

lemma value_octets (acc width n : Nat) : value acc (octets width n) = acc * 256 ^ width + n % 256 ^ width := by
  induction width generalizing acc with
  | zero => simp [octets, value, Nat.mod_one]
  | succ width ih =>
    have split : value acc (octets (width + 1) n) = value (acc * 256 + n / 256 ^ width % 256) (octets width n) := by
      rfl
    rw [split, ih, Nat.mod_pow_succ, Nat.pow_succ', add_mul, mul_assoc, mul_comm (n / 256 ^ width % 256),
      add_assoc, add_comm (256 ^ width * _)]

lemma value_lt (acc : Nat) (bytes : List UInt8) : value acc bytes < (acc + 1) * 256 ^ bytes.length := by
  induction bytes generalizing acc with
  | nil => simp [value]
  | cons b rest ih =>
    have octet := b.toNat_lt
    calc value acc (b :: rest) = value (acc * 256 + b.toNat) rest := rfl
      _ < (acc * 256 + b.toNat + 1) * 256 ^ rest.length := ih _
      _ ≤ ((acc + 1) * 256) * 256 ^ rest.length := Nat.mul_le_mul_right _ (by omega)
      _ = (acc + 1) * 256 ^ (b :: rest).length := by rw [length_cons, Nat.pow_succ', mul_assoc]

lemma decode_lt {bytes rest : List UInt8} {n : Nat} (decoded : decode bytes = some (n, rest)) : n < 2 ^ 62 := by
  cases bytes with
  | nil => cases decoded
  | cons b others =>
    rw [decode] at decoded
    split at decoded
    · cases decoded
    have class_ : b.toNat / 64 ≤ 3 := by
      have := b.toNat_lt
      omega
    have width : 2 ^ (b.toNat / 64) ≤ 2 ^ 3 := Nat.pow_le_pow_right (by decide) class_
    obtain ⟨rfl, -⟩ := Prod.mk.inj (Option.some.inj decoded)
    calc value (b.toNat % 64) (others.take (2 ^ (b.toNat / 64) - 1))
        < (b.toNat % 64 + 1) * 256 ^ (others.take (2 ^ (b.toNat / 64) - 1)).length := value_lt _ _
      _ ≤ 64 * 256 ^ 7 := Nat.mul_le_mul (by omega) (Nat.pow_le_pow_right (by decide) (by rw [length_take]; omega))
      _ = 2 ^ 62 := by decide

lemma decode_tagged {tag : UInt8} {cls n : Nat} (tagged : tag.toNat = 64 * cls + n / 256 ^ (2 ^ cls - 1))
    (fits : n < 64 * 256 ^ (2 ^ cls - 1)) (rest : List UInt8) :
    decode (tag :: octets (2 ^ cls - 1) n ++ rest) = some (n, rest) := by
  have high := Nat.div_lt_of_lt_mul (by rwa [mul_comm])
  have class_ : tag.toNat / 64 = cls := by
    rw [tagged, Nat.mul_add_div (by decide), Nat.div_eq_of_lt high, add_zero]
  have front : tag.toNat % 64 = n / 256 ^ (2 ^ cls - 1) := by rw [tagged, Nat.mul_add_mod, Nat.mod_eq_of_lt high]
  have length : (octets (2 ^ cls - 1) n).length = 2 ^ cls - 1 := octets_length _ _
  rw [cons_append, decode, class_, front, if_neg (by rw [length_append]; omega), take_left' length, drop_left' length, value_octets,
    mul_comm, Nat.div_add_mod]

end Varint
