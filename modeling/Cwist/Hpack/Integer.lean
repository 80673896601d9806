import Cwist.Basic
import Cwist.Lib.PrefixInt

namespace Cwist.H2
open List Option PrefixInt

def decodeIntegerLoop : Bytes → Nat → Nat → Nat → Option (Nat × Nat)
  | [], _, _, _ => none
  | b :: rest, pos, m, n =>
    if m > 28 then none
    else
      let n := (n + (b.toNat &&& 0x7f) <<< m) % 2 ^ 32
      if b.toNat &&& 0x80 = 0 then some (n, pos + 1)
      else decodeIntegerLoop rest (pos + 1) (m + 7) n

def decodeInteger (buf : Bytes) (pos prefixBits : Nat) : Option (Nat × Nat) :=
  match buf.drop pos with
  | [] => none
  | b :: rest =>
    if prefixBits = 0 ∨ prefixBits > 8 then none
    else
      let mask := 2 ^ prefixBits - 1
      let n := b.toNat &&& mask
      if n < mask then some (n, pos + 1) else decodeIntegerLoop rest (pos + 1) 0 n

def encodeIntegerLoop (dstCap : Nat) : Nat → Nat → Nat → Nat × Bytes
  | 0, _, _ => (0, [])
  | fuel + 1, i, value =>
    if i ≥ dstCap then (0, [])
    else if value ≥ 128 then
      let r := encodeIntegerLoop dstCap fuel (i + 1) (value >>> 7)
      (r.1, UInt8.ofNat ((value &&& 0x7f) ||| 0x80) :: r.2)
    else (i + 1, [UInt8.ofNat value])

def encodeInteger (dst0 : UInt8) (dstCap value prefixBits : Nat) : Nat × Bytes :=
  let mask := 2 ^ prefixBits - 1
  let first := dst0 &&& ~~~(UInt8.ofNat mask)
  if value < mask then (1, [first ||| UInt8.ofNat value])
  else
    let r := encodeIntegerLoop dstCap 5 1 (value - mask)
    (r.1, (first ||| UInt8.ofNat mask) :: r.2)

lemma and_128_eq_zero_iff (b : UInt8) : b.toNat &&& 0x80 = 0 ↔ b.toNat < 128 := by
  have all : ∀ i : Fin 256, i.val &&& 0x80 = 0 ↔ i.val < 128 := by decide +kernel
  exact all ⟨b.toNat, b.toNat_lt⟩

lemma and_127 (n : Nat) : n &&& 0x7f = n % 128 := Nat.and_two_pow_sub_one_eq_mod n 7

lemma decodeIntegerLoop_eq (rest : Bytes) (pos j n : Nat) (bound : n < 2 ^ 32) :
    decodeIntegerLoop rest pos (7 * j) n =
      (continuation rest).bind fun r =>
        if j + r.2 ≤ 5 then some ((n + r.1 * 2 ^ (7 * j)) % 2 ^ 32, pos + r.2) else none := by
  induction rest generalizing pos j n with
  | nil => rfl
  | cons b rest ih =>
    have octet := b.toNat_lt
    rw [decodeIntegerLoop, continuation, and_127, Nat.shiftLeft_eq]
    by_cases late : 7 * j > 28
    · rw [if_pos late]
      -- Past the shift limit no count of further octets fits.
      have beyond : ∀ c, ¬j + (c + 1) ≤ 5 := by omega
      by_cases last : b.toNat < 128
      · simp [last, beyond 0]
      · cases continuation rest <;> simp [last, beyond]
    rw [if_neg late]
    by_cases last : b.toNat < 128
    · have one : j + 1 ≤ 5 := by omega
      simp [(and_128_eq_zero_iff b).mpr last, last, Nat.mod_eq_of_lt last, one]
    have more : ¬b.toNat &&& 0x80 = 0 := fun e => last ((and_128_eq_zero_iff b).mp e)
    simp only [more, last, if_false]
    rw [show 7 * j + 7 = 7 * (j + 1) by ring, ih _ _ _ (Nat.mod_lt _ (by decide))]
    cases continuation rest with
    | none => rfl
    | some r =>
      have group : b.toNat % 128 = b.toNat - 128 := by omega
      have value : ((n + (b.toNat - 128) * 2 ^ (7 * j)) % 2 ^ 32 + r.1 * 2 ^ (7 * (j + 1))) % 2 ^ 32 =
          (n + (b.toNat - 128 + 128 * r.1) * 2 ^ (7 * j)) % 2 ^ 32 := by
        rw [Nat.mod_add_mod]
        congr 1
        ring
      simp only [group, bind_some, map_some, value,
        show j + 1 + r.2 = j + (r.2 + 1) by ring, show pos + 1 + r.2 = pos + (r.2 + 1) by ring]

lemma decodeInteger_eq (buf : Bytes) (pos k : Nat) (positive : 1 ≤ k) (width : k ≤ 8) :
    decodeInteger buf pos k = (value k (buf.drop pos)).bind fun r =>
      if r.2 ≤ 6 then some (r.1 % 2 ^ 32, pos + r.2) else none := by
  unfold decodeInteger
  cases buf.drop pos with
  | nil => rfl
  | cons b rest =>
    have small := full_lt width
    have valid : ¬(k = 0 ∨ k > 8) := by omega
    simp only [valid, if_false, Nat.and_two_pow_sub_one_eq_mod, value]
    by_cases short : b.toNat % 2 ^ k < full k
    · have fits : b.toNat % 2 ^ k < 2 ^ 32 := by omega
      rw [if_pos short]
      rw [full] at short
      simp only [short, if_true, bind_some, Nat.mod_eq_of_lt fits, show 1 ≤ 6 by decide]
    have field := mod_full short
    have loop := decodeIntegerLoop_eq rest (pos + 1) 0 (full k) (by omega)
    rw [if_neg short]
    rw [full] at short
    rw [if_neg short, field, loop]
    cases continuation rest with
    | none => rfl
    | some r =>
      simp only [Nat.mul_zero, Nat.pow_zero, Nat.mul_one, zero_add, bind_some, map_some,
        show pos + 1 + r.2 = pos + (r.2 + 1) by ring, show r.2 ≤ 5 ↔ r.2 + 1 ≤ 6 by omega]

/-- What RFC 7541 section 5.1 asks of one call: an accepted integer has its exact value and length,
and one that needs more than 32 bits is not accepted. -/
def ExactInteger (k : Nat) (buf : Bytes) (pos : Nat) : Prop :=
  (∀ v next, decodeInteger buf pos k = some (v, next) →
    ∃ c, value k (buf.drop pos) = some (v, c) ∧ next = pos + c) ∧
  ∀ v c, value k (buf.drop pos) = some (v, c) → 2 ^ 32 ≤ v → decodeInteger buf pos k = none

def FifthOctetOverflows (k : Nat) : Bytes → Prop
  | b :: c₀ :: c₁ :: c₂ :: c₃ :: c₄ :: _ =>
    b.toNat % 2 ^ k = 2 ^ k - 1 ∧ 128 ≤ c₀.toNat ∧ 128 ≤ c₁.toNat ∧ 128 ≤ c₂.toNat ∧ 128 ≤ c₃.toNat ∧
      c₄.toNat < 128 ∧ (16 ≤ c₄.toNat ∨ c₄.toNat = 15 ∧
        2 ^ 28 ≤ 2 ^ k - 1 + (c₀.toNat - 128) + 2 ^ 7 * (c₁.toNat - 128) + 2 ^ 14 * (c₂.toNat - 128) +
          2 ^ 21 * (c₃.toNat - 128))
  | _ => False

lemma continuation_lt (rest : Bytes) {v c : Nat} (read : continuation rest = some (v, c)) :
    1 ≤ c ∧ v < 2 ^ (7 * c) := by
  induction rest generalizing v c with
  | nil => simp [continuation] at read
  | cons b rest ih =>
    rw [continuation] at read
    split at read
    · obtain ⟨rfl, rfl⟩ := read
      simpa using ‹b.toNat < 128›
    cases tail : continuation rest with
    | none => simp [tail] at read
    | some r =>
      have octet := b.toNat_lt
      have := (ih tail).2
      simp only [tail, map_some, some.injEq, Prod.mk.injEq] at read
      obtain ⟨rfl, rfl⟩ := read
      rw [show 7 * (r.2 + 1) = 7 * r.2 + 7 by ring, pow_add]
      omega

variable {rest : Bytes}

lemma continuation_last {b : UInt8} {v : Nat} :
    continuation (b :: rest) = some (v, 1) ↔ b.toNat < 128 ∧ v = b.toNat := by
  rw [continuation]
  split
  next last => simp [last, eq_comm]
  rename_i more
  simp only [more, false_and, iff_false]
  cases tail : continuation rest with
  | none => simp
  | some r =>
    have := (continuation_lt rest tail).1
    simp only [map_some, some.injEq, Prod.mk.injEq]
    omega

lemma continuation_more {b : UInt8} {v c : Nat} : continuation (b :: rest) = some (v, c + 2) ↔
      128 ≤ b.toNat ∧ ∃ w, continuation rest = some (w, c + 1) ∧ v = b.toNat - 128 + 128 * w := by
  rw [continuation]
  split
  · simp only [some.injEq, Prod.mk.injEq]
    omega
  rename_i more
  simp only [map_eq_some_iff, Prod.exists, Prod.mk.injEq, not_lt.mp more, true_and]
  constructor
  · rintro ⟨w, n, read, rfl, count⟩
    exact ⟨w, by rw [read, show n = c + 1 by omega], rfl⟩
  · rintro ⟨w, read, rfl⟩
    exact ⟨w, c + 1, read, rfl, rfl⟩

lemma continuation_five {v : Nat} :
    continuation rest = some (v, 5) ↔ ∃ c₀ c₁ c₂ c₃ c₄ tail, rest = c₀ :: c₁ :: c₂ :: c₃ :: c₄ :: tail ∧
      128 ≤ c₀.toNat ∧ 128 ≤ c₁.toNat ∧ 128 ≤ c₂.toNat ∧ 128 ≤ c₃.toNat ∧ c₄.toNat < 128 ∧
      v = (c₀.toNat - 128) + 2 ^ 7 * (c₁.toNat - 128) + 2 ^ 14 * (c₂.toNat - 128) +
        2 ^ 21 * (c₃.toNat - 128) + 2 ^ 28 * c₄.toNat := by
  constructor
  · intro read
    obtain _ | ⟨c₀, rest⟩ := rest
    · simp [continuation] at read
    obtain ⟨h₀, w₁, read₁, rfl⟩ := continuation_more.mp read
    obtain _ | ⟨c₁, rest⟩ := rest
    · simp [continuation] at read₁
    obtain ⟨h₁, w₂, read₂, rfl⟩ := continuation_more.mp read₁
    obtain _ | ⟨c₂, rest⟩ := rest
    · simp [continuation] at read₂
    obtain ⟨h₂, w₃, read₃, rfl⟩ := continuation_more.mp read₂
    obtain _ | ⟨c₃, rest⟩ := rest
    · simp [continuation] at read₃
    obtain ⟨h₃, w₄, read₄, rfl⟩ := continuation_more.mp read₃
    obtain _ | ⟨c₄, tail⟩ := rest
    · simp [continuation] at read₄
    obtain ⟨h₄, rfl⟩ := continuation_last.mp read₄
    exact ⟨c₀, c₁, c₂, c₃, c₄, tail, rfl, h₀, h₁, h₂, h₃, h₄, by ring⟩
  · rintro ⟨c₀, c₁, c₂, c₃, c₄, tail, rfl, h₀, h₁, h₂, h₃, h₄, rfl⟩
    apply continuation_more.mpr ⟨h₀, _, continuation_more.mpr ⟨h₁, _, continuation_more.mpr ⟨h₂, _,
      continuation_more.mpr ⟨h₃, _, continuation_last.mpr ⟨h₄, rfl⟩, rfl⟩, rfl⟩, rfl⟩, ?_⟩
    ring

lemma wraps_iff (k : Nat) (bytes : Bytes) (width : k ≤ 8) :
    (∃ v c, value k bytes = some (v, c) ∧ c ≤ 6 ∧ 2 ^ 32 ≤ v) ↔ FifthOctetOverflows k bytes := by
  have small := full_lt width
  constructor
  · rintro ⟨v, c, read, short, large⟩
    cases bytes with
    | nil => simp [value] at read
    | cons b rest =>
      rw [value] at read
      split at read
      · simp only [some.injEq, Prod.mk.injEq] at read
        omega
      rename_i ones
      have field := mod_full ones
      obtain ⟨⟨w, n⟩, tail, same⟩ := map_eq_some_iff.mp read
      simp only [Prod.mk.injEq] at same
      have five : n = 5 := by
        by_contra other
        have low := (continuation_lt rest tail).2
        have : 2 ^ (7 * n) ≤ 2 ^ 28 := Nat.pow_le_pow_right (by decide) (by omega)
        omega
      subst five
      obtain ⟨c₀, c₁, c₂, c₃, c₄, tail, rfl, h₀, h₁, h₂, h₃, h₄, rfl⟩ := continuation_five.mp tail
      refine ⟨field, h₀, h₁, h₂, h₃, h₄, ?_⟩
      have := c₀.toNat_lt
      have := c₁.toNat_lt
      have := c₂.toNat_lt
      have := c₃.toNat_lt
      omega
  · intro overflow
    match bytes, overflow with
    | b :: c₀ :: c₁ :: c₂ :: c₃ :: c₄ :: tail, ⟨field, h₀, h₁, h₂, h₃, h₄, carry⟩ =>
      have read := continuation_five.mpr ⟨c₀, c₁, c₂, c₃, c₄, tail, rfl, h₀, h₁, h₂, h₃, h₄, rfl⟩
      have ones : ¬b.toNat % 2 ^ k < full k := by
        rw [field]
        exact lt_irrefl _
      refine ⟨_, 6, by rw [value, if_neg ones, read]; rfl, le_refl 6, ?_⟩
      unfold full
      omega

lemma encodeIntegerLoop_eq (dstCap fuel i value : Nat) (fits : value < 2 ^ (7 * (fuel + 1))) :
    encodeIntegerLoop dstCap (fuel + 1) i value =
      if i + (groups fuel value).length ≤ dstCap then
        (i + (groups fuel value).length, (groups fuel value).map UInt8.ofNat)
      else (0, ((groups fuel value).map UInt8.ofNat).take (dstCap - i)) := by
  induction fuel generalizing i value with
  | zero =>
    have last : ¬value ≥ 128 := by
      omega
    rw [encodeIntegerLoop, groups, length_singleton]
    by_cases inside : i ≥ dstCap
    · rw [if_pos inside, if_neg (by omega), Nat.sub_eq_zero_of_le inside]
      rfl
    · rw [if_neg inside, if_neg last, if_pos (by omega)]
      rfl
  | succ fuel ih =>
    rw [encodeIntegerLoop, groups]
    by_cases inside : i ≥ dstCap
    · have none : dstCap - i = 0 := by omega
      have some : 0 < (if value < 128 then [value] else (value % 128 + 128) :: groups fuel (value / 128)).length := by
        split <;> simp
      rw [if_pos inside, if_neg (by omega), none, take_zero]
    rw [if_neg inside]
    by_cases last : value < 128
    · rw [if_neg (not_le.mpr last), if_pos last, length_singleton, if_pos (by omega)]
      rfl
    have bound : value / 128 < 2 ^ (7 * (fuel + 1)) := by
      rw [Nat.div_lt_iff_lt_mul (by decide), show 128 = 2 ^ 7 from rfl, ← pow_add]
      exact fits
    have flag : (value &&& 0x7f) ||| 0x80 = value % 128 + 128 := by
      have low : value % 128 < 2 ^ 7 := Nat.mod_lt _ (by decide)
      have sum := Nat.two_pow_add_eq_or_of_lt low 1
      rw [and_127, Nat.or_comm, ← sum, add_comm]
    have turn : dstCap - i = dstCap - (i + 1) + 1 := by omega
    rw [if_pos (not_lt.mp last), if_neg last, Nat.shiftRight_eq_div_pow, ih (i + 1) _ bound, flag, length_cons, turn, show i + 1 + (groups fuel (value / 128)).length = i + ((groups fuel (value / 128)).length + 1) by omega]
    split <;> rfl

lemma field_of_or {dst0 : UInt8} {k x : Nat} (width : k ≤ 8) (small : x < 2 ^ k) :
    ((dst0 &&& ~~~(UInt8.ofNat (2 ^ k - 1))) ||| UInt8.ofNat x).toNat % 2 ^ k = x := by
  have wide : 2 ^ k ≤ 2 ^ 8 := Nat.pow_le_pow_right (by decide) width
  have octet : (UInt8.ofNat x).toNat = x := by
    rw [UInt8.toNat_ofNat']
    omega
  have mask : (UInt8.ofNat (2 ^ k - 1)).toNat = 2 ^ k - 1 := by
    rw [UInt8.toNat_ofNat']
    omega
  have high : (~~~(UInt8.ofNat (2 ^ k - 1))).toNat % 2 ^ k = 0 := by
    have split : 2 ^ 8 = 2 ^ k * 2 ^ (8 - k) := by rw [← pow_add, Nat.add_sub_cancel' width]
    rw [UInt8.toNat_not, mask, show UInt8.size = 2 ^ 8 from rfl,
      show 2 ^ 8 - 1 - (2 ^ k - 1) = 2 ^ 8 - 2 ^ k by omega, split, ← Nat.mul_sub_one, Nat.mul_mod_right]
  rw [UInt8.toNat_or, UInt8.toNat_and, Nat.or_mod_two_pow, Nat.and_mod_two_pow, high, octet, Nat.and_zero,
    Nat.zero_or, Nat.mod_eq_of_lt small]

lemma encodeInteger_value (dst0 : UInt8) (dstCap v k : Nat) (post : Bytes)
    (width : k ≤ 8) (fits : v < 2 ^ 32) (room : 6 ≤ dstCap) :
    value k ((encodeInteger dst0 dstCap v k).2 ++ post) = some (v, (encodeInteger dst0 dstCap v k).1) ∧
      (encodeInteger dst0 dstCap v k).1 = (encodeInteger dst0 dstCap v k).2.length ∧
      (encodeInteger dst0 dstCap v k).1 ≤ 6 := by
  have ones := Nat.two_pow_pos k
  unfold encodeInteger
  by_cases short : v < 2 ^ k - 1
  · have field := @field_of_or dst0 _ _ width (show v < 2 ^ k by omega)
    simp only [short, if_true, singleton_append, value, full, field, length_singleton,
      true_and]
    decide
  have field := @field_of_or dst0 _ _ width (show 2 ^ k - 1 < 2 ^ k by omega)
  have bound : v - (2 ^ k - 1) < 2 ^ (7 * (4 + 1)) := by omega
  have read := continuation_groups 4 _ post bound
  have count := length_groups_le 4 (v - (2 ^ k - 1))
  have inside : 1 + (groups 4 (v - (2 ^ k - 1))).length ≤ dstCap := by omega
  simp only [short, if_false, encodeIntegerLoop_eq dstCap 4 1 _ bound, inside, if_true, cons_append,
    value, full, field, lt_irrefl, read, map_some, length_cons, length_map]
  refine ⟨?_, by omega, by omega⟩
  rw [show 2 ^ k - 1 + (v - (2 ^ k - 1)) = v by omega, add_comm]

lemma decodeInteger_encodeInteger (pre post : Bytes) (dst0 : UInt8) (dstCap v k : Nat) (positive : 1 ≤ k)
    (width : k ≤ 8) (fits : v < 2 ^ 32) (room : 6 ≤ dstCap) :
    decodeInteger (pre ++ ((encodeInteger dst0 dstCap v k).2 ++ post)) pre.length k =
      some (v, pre.length + (encodeInteger dst0 dstCap v k).1) := by
  have ⟨read, _, short⟩ := encodeInteger_value dst0 dstCap v k post width fits room
  rw [decodeInteger_eq _ _ _ positive width, drop_left, read]
  simp only [bind_some, short, if_true, Nat.mod_eq_of_lt fits]

/-- `h2_decode_integer` is exact on an input if and only if no fifth continuation octet overflows
there, and `h2_encode_integer` is always read back. -/
theorem decodeInteger_exact_iff (k : Nat) (buf : Bytes) (pos : Nat) (positive : 1 ≤ k) (width : k ≤ 8) :
    (ExactInteger k buf pos ↔ ¬FifthOctetOverflows k (buf.drop pos)) ∧
      ∀ (dst0 : UInt8) (dstCap v : Nat), v < 2 ^ 32 → 6 ≤ dstCap →
        decodeInteger (encodeInteger dst0 dstCap v k).2 0 k = some (v, (encodeInteger dst0 dstCap v k).1) := by
  refine ⟨?_, fun dst0 dstCap v fits room => ?_⟩
  · rw [← wraps_iff k _ width, ExactInteger, decodeInteger_eq buf pos k positive width]
    cases value k (buf.drop pos) with
    | none => simp
    | some r =>
      obtain ⟨v, c⟩ := r
      simp only [bind_some]
      by_cases short : c ≤ 6
      · rw [if_pos short]
        by_cases fits : v < 2 ^ 32
        · rw [Nat.mod_eq_of_lt fits]
          refine iff_of_true ⟨?_, ?_⟩ ?_
          · rintro w next read
            simp only [some.injEq, Prod.mk.injEq] at read
            exact ⟨c, by rw [read.1], read.2.symm⟩
          · rintro w n read large
            simp only [some.injEq, Prod.mk.injEq] at read
            omega
          · rintro ⟨w, n, read, -, large⟩
            simp only [some.injEq, Prod.mk.injEq] at read
            omega
        · refine iff_of_false ?_ ?_
          · rintro ⟨-, rejected⟩
            simpa using rejected v c rfl (not_lt.mp fits)
          · exact fun exact => exact ⟨v, c, rfl, short, not_lt.mp fits⟩
      · rw [if_neg short]
        refine iff_of_true ⟨by simp, fun _ _ _ _ => rfl⟩ ?_
        rintro ⟨w, n, read, count, -⟩
        simp only [some.injEq, Prod.mk.injEq] at read
        omega
  · simpa using decodeInteger_encodeInteger [] [] dst0 dstCap v k positive width fits room

/-- A five-bit field of ones followed by the exact integer 31 at one octet. -/
theorem decodeInteger_exact_iff_size_update : (ExactInteger 5 [0x3f, 0x00] 0 ↔ ¬FifthOctetOverflows 5 [0x3f, 0x00]) ∧
      ∀ (dst0 : UInt8) (dstCap v : Nat), v < 2 ^ 32 → 6 ≤ dstCap →
        decodeInteger (encodeInteger dst0 dstCap v 5).2 0 5 = some (v, (encodeInteger dst0 dstCap v 5).1) :=
  decodeInteger_exact_iff 5 [0x3f, 0x00] 0 (by decide) (by decide)

/-- The encoding of 2^32 + 127 with a seven-bit field is accepted as 127. -/
theorem decodeInteger_wraps : ¬ExactInteger 7 [0xff, 0x80, 0x80, 0x80, 0x80, 0x10] 0 := by
  rintro ⟨exact, _⟩
  obtain ⟨c, read, _⟩ := exact 127 6 (by decide)
  revert read
  rw [show value 7 (List.drop 0 [0xff, 0x80, 0x80, 0x80, 0x80, 0x10]) = some (2 ^ 32 + 127, 6) by decide]
  simp

end Cwist.H2
