import Mathlib

/-!
# Messages in blocks of equal size

A message is cut into blocks of `c` elements, the last of which may be shorter.
-/

namespace Blocks
open List
variable {α β : Type*} {c k j : Nat} {msg store : List α} {got : Nat → Prop}

def count (c n : Nat) : Nat := (n + c - 1) / c

variable {i n off : Nat} {xs : List α}

section
variable (positive : 0 < c)
include positive

lemma count_pos (nonempty : 0 < n) : 0 < count c n :=
  Nat.div_pos (by omega) positive

lemma count_le (nonempty : 0 < n) : count c n ≤ n := by
  have : n + c - 1 ≤ n * c := by
    have rest : n - 1 ≤ (n - 1) * c := Nat.le_mul_of_pos_right _ positive
    have whole : n * c = (n - 1) * c + c := by rw [← Nat.succ_mul, Nat.succ_eq_add_one, Nat.sub_add_cancel nonempty]
    omega
  exact Nat.div_le_of_le_mul (by rwa [mul_comm])

lemma le_count_mul : n ≤ count c n * c := by
  have := Nat.div_add_mod (n + c - 1) c
  have := Nat.mod_lt (n + c - 1) positive
  rw [count, mul_comm]
  omega

lemma lt_of_lt_count (inside : i < count c n) : i * c < n := by
  have : (i + 1) * c ≤ n + c - 1 := (Nat.le_div_iff_mul_le positive).mp inside
  rw [Nat.succ_mul] at this
  omega

lemma full_of_next (next : i + 1 < count c n) : i * c + c < n := by
  have := lt_of_lt_count positive next
  rwa [Nat.succ_mul] at this

end

def block (c : Nat) (msg : List α) (i : Nat) : List α := (msg.drop (i * c)).take c

lemma block_length (i : Nat) : (block c msg i).length = min c (msg.length - i * c) := by
  simp [block]

lemma block_get (i : Nat) (inside : k < c) : (block c msg i)[k]? = msg[i * c + k]? := by
  simp [block, inside]

def overwrite (store : List α) (off : Nat) (xs : List α) : List α :=
  store.take off ++ xs ++ store.drop (off + xs.length)

section
variable (fits : off + xs.length ≤ store.length)
include fits

lemma overwrite_length : (overwrite store off xs).length = store.length := by
  simp only [overwrite, length_append, length_take, length_drop]
  omega

lemma overwrite_get (k : Nat) :
    (overwrite store off xs)[k]? = if off ≤ k ∧ k < off + xs.length then xs[k - off]? else store[k]? := by
  have front : (store.take off).length = off := by simp; omega
  rw [overwrite, append_assoc, getElem?_append, front]
  by_cases before : k < off
  · rw [if_pos before, if_neg (by omega), getElem?_take, if_pos before]
  rw [if_neg before, getElem?_append]
  by_cases inside : k - off < xs.length
  · rw [if_pos inside, if_pos (by omega)]
  · rw [if_neg inside, if_neg (by omega), getElem?_drop]
    congr 1
    omega

lemma overwrite_read : ((overwrite store off xs).drop off).take xs.length = xs := by
  have front : (store.take off).length = off := by simp; omega
  rw [overwrite, append_assoc, drop_append_of_le_length front.ge, drop_of_length_le front.le,
    nil_append, take_left']
  rfl

lemma overwrite_apart {start k : Nat} (apart : start + k ≤ off ∨ off + xs.length ≤ start) :
    ((overwrite store off xs).drop start).take k = (store.drop start).take k := by
  apply ext_getElem?
  intro j
  rw [getElem?_take, getElem?_take, getElem?_drop, getElem?_drop, overwrite_get fits]
  by_cases inside : j < k
  · rw [if_pos inside, if_pos inside, if_neg (by omega)]
  · rw [if_neg inside, if_neg inside]

end

lemma take_eq_pieces {pieces : Nat → List α} (full : ∀ i < n, (pieces i).length = c)
    (held : ∀ i < n, (store.drop (i * c)).take (pieces i).length = pieces i) :
    store.take (n * c) = (List.range n).flatMap pieces := by
  induction n with
  | zero => simp
  | succ n ih =>
    have here := held n n.lt_succ_self
    rw [full n n.lt_succ_self] at here
    rw [range_succ, flatMap_append, ← ih (fun i inside => full i (by omega)) fun i inside => held i (by omega),
      Nat.succ_mul, take_add, here, flatMap_singleton]

lemma getD_set_self {xs : List β} {x d : β} (inside : i < xs.length) : (xs.set i x).getD i d = x := by
  rw [getD_eq_getElem?_getD, getElem?_set_self inside]
  rfl

lemma getD_set_ne {xs : List β} {x d : β} (other : i ≠ j) : (xs.set i x).getD j d = xs.getD j d := by
  rw [getD_eq_getElem?_getD, getElem?_set_ne other, getD_eq_getElem?_getD]

lemma count_set_true {flags : List Bool} (inside : i < flags.length) (fresh : flags.getD i false = false) :
    (flags.set i true).count true = flags.count true + 1 := by
  rw [getD_eq_getElem?_getD, getElem?_eq_getElem inside] at fresh
  have fresh : flags[i] = false := fresh
  rw [count_set inside, fresh]
  rfl

def Filled (c : Nat) (msg store : List α) (got : Nat → Prop) : Prop :=
  ∀ k < msg.length, got (k / c) → store[k]? = msg[k]?

section
variable (positive : 0 < c) (filled : Filled c msg store got)
include positive filled

lemma Filled.overwrite (room : i * c + (block c msg i).length ≤ store.length) :
    Filled c msg (overwrite store (i * c) (block c msg i)) fun j => j = i ∨ got j := by
  intro k bound arrived
  rw [overwrite_get room, block_length]
  by_cases here : k / c = i
  · have place := Nat.div_add_mod k c
    have offset := Nat.mod_lt k positive
    rw [here, mul_comm] at place
    rw [if_pos (by omega), block_get _ (by omega)]
    congr 1
    omega
  · -- a position of another block is outside the range written
    have outside : ¬(i * c ≤ k ∧ k < i * c + min c (msg.length - i * c)) := by
      rintro ⟨low, high⟩
      refine here ((Nat.div_eq_iff positive).mpr ⟨low, ?_⟩)
      omega
    rw [if_neg outside]
    exact filled k bound (arrived.resolve_left here)

lemma Filled.read (arrived : got i) : (store.drop (i * c)).take (block c msg i).length = block c msg i := by
  apply ext_getElem?
  intro k
  rw [getElem?_take, getElem?_drop]
  have length : (block c msg i).length = _ := block_length i
  by_cases inside : k < (block c msg i).length
  · rw [if_pos inside, block_get _ (by omega)]
    apply filled _ (by omega)
    rw [show (i * c + k) / c = i by rw [mul_comm, Nat.mul_add_div positive, Nat.div_eq_of_lt (by omega), add_zero]]
    exact arrived
  · rw [if_neg inside, getElem?_eq_none (by omega)]

lemma Filled.complete (all : ∀ i < count c msg.length, got i) : store.take msg.length = msg := by
  apply ext_getElem?
  intro k
  rw [getElem?_take]
  by_cases inside : k < msg.length
  · rw [if_pos inside]
    refine filled k inside (all _ ?_)
    rw [Nat.div_lt_iff_lt_mul positive]
    have := le_count_mul (n := msg.length) positive
    omega
  · rw [if_neg inside, getElem?_eq_none (by omega)]

end

end Blocks
