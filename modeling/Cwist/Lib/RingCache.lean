import Mathlib

/-!
# RingCache caches

A ring of slots with a write cursor.
-/

structure RingCache (α : Type*) where
  slots : List α
  count : Nat
  next : Nat
  deriving DecidableEq

namespace RingCache
open List

variable {α : Type*} {capacity : Nat} {r : RingCache α} {added : List α} {x : α}

def empty (capacity : Nat) (blank : α) : RingCache α := ⟨List.replicate capacity blank, 0, 0⟩

def contains [DecidableEq α] (r : RingCache α) (x : α) : Bool := (r.slots.take r.count).contains x

def add (r : RingCache α) (capacity : Nat) (x : α) : RingCache α :=
  { slots := r.slots.set r.next x
    next := (r.next + 1) % capacity
    count := if r.count < capacity then r.count + 1 else r.count }

/-- The ring after the entries `added`, the newest of them first: the `k`-th newest stands `k + 1` slots behind the
cursor. -/
structure Remembers (capacity : Nat) (added : List α) (r : RingCache α) : Prop where
  slots : r.slots.length = capacity
  next : r.next = added.length % capacity
  count : r.count = min added.length capacity
  entry : ∀ k < min added.length capacity, r.slots[(added.length - 1 - k) % capacity]? = added[k]?

lemma empty_remembers (capacity : Nat) (blank : α) : Remembers capacity [] (empty capacity blank) where
  slots := length_replicate
  next := (Nat.zero_mod _).symm
  count := (Nat.zero_min _).symm
  entry k bound := by simp at bound

lemma Remembers.add (positive : 0 < capacity) (remembers : Remembers capacity added r) (x : α) :
    Remembers capacity (x :: added) (r.add capacity x) where
  slots := length_set.trans remembers.slots
  next := by
    show (r.next + 1) % capacity = (added.length + 1) % capacity
    rw [remembers.next, Nat.mod_add_mod]
  count := by
    show (if r.count < capacity then r.count + 1 else r.count) = min (added.length + 1) capacity
    rw [remembers.count]
    split <;> omega
  entry k bound := by
    show (r.slots.set r.next x)[(added.length - k) % capacity]? = (x :: added)[k]?
    have cursor : added.length % capacity < capacity := Nat.mod_lt _ positive
    rw [remembers.next]
    rw [length_cons] at bound
    cases k with
    | zero => exact getElem?_set_self (by rw [remembers.slots]; exact cursor)
    | succ k =>
      -- entries that are less than `capacity` apart stand in different slots
      have apart : added.length % capacity ≠ (added.length - (k + 1)) % capacity := by
        intro same
        have divides := (Nat.modEq_iff_dvd' (by omega)).mp same.symm
        have := Nat.le_of_dvd (by omega) divides
        omega
      have entry := remembers.entry k (by omega)
      rwa [getElem?_set_ne apart, getElem?_cons_succ, add_comm k, ← Nat.sub_sub]

lemma Remembers.contains_iff [DecidableEq α] (positive : 0 < capacity) (remembers : Remembers capacity added r) :
    r.contains x = true ↔ x ∈ added.take capacity := by
  have count := remembers.count
  rw [contains, contains_iff_mem, mem_iff_getElem?, mem_iff_getElem?]
  constructor
  · rintro ⟨j, entry⟩
    rw [List.getElem?_take] at entry
    split at entry
    · have quotient := Nat.div_add_mod (added.length - 1 - j) capacity
      have remainder : (added.length - 1 - j) % capacity < capacity := Nat.mod_lt _ positive
      generalize (added.length - 1 - j) % capacity = k at quotient remainder
      have place : (added.length - 1 - k) % capacity = j := by
        rw [show added.length - 1 - k = j + capacity * ((added.length - 1 - j) / capacity) by omega,
          Nat.add_mul_mod_self_left, Nat.mod_eq_of_lt (by omega)]
      have held := remembers.entry k (by omega)
      rw [place, entry] at held
      exact ⟨k, by rw [List.getElem?_take, if_pos remainder]; exact held.symm⟩
    · cases entry
  · rintro ⟨k, entry⟩
    rw [List.getElem?_take] at entry
    split at entry
    · have inside := (List.getElem?_eq_some_iff.mp entry).1
      have held := remembers.entry k (by omega)
      refine ⟨(added.length - 1 - k) % capacity, ?_⟩
      have slot : (added.length - 1 - k) % capacity < r.count := by
        have within : (added.length - 1 - k) % capacity < capacity := Nat.mod_lt _ positive
        have below := Nat.mod_le (added.length - 1 - k) capacity
        omega
      rw [List.getElem?_take, if_pos slot, held, entry]
    · cases entry

end RingCache
