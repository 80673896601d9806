import Mathlib

namespace Fifo
variable {α β : Type*} {limit : Nat} {xs : List α}

def total (w : α → Nat) (xs : List α) : Nat := (xs.map w).sum

@[simp] lemma total_nil (w : α → Nat) : total w [] = 0 := rfl

@[simp] lemma total_cons (w : α → Nat) (x : α) (xs : List α) : total w (x :: xs) = w x + total w xs := by
  simp [total]

lemma total_snoc (w : α → Nat) (xs : List α) (x : α) : total w (xs ++ [x]) = total w xs + w x := by
  simp [total]

def keep (w : α → Nat) (limit : Nat) : List α → List α
  | [] => []
  | x :: xs => if w x ≤ limit then x :: keep w (limit - w x) xs else []

lemma keep_map (w : β → Nat) (f : α → β) (limit : Nat) (xs : List α) :
    keep w limit (xs.map f) = (keep (fun x => w (f x)) limit xs).map f := by
  induction xs generalizing limit with
  | nil => rfl
  | cons x xs ih =>
    rw [List.map_cons, keep, keep]
    split
    · rw [ih, List.map_cons]
    · rfl

lemma total_keep_le (w : α → Nat) (limit : Nat) (xs : List α) : total w (keep w limit xs) ≤ limit := by
  induction xs generalizing limit with
  | nil => simp [keep]
  | cons x xs ih =>
    rw [keep]
    split
    · have := ih (limit - w x)
      rw [total_cons]
      omega
    · simp

lemma keep_of_fits (w : α → Nat) (fits : total w xs ≤ limit) : keep w limit xs = xs := by
  induction xs generalizing limit with
  | nil => rfl
  | cons x xs ih =>
    rw [total_cons] at fits
    rw [keep, if_pos (by omega), ih (by omega)]

lemma keep_snoc (w : α → Nat) {x : α} (heavy : limit < total w (xs ++ [x])) :
    keep w limit (xs ++ [x]) = keep w limit xs := by
  induction xs generalizing limit with
  | nil =>
    have : ¬w x ≤ limit := by simpa using heavy
    simp [keep, this]
  | cons y xs ih =>
    rw [List.cons_append, total_cons] at heavy
    rw [List.cons_append, keep, keep]
    split
    · rw [ih (by omega)]
    · rfl

end Fifo
