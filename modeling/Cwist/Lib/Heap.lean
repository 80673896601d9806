import Mathlib

/-!
# Binary heaps in a list

The children of place `i` are at `2 * i + 1` and `2 * i + 2`.
-/

namespace Heap
open List

variable {α : Type*} {κ : Type*} [LinearOrder κ] (key : α → κ)

def parent (i : Nat) : Nat := (i - 1) / 2

def swap (l : List α) (i j : Nat) : List α :=
  match l[i]?, l[j]? with
  | some a, some b => (l.set i b).set j a
  | _, _ => l

def before (l : List α) (i j : Nat) : Bool :=
  match l[i]?, l[j]? with
  | some a, some b => decide (key a < key b)
  | _, _ => false

def smallest (l : List α) (i : Nat) : Nat :=
  let left := i * 2 + 1
  let right := left + 1
  let least := if before key l left i then left else i
  if before key l right least then right else least

def siftUp (l : List α) (i : Nat) : List α :=
  if i = 0 then l
  else if before key l i (parent i) then siftUp (swap l (parent i) i) (parent i)
  else l
termination_by i
decreasing_by unfold parent; omega

def InOrder (l : List α) (i j : Nat) : Prop := ∀ a b, l[i]? = some a → l[j]? = some b → key a ≤ key b

variable {key}

variable {i j c k m : Nat} {l rest : List α} {root first : α} {a b : α} {x : α}

lemma parent_lt (positive : 0 < i) : parent i < i := by
  unfold parent
  omega

lemma child_cases (positive : 0 < c) (child : parent c = i) : c = i * 2 + 1 ∨ c = i * 2 + 1 + 1 := by
  unfold parent at child
  omega

lemma swap_of_getElem? (first : l[i]? = some a) (second : l[j]? = some b) : swap l i j = (l.set i b).set j a := by
  rw [swap, first, second]

@[simp]
lemma length_swap (l : List α) (i j : Nat) : (swap l i j).length = l.length := by
  unfold swap
  split <;> simp

lemma perm_swap (l : List α) (i j : Nat) : (swap l i j).Perm l := by
  unfold swap
  split
  case h_2 => exact List.Perm.refl l
  case h_1 a b first second =>
    obtain ⟨iBound, rfl⟩ := List.getElem?_eq_some_iff.mp first
    obtain ⟨jBound, rfl⟩ := List.getElem?_eq_some_iff.mp second
    exact set_set_perm iBound jBound

lemma before_iff : before key l i j = true ↔ ∃ a b, l[i]? = some a ∧ l[j]? = some b ∧ key a < key b := by
  unfold before
  split
  case h_1 a b first second => simp [first, second]
  case h_2 unused =>
    constructor
    · intro impossible
      cases impossible
    · rintro ⟨a, b, first, second, -⟩
      exact absurd second (unused a b first)

lemma inOrder_of_not_before (notBefore : ¬ before key l j i = true) : InOrder key l i j := by
  intro a b first second
  by_contra less
  exact notBefore (before_iff.mpr ⟨b, a, second, first, lt_of_not_ge less⟩)

lemma InOrder.of_before (less : before key l i j = true) : InOrder key l i j := by
  obtain ⟨a, b, first, second, less⟩ := before_iff.mp less
  intro a' b' first' second'
  rw [first] at first'
  rw [second] at second'
  cases first'
  cases second'
  exact le_of_lt less

lemma InOrder.refl : InOrder key l i i := by
  intro x y first second
  cases first.symm.trans second
  exact le_rfl

lemma InOrder.trans (inUse : ∃ b, l[j]? = some b) (first : InOrder key l i j)
    (second : InOrder key l j k) : InOrder key l i k := by
  obtain ⟨b, found⟩ := inUse
  intro a c atI atK
  exact le_trans (first a b atI found) (second b c found atK)

lemma getElem?_swap (first : l[i]? = some a) (second : l[j]? = some b) (k : Nat) :
    (swap l i j)[k]? = l[Equiv.swap i j k]? := by
  have iBound := (List.getElem?_eq_some_iff.mp first).1
  have jBound := (List.getElem?_eq_some_iff.mp second).1
  rw [swap_of_getElem? first second]
  by_cases atJ : k = j
  · subst atJ
    rw [Equiv.swap_apply_right, first, getElem?_set_self (by simpa using jBound)]
  rw [getElem?_set_ne (Ne.symm atJ)]
  by_cases atI : k = i
  · subst atI
    rw [Equiv.swap_apply_left, second, getElem?_set_self iBound]
  · rw [getElem?_set_ne (Ne.symm atI), Equiv.swap_apply_of_ne_of_ne atI atJ]

lemma inOrder_swap_iff {x y : Nat} (less : before key l i j = true ∨ before key l j i = true) :
    InOrder key (swap l i j) x y ↔ InOrder key l (Equiv.swap i j x) (Equiv.swap i j y) := by
  have inUse : (∃ a, l[i]? = some a) ∧ ∃ b, l[j]? = some b := by
    rcases less with less | less
    all_goals
      obtain ⟨a, b, first, second, -⟩ := before_iff.mp less
      constructor
      all_goals exact ⟨_, by assumption⟩
  obtain ⟨⟨a, first⟩, b, second⟩ := inUse
  unfold InOrder
  rw [getElem?_swap first second, getElem?_swap first second]

def IsHeap (key : α → κ) (l : List α) : Prop := ∀ k, 0 < k → InOrder key l (parent k) k

lemma IsHeap.root_le (heap : IsHeap key (root :: rest)) (member : x ∈ root :: rest) : key root ≤ key x := by
  obtain ⟨k, found⟩ := mem_iff_getElem?.mp member
  -- The keys do not grow on the way from any place to the root.
  induction k using Nat.strongRecOn generalizing x with
  | ind k ih =>
    by_cases zero : k = 0
    · subst zero
      cases found
      exact le_rfl
    have up := parent_lt (Nat.pos_of_ne_zero zero)
    have bound := (List.getElem?_eq_some_iff.mp found).1
    obtain ⟨above, atParent⟩ : ∃ above, (root :: rest)[parent k]? = some above :=
      ⟨_, getElem?_eq_getElem (by omega)⟩
    exact le_trans (ih _ up (mem_of_getElem? atParent) atParent)
      (heap k (Nat.pos_of_ne_zero zero) _ _ atParent found)

/-- What a sift up keeps: only the item at `i` may be smaller than its parent, and the parent of `i` is in order with the
children of `i`. -/
structure UpOrder (key : α → κ) (l : List α) (i : Nat) : Prop where
  others : ∀ k, 0 < k → k ≠ i → InOrder key l (parent k) k
  around : 0 < i → ∀ c, 0 < c → parent c = i → InOrder key l (parent i) c

lemma UpOrder.swap (order : UpOrder key l i) (positive : 0 < i)
    (less : before key l i (parent i) = true) : UpOrder key (swap l (parent i) i) (parent i) := by
  have up := parent_lt positive
  have inUse : ∃ b, l[parent i]? = some b := by
    obtain ⟨a, b, -, second, -⟩ := before_iff.mp less
    exact ⟨b, second⟩
  constructor
  · intro k kPositive notParent
    rw [inOrder_swap_iff (.inr less)]
    by_cases atItem : k = i
    · subst atItem
      rw [Equiv.swap_apply_left, Equiv.swap_apply_right]
      exact InOrder.of_before less
    rw [Equiv.swap_apply_of_ne_of_ne notParent atItem]
    by_cases child : parent k = i
    · rw [child, Equiv.swap_apply_right]
      exact order.around positive k kPositive child
    by_cases sibling : parent k = parent i
    · rw [sibling, Equiv.swap_apply_left]
      have below := order.others k kPositive atItem
      rw [sibling] at below
      exact InOrder.trans inUse (InOrder.of_before less) below
    · rw [Equiv.swap_apply_of_ne_of_ne sibling child]
      exact order.others k kPositive atItem
  · intro pPositive c cPositive child
    have above := order.others (parent i) pPositive (by omega)
    have higher := parent_lt pPositive
    have lower := parent_lt cPositive
    rw [inOrder_swap_iff (.inr less), Equiv.swap_apply_of_ne_of_ne (by omega) (by omega)]
    by_cases atItem : c = i
    · subst atItem
      rw [Equiv.swap_apply_right]
      exact above
    · rw [Equiv.swap_apply_of_ne_of_ne (by omega) atItem]
      have below := order.others c cPositive atItem
      rw [child] at below
      exact InOrder.trans inUse above below

lemma siftUp_isHeap (order : UpOrder key l i) : IsHeap key (siftUp key l i) := by
  fun_induction siftUp key l i with
  | case1 l => exact fun k positive => order.others k positive (by omega)
  | case2 l i notRoot less ih => exact ih (order.swap (Nat.pos_of_ne_zero notRoot) less)
  | case3 l i notRoot notLess =>
    intro k positive
    by_cases atItem : k = i
    · subst atItem
      exact inOrder_of_not_before notLess
    · exact order.others k positive atItem

lemma perm_siftUp (l : List α) (i : Nat) : (siftUp key l i).Perm l := by
  fun_induction siftUp key l i with
  | case1 l => exact List.Perm.refl l
  | case2 l i _ _ ih => exact ih.trans (perm_swap l _ _)
  | case3 l => exact List.Perm.refl l

lemma smallest_cases (key : α → κ) (l : List α) (i : Nat) :
    smallest key l i = i ∧ (∀ c, 0 < c → parent c = i → InOrder key l i c) ∨
      0 < smallest key l i ∧ parent (smallest key l i) = i ∧ before key l (smallest key l i) i = true ∧
        ∀ c, 0 < c → parent c = i → InOrder key l (smallest key l i) c := by
  have leftChild : parent (i * 2 + 1) = i := by unfold parent; omega
  have rightChild : parent (i * 2 + 1 + 1) = i := by unfold parent; omega
  by_cases left : before key l (i * 2 + 1) i = true
  · right
    obtain ⟨a, b, atLeft, atItem, less⟩ := before_iff.mp left
    by_cases right : before key l (i * 2 + 1 + 1) (i * 2 + 1) = true
    · have here : smallest key l i = i * 2 + 1 + 1 := by simp [smallest, left, right]
      obtain ⟨c, a', atRight, atLeft', less'⟩ := before_iff.mp right
      cases atLeft.symm.trans atLeft'
      rw [here]
      refine ⟨by omega, rightChild, before_iff.mpr ⟨c, b, atRight, atItem, lt_trans less' less⟩, ?_⟩
      intro k positive child
      rcases child_cases positive child with rfl | rfl
      · exact InOrder.of_before right
      · exact .refl
    · have here : smallest key l i = i * 2 + 1 := by simp [smallest, left, right]
      rw [here]
      refine ⟨by omega, leftChild, left, ?_⟩
      intro k positive child
      rcases child_cases positive child with rfl | rfl
      · exact .refl
      · exact inOrder_of_not_before right
  · by_cases right : before key l (i * 2 + 1 + 1) i = true
    · have here : smallest key l i = i * 2 + 1 + 1 := by simp [smallest, left, right]
      obtain ⟨c, b, atRight, atItem, less⟩ := before_iff.mp right
      rw [here]
      refine .inr ⟨by omega, rightChild, right, ?_⟩
      intro k positive child
      rcases child_cases positive child with rfl | rfl
      · exact InOrder.trans ⟨b, atItem⟩ (InOrder.of_before right) (inOrder_of_not_before left)
      · exact .refl
    · left
      refine ⟨by simp [smallest, left, right], ?_⟩
      intro k positive child
      rcases child_cases positive child with rfl | rfl
      · exact inOrder_of_not_before left
      · exact inOrder_of_not_before right

lemma smallest_descends (moves : smallest key l i ≠ i) : i < smallest key l i ∧ smallest key l i < l.length := by
  rcases smallest_cases key l i with ⟨stays, -⟩ | ⟨positive, child, less, -⟩
  · exact absurd stays moves
  obtain ⟨a, b, first, -, -⟩ := before_iff.mp less
  have down := parent_lt positive
  have bound := (List.getElem?_eq_some_iff.mp first).1
  omega

variable (key) in
def siftDown (l : List α) (i : Nat) : List α :=
  if smallest key l i = i then l else siftDown (swap l i (smallest key l i)) (smallest key l i)
termination_by l.length - i
decreasing_by
  have := smallest_descends ‹smallest key l i ≠ i›
  rw [length_swap]
  omega

/-- What a sift down keeps: only the children of `i` may be smaller than their parent, and they are in order with the parent
of `i`. -/
structure DownOrder (key : α → κ) (l : List α) (i : Nat) : Prop where
  others : ∀ k, 0 < k → parent k ≠ i → InOrder key l (parent k) k
  around : 0 < i → ∀ c, 0 < c → parent c = i → InOrder key l (parent i) c

lemma DownOrder.swap (order : DownOrder key l i) (positive : 0 < m) (child : parent m = i)
    (less : before key l m i = true) (least : ∀ c, 0 < c → parent c = i → InOrder key l m c) :
    DownOrder key (swap l i m) m := by
  have down := parent_lt positive
  constructor
  · intro k kPositive notBelow
    rw [inOrder_swap_iff (.inr less)]
    by_cases atChild : k = m
    · subst atChild
      rw [child, Equiv.swap_apply_left, Equiv.swap_apply_right]
      exact InOrder.of_before less
    by_cases atItem : k = i
    · subst atItem
      have up := parent_lt kPositive
      rw [Equiv.swap_apply_left, Equiv.swap_apply_of_ne_of_ne (by omega) notBelow]
      exact order.around kPositive m positive child
    rw [Equiv.swap_apply_of_ne_of_ne atItem atChild]
    by_cases sibling : parent k = i
    · rw [sibling, Equiv.swap_apply_left]
      exact least k kPositive sibling
    · rw [Equiv.swap_apply_of_ne_of_ne sibling notBelow]
      exact order.others k kPositive sibling
  · intro _ c cPositive below
    have lower := parent_lt cPositive
    rw [inOrder_swap_iff (.inr less), child, Equiv.swap_apply_left,
      Equiv.swap_apply_of_ne_of_ne (by omega) (by omega), ← below]
    exact order.others c cPositive (by omega)

lemma siftDown_isHeap (order : DownOrder key l i) : IsHeap key (siftDown key l i) := by
  fun_induction siftDown key l i with
  | case1 l i stays =>
    rcases smallest_cases key l i with ⟨-, children⟩ | ⟨positive, child, less, least⟩
    · intro k positive
      by_cases below : parent k = i
      · rw [below]
        exact children k positive below
      · exact order.others k positive below
    · exact absurd (parent_lt positive) (by omega)
  | case2 l i moves ih =>
    rcases smallest_cases key l i with ⟨stays, -⟩ | ⟨positive, child, less, least⟩
    · exact absurd stays moves
    · exact ih (order.swap positive child less least)

lemma perm_siftDown (l : List α) (i : Nat) : (siftDown key l i).Perm l := by
  fun_induction siftDown key l i with
  | case1 l => exact List.Perm.refl l
  | case2 l i _ ih => exact ih.trans (perm_swap l _ _)

variable (key) in
def push (l : List α) (x : α) : List α := siftUp key (l ++ [x]) l.length

variable (key) in
def pop : List α → Option (α × List α)
  | [] => none
  | root :: rest =>
    match rest.getLast? with
    | none => some (root, [])
    | some last => some (root, siftDown key (last :: rest.dropLast) 0)

lemma push_isHeap (heap : IsHeap key l) (x : α) : IsHeap key (push key l x) := by
  apply siftUp_isHeap
  constructor
  · intro k positive notLast a b first second
    have bound := (List.getElem?_eq_some_iff.mp second).1
    have up := parent_lt positive
    simp only [length_append, length_singleton] at bound
    rw [getElem?_append_left (by omega)] at first second
    exact heap k positive a b first second
  · intro _ c positive child a b _ second
    have bound := (List.getElem?_eq_some_iff.mp second).1
    have up := parent_lt positive
    simp only [length_append, length_singleton] at bound
    omega

lemma perm_push (l : List α) (x : α) : (push key l x).Perm (x :: l) :=
  (perm_siftUp _ _).trans (perm_append_singleton x l)

lemma pop_isHeap (heap : IsHeap key l) (popped : pop key l = some (root, rest)) : IsHeap key rest := by
  cases l with
  | nil => cases popped
  | cons first others =>
    cases ends : others.getLast? with simp only [pop, ends, Option.some.injEq, Prod.mk.injEq] at popped
    | none =>
      obtain ⟨-, rfl⟩ := popped
      intro k _ a b _ found
      cases found
    | some last =>
      obtain ⟨-, rfl⟩ := popped
      apply siftDown_isHeap
      constructor
      · intro k positive notRoot a b atParent atPlace
        obtain ⟨p, same⟩ := Nat.exists_eq_succ_of_ne_zero notRoot
        obtain ⟨q, rfl⟩ := Nat.exists_eq_succ_of_ne_zero (Nat.ne_of_gt positive)
        have inOthers (n : Nat) (x : α) (found : others.dropLast[n]? = some x) : others[n]? = some x := by
          rw [getElem?_dropLast] at found
          split at found
          · exact found
          · cases found
        rw [same] at atParent
        apply heap (q + 1) positive a b
        · rw [show parent (q + 1) = p + 1 from same]
          exact inOthers p a atParent
        · exact inOthers q b atPlace
      · intro impossible
        exact absurd impossible (Nat.lt_irrefl 0)

lemma perm_pop (popped : pop key l = some (root, rest)) : l.Perm (root :: rest) := by
  cases l with
  | nil => cases popped
  | cons first others =>
    cases ends : others.getLast? with simp only [pop, ends, Option.some.injEq, Prod.mk.injEq] at popped
    | none =>
      obtain ⟨rfl, rfl⟩ := popped
      rw [getLast?_eq_none_iff.mp ends]
    | some last =>
      obtain ⟨rfl, rfl⟩ := popped
      obtain ⟨front, rfl⟩ := getLast?_eq_some_iff.mp ends
      rw [dropLast_concat]
      exact ((perm_append_singleton last front).trans (perm_siftDown _ 0).symm).cons first

lemma pop_root (popped : pop key (first :: l) = some (root, rest)) : root = first := by
  simp only [pop] at popped
  split at popped
  all_goals
    cases popped
    rfl

lemma pop_least (heap : IsHeap key l) (popped : pop key l = some (root, rest)) (member : x ∈ l) : key root ≤ key x := by
  cases l with
  | nil => cases popped
  | cons first others =>
    rw [pop_root popped]
    exact heap.root_le member

end Heap
