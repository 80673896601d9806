import Mathlib

/-!
# The first occurrence of a delimiter

`cut d s` is what stands before and after the first place where `d` occurs in `s`.
-/

namespace Delimit
open List Option
variable {α : Type*} [DecidableEq α] {d s t a b rear w : List α}

def cut (d : List α) : List α → Option (List α × List α)
  | [] => none
  | x :: s =>
    if d.isPrefixOf (x :: s) then some ([], (x :: s).drop d.length)
    else (cut d s).map fun (before, after) => (x :: before, after)

lemma cut_cons_of_front (x : α) (front : d <+: x :: s) : cut d (x :: s) = some ([], (x :: s).drop d.length) := by
  rw [cut, if_pos (List.isPrefixOf_iff_prefix.mpr front)]

lemma cut_cons_of_not_front (x : α) (later : ¬d <+: x :: s) :
    cut d (x :: s) = (cut d s).map fun (before, after) => (x :: before, after) := by
  rw [cut, if_neg fun front => later (List.isPrefixOf_iff_prefix.mp front)]

lemma eq_of_cut (found : cut d s = some (a, b)) : s = a ++ d ++ b := by
  induction s generalizing a with
  | nil => cases found
  | cons x s ih =>
    by_cases front : d <+: x :: s
    · rw [cut_cons_of_front x front] at found
      cases found
      exact (prefix_iff_eq_append.mp front).symm
    · rw [cut_cons_of_not_front x front] at found
      obtain ⟨⟨before, after⟩, found, same⟩ := map_eq_some_iff.mp found
      cases same
      rw [ih found]
      rfl

lemma cut_length (found : cut d s = some (a, b)) : s.length = a.length + d.length + b.length := by
  rw [eq_of_cut found, length_append, length_append]

lemma cut_append (t : List α) (found : cut d s = some (a, b)) : cut d (s ++ t) = some (a, b ++ t) := by
  induction s generalizing a with
  | nil => cases found
  | cons x s ih =>
    by_cases front : d <+: x :: s
    · have front' : d <+: x :: (s ++ t) := front.trans (prefix_append (x :: s) t)
      rw [cut_cons_of_front x front] at found
      cases found
      rw [cons_append, cut_cons_of_front x front', ← cons_append, drop_append_of_le_length front.length_le]
    rw [cut_cons_of_not_front x front] at found
    obtain ⟨⟨before, after⟩, found, same⟩ := map_eq_some_iff.mp found
    cases same
    -- the delimiter is within `s`, so that at `x` it cannot reach into `t`
    have later : ¬d <+: x :: (s ++ t) := by
      intro reaches
      have := cut_length found
      exact front (prefix_of_prefix_length_le reaches (prefix_append (x :: s) t) (by simp; omega))
    rw [cons_append, cut_cons_of_not_front x later, ih found]
    rfl

lemma cut_none_of_suffix (missing : cut d (t ++ s) = none) : cut d s = none := by
  induction t with
  | nil => exact missing
  | cons x t ih =>
    by_cases front : d <+: x :: (t ++ s)
    · rw [cons_append, cut_cons_of_front x front] at missing
      cases missing
    · rw [cons_append, cut_cons_of_not_front x front] at missing
      exact ih (map_eq_none_iff.mp missing)

lemma cut_none_before (found : cut (d ++ rear) s = some (a, b)) (nonempty : rear ≠ []) :
    cut (d ++ rear) (a ++ d) = none := by
  cases earlier : cut (d ++ rear) (a ++ d) with
  | none => rfl
  | some pieces =>
    have whole := cut_append (rear ++ b) earlier
    have same : a ++ d ++ (rear ++ b) = s := by rw [eq_of_cut found]; simp
    rw [same, found] at whole
    have place : a = pieces.1 := congrArg Prod.fst (some.inj whole)
    have size := cut_length earlier
    have := length_pos_iff.mpr nonempty
    rw [← place, length_append, length_append] at size
    omega

lemma cut_of_append (nonempty : d ≠ []) (found : cut d (s ++ t) = some (a, b)) (within : a.length + d.length ≤ s.length) :
    ∃ after, cut d s = some (a, after) ∧ b = after ++ t := by
  induction s generalizing a with
  | nil => exact absurd (length_eq_zero_iff.mp (Nat.eq_zero_of_add_eq_zero_left (Nat.le_zero.mp within))) nonempty
  | cons x s ih =>
    by_cases front : d <+: x :: (s ++ t)
    · rw [cons_append, cut_cons_of_front x front] at found
      cases found
      have front' := prefix_of_prefix_length_le front (prefix_append (x :: s) t) (by simpa using within)
      refine ⟨_, cut_cons_of_front x front', ?_⟩
      rw [← cons_append, drop_append_of_le_length front'.length_le]
    · rw [cons_append, cut_cons_of_not_front x front] at found
      obtain ⟨⟨before, after⟩, found, same⟩ := map_eq_some_iff.mp found
      cases same
      have later : ¬d <+: x :: s := fun here => front (here.trans (prefix_append (x :: s) t))
      obtain ⟨rest, found, same⟩ := ih found (by simp at within; omega)
      exact ⟨rest, by rw [cut_cons_of_not_front x later, found]; rfl, same⟩

lemma cut_skip {x : α} (other : x ∉ w) (s : List α) :
    cut (x :: d) (w ++ s) = (cut (x :: d) s).map fun (before, after) => (w ++ before, after) := by
  induction w with
  | nil => simp
  | cons y w ih =>
    obtain ⟨different, other⟩ := not_or.mp fun member => other (mem_cons.mpr member)
    have later : ¬x :: d <+: y :: (w ++ s) := by
      rintro ⟨t, same⟩
      exact different (List.cons.inj same).1
    rw [cons_append, cut_cons_of_not_front y later, ih other, Option.map_map]
    rfl

lemma cut_replace (nonempty : d ≠ []) (found : cut d s = some (a, b)) (t : List α) : cut d (a ++ d ++ t) = some (a, t) := by
  rw [eq_of_cut found] at found
  obtain ⟨after, here, same⟩ := cut_of_append nonempty found (by simp)
  have nothing := append_left_eq_self.mp same.symm
  rw [nothing] at here
  exact cut_append t here

lemma cut_take {k : Nat} (nonempty : d ≠ []) (found : cut d s = some (a, b)) (behind : k ≤ b.length) :
    (cut d (s.take (s.length - k))).isSome := by
  have size := cut_length found
  rw [← take_append_drop (s.length - k) s] at found
  obtain ⟨after, found, -⟩ := cut_of_append nonempty found (by rw [length_take]; omega)
  rw [found]
  rfl

end Delimit
