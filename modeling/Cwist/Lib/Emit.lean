import Mathlib

namespace Emit
open List

variable {π α : Type*} {emit : List α → π → Except (List α) (List α)} {wire : π → List α} {cap : Nat}

def stored : Except (List α) (List α) → List α
  | .ok out => out
  | .error out => out

structure Fills (emit : List α → π → Except (List α) (List α)) (wire : π → List α) (cap : Nat) : Prop where
  fits : ∀ out p, out.length + (wire p).length ≤ cap → emit out p = .ok (out ++ wire p)
  full : ∀ out p, out.length ≤ cap → cap < out.length + (wire p).length → ∃ left, emit out p = .error left

lemma Fills.ok (fills : Fills emit wire cap) (parts : List π) (out : List α)
    (room : out.length + (parts.flatMap wire).length ≤ cap) :
    parts.foldlM emit out = .ok (out ++ parts.flatMap wire) := by
  induction parts generalizing out with
  | nil => simp [pure, Except.pure]
  | cons p rest ih =>
    rw [flatMap_cons, length_append] at room
    rw [foldlM_cons, fills.fits out p (by omega)]
    show rest.foldlM emit (out ++ wire p) = _
    rw [ih _ (by rw [length_append]; omega), flatMap_cons, append_assoc]

lemma Fills.error (fills : Fills emit wire cap) (parts : List π) (out : List α) (start : out.length ≤ cap)
    (large : cap < out.length + (parts.flatMap wire).length) :
    ∃ before p after left, parts = before ++ p :: after ∧ out.length + (before.flatMap wire).length ≤ cap ∧
      cap < out.length + (before.flatMap wire).length + (wire p).length ∧
      emit (out ++ before.flatMap wire) p = .error left ∧ parts.foldlM emit out = .error left := by
  induction parts generalizing out with
  | nil => simp at large; omega
  | cons p rest ih =>
    rw [flatMap_cons, length_append] at large
    by_cases room : out.length + (wire p).length ≤ cap
    · have stepped : (out ++ wire p).length = out.length + (wire p).length := length_append
      obtain ⟨before, q, after, left, rfl, inside, past, fails, result⟩ := ih (out ++ wire p) (by omega) (by omega)
      refine ⟨p :: before, q, after, left, rfl, ?_, ?_, ?_, ?_⟩
      · rw [flatMap_cons, length_append]
        omega
      · rw [flatMap_cons, length_append]
        omega
      · rw [flatMap_cons, ← append_assoc]
        exact fails
      · rw [foldlM_cons, fills.fits out p room]
        exact result
    · obtain ⟨left, fails⟩ := fills.full out p start (by omega)
      refine ⟨[], p, rest, left, rfl, by simpa using start, by simpa using room, by simpa using fails, ?_⟩
      rw [foldlM_cons, fails]
      rfl

lemma Fills.ok_iff (fills : Fills emit wire cap) {parts : List π} {block : List α} :
    parts.foldlM emit [] = .ok block ↔ block = parts.flatMap wire ∧ (parts.flatMap wire).length ≤ cap := by
  by_cases room : (parts.flatMap wire).length ≤ cap
  · rw [fills.ok parts [] (by simpa using room), nil_append]
    exact ⟨fun same => ⟨(Except.ok.inj same).symm, room⟩, fun ⟨same, _⟩ => by rw [same]⟩
  · obtain ⟨-, -, -, left, -, -, -, -, result⟩ := fills.error parts [] (Nat.zero_le cap) (by simpa using room)
    rw [result]
    exact ⟨nofun, fun ⟨_, fits⟩ => absurd fits room⟩

end Emit
