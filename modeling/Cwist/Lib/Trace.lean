import Mathlib

/-!
# Event traces

A trace grows at its end.
-/

namespace Trace
open List

variable {ε : Type*} {kind kind' : ε → Prop} {ok : List ε → ε → Prop} {t t₁ t₂ : List ε} {e : ε}

def Extends (kind : ε → Prop) (t t' : List ε) : Prop := ∃ added, t' = t ++ added ∧ ∀ e ∈ added, kind e

lemma Extends.refl (kind : ε → Prop) (t : List ε) : Extends kind t t := ⟨[], by simp, by simp⟩

lemma Extends.snoc (t : List ε) (h : kind e) : Extends kind t (t ++ [e]) := ⟨[e], rfl, by simpa using h⟩

lemma Extends.trans (h₁ : Extends kind t t₁) (h₂ : Extends kind t₁ t₂) : Extends kind t t₂ := by
  obtain ⟨first, rfl, firstKind⟩ := h₁
  obtain ⟨second, rfl, secondKind⟩ := h₂
  refine ⟨first ++ second, by simp, ?_⟩
  intro e member
  rcases mem_append.mp member with h | h
  · exact firstKind e h
  · exact secondKind e h

lemma Extends.mono (weaker : ∀ e, kind e → kind' e) (h : Extends kind t t₁) : Extends kind' t t₁ := by
  obtain ⟨added, rfl, all⟩ := h
  exact ⟨added, rfl, fun e member => weaker e (all e member)⟩

section
variable (h : Extends kind t t₁)
include h

lemma Extends.prefix : t <+: t₁ := by
  obtain ⟨added, rfl, -⟩ := h
  exact prefix_append t added

lemma Extends.mem (member : e ∈ t) : e ∈ t₁ := by
  obtain ⟨added, rfl, -⟩ := h
  exact mem_append_left added member

lemma Extends.mem_iff (other : ¬kind e) : e ∈ t₁ ↔ e ∈ t := by
  obtain ⟨added, rfl, all⟩ := h
  rw [mem_append, or_iff_left fun member => other (all e member)]

lemma Extends.countP_eq {p : ε → Bool} (other : ∀ e, kind e → p e = false) : t₁.countP p = t.countP p := by
  obtain ⟨added, rfl, all⟩ := h
  have none : added.countP p = 0 := countP_eq_zero.mpr fun e member => by simp [other e (all e member)]
  rw [countP_append, none, Nat.add_zero]

end

def Orderly (ok : List ε → ε → Prop) (t : List ε) : Prop := ∀ before e after, t = before ++ e :: after → ok before e

lemma orderly_nil : Orderly ok [] := by
  intro before e after h
  simp at h

lemma Orderly.snoc (orderly : Orderly ok t) (h : ok t e) : Orderly ok (t ++ [e]) := by
  intro before e' after split
  rcases eq_nil_or_concat after with rfl | ⟨init, last, rfl⟩
  · obtain ⟨rfl, last⟩ := append_inj' split rfl
    obtain rfl : e = e' := by simpa using last
    exact h
  · have shifted : t ++ [e] = (before ++ e' :: init) ++ [last] := by simpa using split
    exact orderly before e' init (append_inj' shifted rfl).1

lemma Orderly.extend (orderly : Orderly ok t) (h : Extends kind t t₁) (free : ∀ t e, kind e → ok t e) :
    Orderly ok t₁ := by
  obtain ⟨added, rfl, all⟩ := h
  induction added using List.reverseRecOn with
  | nil => simpa using orderly
  | append_singleton init last ih =>
    rw [← append_assoc]
    exact (ih fun e member => all e (by simp [member])).snoc (free _ _ (all last (by simp)))

lemma Orderly.countP_le_one {p : ε → Bool} (orderly : Orderly ok t)
    (first : ∀ before e, ok before e → p e = true → ∀ e' ∈ before, p e' = false) : t.countP p ≤ 1 := by
  induction t using List.reverseRecOn with
  | nil => simp
  | append_singleton init last ih =>
    have earlier : init.countP p ≤ 1 := by
      refine ih fun before e after split => orderly before e (after ++ [last]) ?_
      rw [split, append_assoc, cons_append]
    rw [countP_append, countP_singleton]
    split
    next here =>
      have none : init.countP p = 0 := countP_eq_zero.mpr fun e' member => by
        simp [first init last (orderly init last [] rfl) here e' member]
      omega
    · omega

end Trace
