import Mathlib

/-!
# Runs of a machine

A machine takes its inputs one after another.
-/

namespace Machine

variable {σ ι : Type*} {step : σ → ι → σ} {ok : σ → ι → Prop} {inv : σ → Prop}

def Meets (step : σ → ι → σ) (ok : σ → ι → Prop) : σ → List ι → Prop
  | _, [] => True
  | s, i :: rest => ok s i ∧ Meets step ok (step s i) rest

instance Meets.decidable [∀ s i, Decidable (ok s i)] : ∀ (s : σ) (inputs : List ι), Decidable (Meets step ok s inputs)
  | _, [] => .isTrue trivial
  | s, i :: rest => @instDecidableAnd _ _ _ (Meets.decidable (step s i) rest)

lemma Meets.invariant (preserves : ∀ s i, inv s → ok s i → inv (step s i)) {s : σ} {inputs : List ι}
    (meets : Meets step ok s inputs) (start : inv s) : inv (inputs.foldl step s) := by
  induction inputs generalizing s with
  | nil => exact start
  | cons i rest ih => exact ih meets.2 (preserves s i start meets.1)

lemma Meets.congr {p q given : σ → ι → Prop} (same : ∀ s i, inv s → given s i → (p s i ↔ q s i))
    (preserves : ∀ s i, inv s → given s i → q s i → inv (step s i)) {s : σ} {inputs : List ι} (start : inv s)
    (meets : Meets step given s inputs) : Meets step p s inputs ↔ Meets step q s inputs := by
  induction inputs generalizing s with
  | nil => exact Iff.rfl
  | cons i rest ih =>
    obtain ⟨here, later⟩ := meets
    constructor <;> rintro ⟨first, others⟩
    · have first := (same s i start here).mp first
      exact ⟨first, (ih (preserves s i start here first) later).mp others⟩
    · exact ⟨(same s i start here).mpr first, (ih (preserves s i start here first) later).mpr others⟩

end Machine
