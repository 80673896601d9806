import Mathlib

/-!
# Items cut from a growing buffer

A `step` looks at the front of a buffer and finds an item there, finds that there can be none, or asks for more.
-/

namespace Incremental
variable {σ α ι ε : Type*}

inductive Verdict (σ α ι ε : Type*) where
  | more
  | item (x : ι) (state : σ) (rest : List α)
  | fail (e : ε)

structure Outcome (σ α ι ε : Type*) where
  items : List ι
  failure : Option ε
  state : σ
  rest : List α
  deriving DecidableEq

def Outcome.after (items : List ι) (o : Outcome σ α ι ε) : Outcome σ α ι ε := { o with items := items ++ o.items }

structure Step (σ α ι ε : Type*) where
  run : σ → List α → Verdict σ α ι ε
  shorter : ∀ {q s x q' rest}, run q s = .item x q' rest → rest.length < s.length

variable (step : Step σ α ι ε)

def drain (q : σ) (s : List α) : Outcome σ α ι ε :=
  match _verdict : step.run q s with
  | .more => ⟨[], none, q, s⟩
  | .fail e => ⟨[], some e, q, s⟩
  | .item x q' rest => (drain q' rest).after [x]
termination_by s.length
decreasing_by exact step.shorter _verdict

def feed (q : σ) (s : List α) : List (List α) → Outcome σ α ι ε
  | [] => drain step q s
  | piece :: pieces =>
    let now := drain step q s
    match now.failure with
    | some e => ⟨now.items, some e, now.state, now.rest ++ (piece :: pieces).flatten⟩
    | none => (feed now.state (now.rest ++ piece) pieces).after now.items

inductive Remains (q : σ) (s : List α) : σ → List α → Prop where
  | start : Remains q s q s
  | next {q' q'' : σ} {r rest : List α} {x : ι} : Remains q s q' r → step.run q' r = .item x q'' rest → Remains q s q'' rest

/-- What a step says about a part of the buffer it says about the whole. -/
def Steady (q : σ) (s : List α) : Prop :=
  ∀ p t, s = p ++ t →
    (∀ x q' rest, step.run q p = .item x q' rest → step.run q s = .item x q' (rest ++ t)) ∧
      ∀ e, step.run q p = .fail e → step.run q s = .fail e

variable {step} {q : σ} {s : List α} {pieces : List (List α)} {q' : σ} {e : ε}

lemma drain_more (h : step.run q s = .more) : drain step q s = ⟨[], none, q, s⟩ := by
  rw [drain]
  split <;> simp_all

lemma drain_fail (h : step.run q s = .fail e) : drain step q s = ⟨[], some e, q, s⟩ := by
  rw [drain]
  split <;> simp_all

lemma drain_item {rest : List α} {x : ι} (h : step.run q s = .item x q' rest) :
    drain step q s = (drain step q' rest).after [x] := by
  rw [drain]
  split <;> simp_all

lemma drain_stops (q : σ) (s : List α) :
    step.run (drain step q s).state (drain step q s).rest =
      match (drain step q s).failure with
      | none => .more
      | some e => .fail e := by
  fun_induction drain step q s with
  | case1 q s verdict => exact verdict
  | case2 q s e verdict => exact verdict
  | case3 q s x q' rest verdict ih => exact ih

lemma drain_rest_le (q : σ) (s : List α) : (drain step q s).rest.length ≤ s.length := by
  fun_induction drain step q s with
  | case1 | case2 => exact Nat.le_refl _
  | case3 q s x q' rest verdict ih => exact Nat.le_trans ih (Nat.le_of_lt (step.shorter verdict))

lemma Remains.length_le {r : List α} (remains : Remains step q s q' r) : r.length ≤ s.length := by
  induction remains with
  | start => exact Nat.le_refl _
  | next _ found ih => exact Nat.le_trans (Nat.le_of_lt (step.shorter found)) ih

lemma feed_failure (failed : (feed step q s pieces).failure = some e) : ∃ q' s', step.run q' s' = .fail e := by
  induction pieces generalizing q s with rw [feed] at failed
  | nil => exact ⟨_, _, by rw [drain_stops q s, failed]⟩
  | cons piece pieces ih =>
    split at failed
    next e' now =>
      cases failed
      exact ⟨_, _, by rw [drain_stops q s, now]⟩
    · exact ih failed

lemma Remains.trans {q' q'' : σ} {r t : List α} (first : Remains step q s q' r) (second : Remains step q' r q'' t) :
    Remains step q s q'' t := by
  induction second with
  | start => exact first
  | next _ found ih => exact .next ih found

lemma drain_append {p t : List α} (steady : ∀ q' r, Remains step q (p ++ t) q' r → Steady step q' r) :
    ((drain step q p).failure = none → drain step q (p ++ t) =
            (drain step (drain step q p).state ((drain step q p).rest ++ t)).after (drain step q p).items ∧
          Remains step q (p ++ t) (drain step q p).state ((drain step q p).rest ++ t)) ∧
      ∀ e, (drain step q p).failure = some e →
        drain step q (p ++ t) = ⟨(drain step q p).items, some e, (drain step q p).state, (drain step q p).rest ++ t⟩ := by
  fun_induction drain step q p with
  | case1 q p verdict => exact ⟨fun _ => ⟨rfl, .start⟩, nofun⟩
  | case2 q p e verdict =>
    refine ⟨nofun, fun e' same => ?_⟩
    cases same
    exact drain_fail ((steady _ _ .start p t rfl).2 e verdict)
  | case3 q p x q' rest verdict ih =>
    have whole := (steady _ _ .start p t rfl).1 x q' rest verdict
    have steady' : ∀ q'' r, Remains step q' (rest ++ t) q'' r → Steady step q'' r := fun q'' r remains =>
      steady q'' r ((Remains.next .start whole).trans remains)
    obtain ⟨goes, fails⟩ := ih steady'
    rw [drain_item whole]
    refine ⟨fun open_ => ?_, fun e failed => ?_⟩
    · obtain ⟨same, remains⟩ := goes open_
      refine ⟨?_, (Remains.next .start whole).trans remains⟩
      rw [same]
      rfl
    · rw [fails e failed]
      rfl

lemma feed_eq (steady : ∀ q' r, Remains step q (s ++ pieces.flatten) q' r → Steady step q' r) :
    feed step q s pieces = drain step q (s ++ pieces.flatten) := by
  induction pieces generalizing q s with
  | nil => simp [feed]
  | cons piece pieces ih =>
    rw [List.flatten_cons] at steady ⊢
    obtain ⟨goes, fails⟩ := drain_append steady
    rw [feed]
    split
    next e failed =>
      rw [fails e failed]
      rfl
    rename_i open_
    obtain ⟨same, remains⟩ := goes open_
    rw [same, ih, List.append_assoc]
    intro q' r later
    rw [List.append_assoc] at later
    exact steady q' r (remains.trans later)

end Incremental
