import Cwist.Http2.Conn

namespace Cwist.H2
open List

namespace Bucket

def charge (burst rate : Nat) : Bucket → List Nat → List (Nat × Bool)
  | _, [] => []
  | b, t :: rest =>
    let charged := b.consume burst rate t
    (t, charged.1) :: charge burst rate charged.2 rest

def accepted (first last : Nat) (events : List (Nat × Bool)) : Nat :=
  events.countP fun e => e.2 && (decide (first ≤ e.1) && decide (e.1 ≤ last))

/-- From a full bucket, at non-decreasing clock readings, every interval of `T` milliseconds sees at most
`burst + rate * T / 1000` accepted events. -/
def Limits (burst rate : Nat) : Prop :=
  ∀ (start : Nat) (readings : List Nat), (start :: readings).Pairwise (· ≤ ·) → ∀ t T,
    accepted t (t + T) (charge burst rate ⟨burst, start, 0⟩ readings) ≤ burst + T * rate / 1000

variable {burst rate now last : Nat} {b : Bucket}

lemma refill_budget_le (full : b.budget ≤ burst) : (b.refill burst rate now).budget ≤ burst := by
  unfold refill
  dsimp only
  split
  · exact le_refl burst
  split
  · dsimp only
    split <;> omega
  · exact full

lemma refill_lastRefill (ordered : b.lastRefillMs ≤ now) : (b.refill burst rate now).lastRefillMs ≤ now := by
  unfold refill
  dsimp only
  split
  · exact le_refl now
  split
  · exact le_refl now
  · exact ordered

lemma refill_lastRefill_eq (ordered : b.lastRefillMs ≤ now) (fast : 1000 ≤ rate) (small : rate < 2 ^ 32) :
    (b.refill burst rate now).lastRefillMs = now := by
  unfold refill
  dsimp only
  split
  · rfl
  by_cases same : now = b.lastRefillMs
  · simp [same]
  rw [if_pos]
  have elapsed : 1 ≤ now - b.lastRefillMs := by omega
  have more := le_trans fast (Nat.le_mul_of_pos_left rate elapsed)
  have less : (now - b.lastRefillMs) * rate < 1000 * 2 ^ 32 := by
    calc (now - b.lastRefillMs) * rate ≤ 1000 * rate := Nat.mul_le_mul_right rate (by omega)
      _ < 1000 * 2 ^ 32 := by omega
  omega

def supply (rate last : Nat) (b : Bucket) : Nat := b.budget + (last - b.lastRefillMs) * rate / 1000

lemma supply_refill (ordered : b.lastRefillMs ≤ now) (inside : now ≤ last) (covered : burst ≤ rate) :
    supply rate last (b.refill burst rate now) ≤ supply rate last b := by
  have split_ : (last - b.lastRefillMs) * rate = (now - b.lastRefillMs) * rate + (last - now) * rate := by
    rw [← add_mul]
    congr 1
    omega
  unfold supply refill
  dsimp only
  split
  next long =>
    have second := Nat.mul_le_mul_right rate long
    dsimp only
    omega
  split
  · have wraps' := Nat.mod_le (b.budget + (now - b.lastRefillMs) * rate / 1000 % 2 ^ 32) (2 ^ 32)
    dsimp only
    split <;> omega
  · omega

lemma consume_eq (burst rate now : Nat) (b : Bucket) : b.consume burst rate now =
      (decide ((b.refill burst rate now).budget ≠ 0),
        { b.refill burst rate now with budget := (b.refill burst rate now).budget - 1 }) := by
  unfold consume
  generalize b.refill burst rate now = refilled
  obtain ⟨budget, lastRefillMs, credited⟩ := refilled
  cases budget with
  | zero => rfl
  | succ budget => rfl

variable {first : Nat} {readings : List Nat}

lemma charge_readings (burst rate : Nat) (readings : List Nat) (b : Bucket) :
    (charge burst rate b readings).map Prod.fst = readings := by
  induction readings generalizing b with
  | nil => rfl
  | cons t rest ih => rw [charge, map_cons, ih]

lemma accepted_late (late : ∀ t ∈ readings, last < t) : accepted first last (charge burst rate b readings) = 0 := by
  refine countP_eq_zero.mpr fun e member => ?_
  have reading : e.1 ∈ readings := charge_readings burst rate readings b ▸ mem_map_of_mem member
  have after := late e.1 reading
  simp [not_le.mpr after]

lemma accepted_cons (first last t : Nat) (ok : Bool) (events : List (Nat × Bool)) :
    accepted first last ((t, ok) :: events) =
      accepted first last events + if ok = true ∧ first ≤ t ∧ t ≤ last then 1 else 0 := by
  simp [accepted, countP_cons]

lemma accepted_le_supply (covered : burst ≤ rate) (sorted : (b.lastRefillMs :: readings).Pairwise (· ≤ ·)) :
    accepted first last (charge burst rate b readings) ≤ supply rate last b := by
  induction readings generalizing b with
  | nil => exact Nat.zero_le _
  | cons t rest ih =>
    obtain ⟨before, sorted⟩ := pairwise_cons.mp sorted
    obtain ⟨after, sorted⟩ := pairwise_cons.mp sorted
    have ordered := before t mem_cons_self
    by_cases inside : t ≤ last
    · rw [charge, consume_eq]
      dsimp only
      rw [accepted_cons]
      have refilled := supply_refill ordered inside covered
      have stamp : (b.refill burst rate t).lastRefillMs ≤ t := refill_lastRefill ordered
      have rest := ih (b := { b.refill burst rate t with budget := (b.refill burst rate t).budget - 1 })
        (pairwise_cons.mpr ⟨fun u member => stamp.trans (after u member), sorted⟩)
      unfold supply at refilled rest ⊢
      dsimp only at refilled rest
      split
      next taken =>
        have some : (b.refill burst rate t).budget ≠ 0 := by simpa using taken.1
        omega
      · omega
    · have late : ∀ u ∈ t :: rest, last < u := by
        intro u member
        rcases mem_cons.mp member with rfl | later
        · omega
        · have := after u later
          omega
      rw [accepted_late late]
      exact Nat.zero_le _

lemma limits_of_fast (fast : 1000 ≤ rate) (small : rate < 2 ^ 32) (covered : burst ≤ rate)
    (full : b.budget ≤ burst) (sorted : (b.lastRefillMs :: readings).Pairwise (· ≤ ·)) (t T : Nat) :
    accepted t (t + T) (charge burst rate b readings) ≤ burst + T * rate / 1000 := by
  induction readings generalizing b with
  | nil => exact Nat.zero_le _
  | cons u rest ih =>
    obtain ⟨before, sorted⟩ := pairwise_cons.mp sorted
    have ordered := before u mem_cons_self
    have stamp : (b.refill burst rate u).lastRefillMs = u := refill_lastRefill_eq ordered fast small
    have capped : (b.refill burst rate u).budget ≤ burst := refill_budget_le full
    let b' : Bucket := { b.refill burst rate u with budget := (b.refill burst rate u).budget - 1 }
    have sorted' : (b'.lastRefillMs :: rest).Pairwise (· ≤ ·) := stamp.symm ▸ sorted
    rw [charge, consume_eq, accepted_cons]
    show accepted t (t + T) (charge burst rate b' rest) + _ ≤ _
    by_cases early : u < t
    · have rest := ih (b := b') (by dsimp only [b']; omega) sorted'
      rw [if_neg (by omega)]
      exact rest
    -- From the first event of the interval on, its supply bounds what is accepted.
    · have rest : accepted t (t + T) (charge burst rate b' rest) ≤ supply rate (t + T) b' :=
        accepted_le_supply covered sorted'
      have enough : supply rate (t + T) b' ≤ (b.refill burst rate u).budget - 1 + T * rate / 1000 := by
        unfold supply
        dsimp only [b']
        exact Nat.add_le_add_left (Nat.div_le_div_right (Nat.mul_le_mul_right rate (by omega))) _
      split
      next taken =>
        have some : (b.refill burst rate u).budget ≠ 0 := by simpa using taken.1
        omega
      · omega

lemma charge_replicate (n credited : Nat) (rest : List Nat)
    (still : ∀ budget credited, refill burst rate now ⟨budget, last, credited⟩ = ⟨budget, last, credited⟩) :
    charge burst rate ⟨n, last, credited⟩ (replicate n now ++ rest) =
      replicate n (now, true) ++ charge burst rate ⟨0, last, credited⟩ rest := by
  induction n with
  | zero => rfl
  | succ n ih =>
    rw [replicate_succ, cons_append, charge, consume_eq, still, replicate_succ, cons_append, ← ih]
    rfl

lemma refill_still (short : now - last < 1000) (nothing : (now - last) * rate < 1000) (budget credited : Nat) :
    refill burst rate now ⟨budget, last, credited⟩ = ⟨budget, last, credited⟩ := by
  have none := Nat.div_eq_of_lt nothing
  unfold refill
  dsimp only
  rw [if_neg (by omega), none, if_neg (by simp)]

lemma accepted_append (first last : Nat) (e₁ e₂ : List (Nat × Bool)) :
    accepted first last (e₁ ++ e₂) = accepted first last e₁ + accepted first last e₂ := countP_append

lemma accepted_replicate (n : Nat) (after : first ≤ now) (before : now ≤ last) :
    accepted first last (replicate n (now, true)) = n := by
  simp [accepted, countP_replicate, after, before]

lemma sorted_bursts (n m : Nat) (ordered : now ≤ last) :
    (0 :: (replicate n now ++ replicate m last)).Pairwise (· ≤ ·) := by
  simp only [pairwise_cons, pairwise_append, pairwise_replicate, mem_replicate, zero_le,
    implies_true, le_refl, or_true, true_and]
  rintro u ⟨-, rfl⟩ v ⟨-, rfl⟩
  exact ordered

lemma not_limits_of_slow (some : 0 < burst) (positive : 0 < rate) (slow : rate < 1000) : ¬Limits burst rate := by
  intro limits
  generalize x_eq : 999 / rate = x
  have inside : rate * x ≤ 999 := x_eq ▸ Nat.mul_div_le 999 rate
  have next : 999 < rate * (x + 1) := x_eq ▸ Nat.lt_mul_div_succ 999 positive
  have short := (Nat.le_mul_of_pos_left x positive).trans inside
  have step : rate * (x + 1) = rate * x + rate := Nat.mul_succ rate x
  have token : ((⟨0, 0, 0⟩ : Bucket).refill burst rate (x + 1)).budget ≠ 0 := by
    unfold refill
    dsimp only
    rw [Nat.sub_zero, mul_comm (x + 1)]
    split
    · exact some.ne'
    rw [if_pos (by omega)]
    dsimp only
    split <;> omega
  have law := limits 0 (replicate burst x ++ replicate 1 (x + 1)) (sorted_bursts burst 1 (Nat.le_succ x)) x 1
  have still : ∀ budget credited, refill burst rate x ⟨budget, 0, credited⟩ = ⟨budget, 0, credited⟩ :=
    refill_still (by omega) (by rw [Nat.sub_zero, mul_comm]; omega)
  rw [charge_replicate burst 0 _ still, accepted_append, accepted_replicate burst (le_refl x) (Nat.le_succ x),
    replicate_one, charge, consume_eq, accepted_cons,
    if_pos ⟨by simpa using token, Nat.le_succ x, le_rfl⟩] at law
  omega

lemma not_limits_of_burst (scarce : rate < burst) : ¬Limits burst rate := by
  intro limits
  have law := limits 0 (replicate burst 0 ++ replicate burst 1000)
    (sorted_bursts burst burst (Nat.zero_le 1000)) 0 1000
  have still : ∀ budget credited, refill burst rate 0 ⟨budget, 0, credited⟩ = ⟨budget, 0, credited⟩ :=
    refill_still (by omega) (by omega)
  have still' : ∀ budget credited, refill burst rate 1000 ⟨budget, 1000, credited⟩ = ⟨budget, 1000, credited⟩ :=
    refill_still (by omega) (by omega)
  have full : refill burst rate 1000 ⟨0, 0, 0⟩ = ⟨burst, 1000, 0 + burst⟩ := rfl
  have refilled : charge burst rate ⟨0, 0, 0⟩ (replicate burst 1000) =
      charge burst rate ⟨burst, 1000, 0 + burst⟩ (replicate burst 1000 ++ []) := by
    generalize events : replicate burst 1000 = readings
    cases readings with
    | nil => rfl
    | cons t rest =>
      obtain rfl : t = 1000 := eq_of_mem_replicate (events ▸ mem_cons_self)
      rw [append_nil, charge, charge, consume_eq, consume_eq, still', full]
  rw [charge_replicate burst 0 _ still, refilled, charge_replicate burst _ _ still', accepted_append,
    accepted_append, accepted_replicate burst (by omega) (by omega),
    accepted_replicate burst (by omega) (by omega)] at law
  omega

lemma accepted_empty (b : Bucket) (empty : b.budget = 0) (t T : Nat) (readings : List Nat) :
    accepted t T (charge 0 rate b readings) = 0 := by
  induction readings generalizing b with
  | nil => rfl
  | cons u rest ih =>
    have none : (b.refill 0 rate u).budget = 0 := Nat.le_zero.mp (refill_budget_le (le_of_eq empty))
    rw [charge, consume_eq, accepted_cons, ih _ (by rw [none]), none]
    simp

/-- The limit holds for every history exactly when the rate is at least a token a millisecond and a full refill is no
more than a second's worth of tokens. -/
theorem limits_iff (burst rate : UInt32) :
    Limits burst.toNat rate.toNat ↔ burst = 0 ∨ 1000 ≤ rate.toNat ∧ burst ≤ rate := by
  constructor
  · intro limits
    by_contra fails
    obtain ⟨some, slow⟩ := not_or.mp fails
    have some := Nat.pos_of_ne_zero fun none => some (UInt32.toNat_inj.mp none)
    by_cases covered : burst ≤ rate
    · have positive := some.trans_le (UInt32.le_iff_toNat_le.mp covered)
      exact not_limits_of_slow some positive (not_le.mp fun fast => slow ⟨fast, covered⟩) limits
    · exact not_limits_of_burst (not_le.mp fun le => covered (UInt32.le_iff_toNat_le.mpr le)) limits
  · rintro (rfl | ⟨fast, covered⟩) start readings sorted t T
    · rw [show (0 : UInt32).toNat = 0 from rfl, accepted_empty _ rfl]
      exact Nat.zero_le _
    · exact limits_of_fast fast rate.toNat_lt (UInt32.le_iff_toNat_le.mp covered) (Nat.le_refl _) sorted t T

/-- The defaults of the PING budget: 100 frames and 100 more a second later, where the limit is 150. -/
theorem not_limits_ping : ¬Limits 100 50 := by
  intro limits
  have sorted : (0 :: (replicate 100 0 ++ replicate 100 1000)).Pairwise (· ≤ ·) := by decide +kernel
  exact absurd (limits 0 (replicate 100 0 ++ replicate 100 1000) sorted 0 1000) (by decide +kernel)

end Bucket

end Cwist.H2
