import Mathlib

/-!
# Token buckets

A bucket holds at most `burst` tokens and gains `rate` of them in a unit of time.
-/

structure TokenBucket (K : Type*) where
  rate : K
  burst : K
  tokens : K
  last : K

namespace TokenBucket

variable {K : Type*} [Field K] [LinearOrder K]

def init (rate burst now : K) : TokenBucket K := ⟨rate, burst, burst, now⟩

def level (b : TokenBucket K) (now : K) : K := min b.burst (b.tokens + (now - b.last) * b.rate)

def consume (b : TokenBucket K) (now cost : K) : Bool × TokenBucket K :=
  if cost ≤ b.level now then (true, { b with tokens := b.level now - cost, last := now })
  else (false, { b with tokens := b.level now, last := now })

variable {b : TokenBucket K} {now cost rate burst : K}

@[simp]
lemma consume_rate (b : TokenBucket K) (now cost : K) : (b.consume now cost).2.rate = b.rate := by
  unfold consume
  split <;> rfl

@[simp]
lemma consume_burst (b : TokenBucket K) (now cost : K) : (b.consume now cost).2.burst = b.burst := by
  unfold consume
  split <;> rfl

lemma consume_iff (b : TokenBucket K) (now cost : K) : (b.consume now cost).1 = true ↔ cost ≤ b.level now := by
  unfold consume
  split <;> simp_all

lemma level_le_burst (b : TokenBucket K) (now : K) : b.level now ≤ b.burst := min_le_left _ _

@[simp]
lemma level_init (rate burst now : K) : (init rate burst now).level now = burst := by
  simp [level, init]

variable [IsStrictOrderedRing K]

lemma level_later {later : K} (notEmptying : 0 ≤ b.rate) (after : now ≤ later) :
    b.level later ≤ b.level now + (later - now) * b.rate := by
  have gained := mul_nonneg (sub_nonneg.mpr after) notEmptying
  unfold level
  rcases le_total b.burst (b.tokens + (now - b.last) * b.rate) with full | notFull
  · rw [min_eq_left full]
    exact (min_le_left _ _).trans (by linarith)
  · rw [min_eq_right notFull]
    exact (min_le_right _ _).trans (by linarith)

lemma level_consume (b : TokenBucket K) (now : K) (notNegative : 0 ≤ cost) :
    (b.consume now cost).2.level now = b.level now - if (b.consume now cost).1 then cost else 0 := by
  have bound := b.level_le_burst now
  unfold consume
  split
  · simp only [level, sub_self, zero_mul, add_zero, if_true]
    exact min_eq_right (by rw [← level]; linarith)
  · simp only [level, sub_self, zero_mul, add_zero, Bool.false_eq_true, if_false, sub_zero]
    exact min_eq_right (by exact bound)

structure Sound (b : TokenBucket K) (now : K) : Prop where
  rate : 0 ≤ b.rate
  burst : 0 ≤ b.burst
  tokens : 0 ≤ b.tokens
  last : b.last ≤ now

lemma sound_init (now : K) (rateNotNegative : 0 ≤ rate) (burstNotNegative : 0 ≤ burst) :
    (init rate burst now).Sound now :=
  ⟨rateNotNegative, burstNotNegative, burstNotNegative, le_refl now⟩

lemma Sound.later {later : K} (sound : b.Sound now) (after : now ≤ later) : b.Sound later :=
  { sound with last := sound.last.trans after }

lemma Sound.level_nonneg (sound : b.Sound now) : 0 ≤ b.level now :=
  le_min sound.burst (add_nonneg sound.tokens (mul_nonneg (sub_nonneg.mpr sound.last) sound.rate))

lemma Sound.consume (sound : b.Sound now) (cost : K) : (b.consume now cost).2.Sound now := by
  unfold TokenBucket.consume
  split
  case isTrue enough => exact ⟨sound.rate, sound.burst, sub_nonneg.mpr enough, le_refl now⟩
  case isFalse => exact ⟨sound.rate, sound.burst, sound.level_nonneg, le_refl now⟩

end TokenBucket
