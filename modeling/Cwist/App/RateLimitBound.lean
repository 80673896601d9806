import Cwist.App.RateLimit

namespace Cwist.App.RateLimit
open List TokenBucket

/-- Every bucket is one for `rpm` requests in a minute. -/
def Uniform (rpm : Int) (now : ℚ) (buckets : List IpBucket) : Prop :=
  ∀ b ∈ buckets, b.bucket.Sound now ∧ b.bucket.rate = rpm / 60 ∧ b.bucket.burst = rpm

def levelOf (rpm : Int) (buckets : List IpBucket) (ip : CStr) (now : ℚ) : ℚ :=
  match buckets.find? (·.ip = ip) with
  | some b => b.bucket.level now
  | none => rpm

variable {rpm rate highRpm head : Int} {now : ℚ} {buckets : List IpBucket} {rates : List Int} {cfgs : List Int}
  {rest : List Int}
  {ip : CStr}

lemma Uniform.later {later : ℚ} (uniform : Uniform rpm now buckets)
    (after : now ≤ later) : Uniform rpm later buckets := by
  intro b member
  obtain ⟨sound, rate, burst⟩ := uniform b member
  exact ⟨sound.later after, rate, burst⟩

lemma levelOf_bounds (uniform : Uniform rpm now buckets)
    (positive : 0 < rpm) (ip : CStr) : 0 ≤ levelOf rpm buckets ip now ∧ levelOf rpm buckets ip now ≤ rpm := by
  unfold levelOf
  split
  case h_1 b found =>
    obtain ⟨sound, -, burst⟩ := uniform b (mem_of_find?_eq_some found)
    exact ⟨sound.level_nonneg, burst ▸ b.bucket.level_le_burst now⟩
  case h_2 => exact ⟨by exact_mod_cast positive.le, le_refl _⟩

lemma levelOf_later {later : ℚ} (uniform : Uniform rpm now buckets)
    (positive : 0 < rpm) (after : now ≤ later) (ip : CStr) :
    levelOf rpm buckets ip later ≤ levelOf rpm buckets ip now + (later - now) * (rpm / 60) := by
  have gained : (0 : ℚ) ≤ (later - now) * (rpm / 60) := by
    have : (0 : ℚ) ≤ rpm := by exact_mod_cast positive.le
    exact mul_nonneg (sub_nonneg.mpr after) (by linarith)
  unfold levelOf
  split
  case h_1 b found =>
    obtain ⟨sound, rate, -⟩ := uniform b (mem_of_find?_eq_some found)
    rw [← rate]
    exact level_later sound.rate after
  case h_2 => linarith

structure Spends (rpm : Int) (buckets after : List IpBucket) (ip : CStr) (now : ℚ) (allowed : Bool) : Prop where
  iff : allowed = true ↔ 1 ≤ levelOf rpm buckets ip now
  own : levelOf rpm after ip now = levelOf rpm buckets ip now - if allowed then 1 else 0
  others : ∀ other, other ≠ ip → ∀ t, levelOf rpm after other t = levelOf rpm buckets other t
  uniform : Uniform rpm now after

lemma consumeFound_none (missing : consumeFound ip now buckets = none) : buckets.find? (·.ip = ip) = none := by
  induction buckets with
  | nil => rfl
  | cons b rest ih =>
    simp only [consumeFound] at missing
    split at missing
    case isTrue => cases missing
    case isFalse different =>
      rw [find?_cons_of_neg (by simpa using different)]
      exact ih (Option.map_eq_none_iff.mp missing)

lemma consumeFound_spends {after : List IpBucket} {allowed : Bool}
    (uniform : Uniform rpm now buckets) (found : consumeFound ip now buckets = some (allowed, after)) :
    Spends rpm buckets after ip now allowed ∧ after.length = buckets.length := by
  induction buckets generalizing allowed after with
  | nil => cases found
  | cons b rest ih =>
    have first := uniform b mem_cons_self
    have restUniform : Uniform rpm now rest := fun b member => uniform b (mem_cons_of_mem _ member)
    simp only [consumeFound] at found
    split at found
    case isTrue same =>
      cases found
      refine ⟨⟨?_, ?_, ?_, ?_⟩, rfl⟩
      · simp [levelOf, same, consume_iff]
      · simpa [levelOf, same] using b.bucket.level_consume now zero_le_one
      · intro other different t
        have notHere : b.ip ≠ other := fun here => different (here.symm.trans same)
        simp [levelOf, notHere]
      · intro b' member
        rcases mem_cons.mp member with rfl | member
        · exact ⟨first.1.consume 1, by simpa using first.2.1, by simpa using first.2.2⟩
        · exact restUniform b' member
    case isFalse different =>
      obtain ⟨⟨allowed', after'⟩, found', same⟩ := Option.map_eq_some_iff.mp found
      cases same
      obtain ⟨spends, length⟩ := ih restUniform found'
      refine ⟨⟨?_, ?_, ?_, ?_⟩, by simp [length]⟩
      · simpa [levelOf, different] using spends.iff
      · simpa [levelOf, different] using spends.own
      · intro other notIp t
        have rest := spends.others other notIp t
        by_cases here : b.ip = other
        · simp [levelOf, here]
        · simpa [levelOf, here] using rest
      · intro b' member
        rcases mem_cons.mp member with rfl | member
        · exact first
        · exact spends.uniform b' member

lemma newBucket_ip (ip : ClientIp) (now : ℚ) (rpm : Int) : (newBucket ip.text now rpm).ip = ip.text := by
  simp only [newBucket]
  rw [take_of_length_le ip.short, CStr.ofBytes_self]

lemma allow_spends {ip : ClientIp} (uniform : Uniform rpm now buckets)
    (positive : 0 < rpm) (room : buckets.length < maxIpBuckets) :
    Spends rpm buckets (allow buckets ip.text now rpm).2 ip.text now (allow buckets ip.text now rpm).1 := by
  unfold allow
  split
  case h_1 result found => exact (consumeFound_spends uniform found).1
  case h_2 missing =>
    have absent := consumeFound_none missing
    have named := newBucket_ip ip now rpm
    have full : (newBucket ip.text now rpm).bucket.level now = rpm := level_init _ _ _
    have rpmPositive : (0 : ℚ) < rpm := by exact_mod_cast positive
    rw [if_pos room]
    refine ⟨?_, ?_, ?_, ?_⟩
    · simp only [consume_iff, full, levelOf, absent]
    · have spent := (newBucket ip.text now rpm).bucket.level_consume now zero_le_one
      rw [full] at spent
      simp only [levelOf, find?_append, absent, Option.none_or, find?_cons, named, decide_true]
      exact spent
    · intro other different t
      have notNew : (newBucket ip.text now rpm).ip ≠ other := fun here => different (here.symm.trans named)
      simp [levelOf, find?_append, notNew]
    intro b member
    rcases mem_append.mp member with member | member
    · exact uniform b member
    obtain rfl := mem_singleton.mp member
    refine ⟨TokenBucket.Sound.consume (sound_init now ?_ rpmPositive.le) 1, ?_, ?_⟩
    · linarith
    · simp [newBucket, init]
    · simp [newBucket, init]

lemma effectiveRpm_pos (rpm : Int) : 0 < effectiveRpm rpm := by
  unfold effectiveRpm
  split <;> omega

lemma wrap_cases {r : Request}
    (rate : effectiveRpm (cfgs[r.middleware]?.getD 0) = rpm) (uniform : Uniform rpm r.now buckets)
    (room : buckets.length < maxIpBuckets) : r.ip = none ∧ (wrap cfgs buckets r).2 = buckets ∨
      ∃ client allowed, r.ip = some client ∧ ((wrap cfgs buckets r).1 = .next ↔ allowed = true) ∧
        Spends rpm buckets (wrap cfgs buckets r).2 client.text r.now allowed := by
  cases client : r.ip with
  | none =>
    left
    exact ⟨rfl, by simp only [wrap, rateLimitIpHandler, client]⟩
  | some client' =>
    right
    have spends : Spends rpm buckets (allow buckets client'.text r.now rpm).2 client'.text r.now _ := allow_spends uniform (rate ▸ effectiveRpm_pos _) room
    refine ⟨client', (allow buckets client'.text r.now rpm).1, rfl, ?_, ?_⟩
    · simp only [wrap, rateLimitIpHandler, client, rate]
      split <;> simp_all
    have same : (wrap cfgs buckets r).2 = (allow buckets client'.text r.now rpm).2 := by
      simp only [wrap, rateLimitIpHandler, client, rate]
      split <;> rfl
    rw [same]
    exact spends

section OneRate

structure OneRate (cfgs : List Int) (rpm : Int) (now : ℚ) (buckets : List IpBucket) (requests : List Request) : Prop where
  rate : ∀ r ∈ requests, effectiveRpm (cfgs[r.middleware]?.getD 0) = rpm
  after : ∀ r ∈ requests, now ≤ r.now
  inTime : requests.Pairwise fun earlier later => earlier.now ≤ later.now
  room : Machine.Meets (fun buckets r => (wrap cfgs buckets r).2) (fun buckets _ => buckets.length < maxIpBuckets) buckets
    requests
  uniform : Uniform rpm now buckets

variable {finish start : ℚ} {r : Request} {requests rest : List Request} {middleware : Nat}

section
variable (traffic : OneRate cfgs rpm now buckets (r :: rest))
include traffic

lemma OneRate.first : Uniform rpm r.now buckets :=
  traffic.uniform.later (traffic.after r mem_cons_self)

lemma OneRate.restart : OneRate cfgs rpm r.now buckets (r :: rest) where
  rate := traffic.rate
  after := by
    intro r' member
    rcases mem_cons.mp member with rfl | member
    · exact le_refl _
    · exact (pairwise_cons.mp traffic.inTime).1 r' member
  inTime := traffic.inTime
  room := traffic.room
  uniform := traffic.first

lemma OneRate.next : OneRate cfgs rpm r.now (wrap cfgs buckets r).2 rest where
  rate := fun r' member => traffic.rate r' (mem_cons_of_mem _ member)
  after := (pairwise_cons.mp traffic.inTime).1
  inTime := (pairwise_cons.mp traffic.inTime).2
  room := traffic.room.2
  uniform := by
    rcases wrap_cases (traffic.rate r mem_cons_self) traffic.first traffic.room.1 with
      ⟨-, same⟩ | ⟨client, allowed, -, -, spends⟩
    · rw [same]
      exact traffic.first
    · exact spends.uniform

end

lemma none_after (buckets : List IpBucket) (late : ∀ r ∈ requests, finish < r.now) :
    (serve cfgs buckets requests).countP (passedBetween middleware ip start finish) = 0 := by
  induction requests generalizing buckets with
  | nil => rfl
  | cons r rest ih =>
    rw [serve, countP_cons_of_neg]
    · exact ih _ fun r' member => late r' (mem_cons_of_mem _ member)
    · have notYet := not_le.mpr (late r mem_cons_self)
      simp [passedBetween, notYet]

lemma passed_from (positive : 0 < rpm) (traffic : OneRate cfgs rpm now buckets requests) (before : now ≤ finish) :
    ((serve cfgs buckets requests).countP (passedBetween middleware ip start finish) : ℚ) ≤
      levelOf rpm buckets ip now + (finish - now) * (rpm / 60) := by
  have rpmPositive : (0 : ℚ) < rpm := by exact_mod_cast positive
  induction requests generalizing now buckets with
  | nil =>
    have level := (levelOf_bounds traffic.uniform positive ip).1
    have gained : 0 ≤ (finish - now) * ((rpm : ℚ) / 60) := mul_nonneg (sub_nonneg.mpr before) (by linarith)
    simp only [serve, countP_nil, Nat.cast_zero]
    linarith
  | cons r rest ih =>
    by_cases late : finish < r.now
    · have all (r' : Request) (member : r' ∈ r :: rest) : finish < r'.now :=
        late.trans_le (traffic.restart.after r' member)
      have level := (levelOf_bounds traffic.uniform positive ip).1
      have gained : 0 ≤ (finish - now) * ((rpm : ℚ) / 60) := mul_nonneg (sub_nonneg.mpr before) (by linarith)
      rw [none_after buckets all]
      linarith
    have rest := ih traffic.next (not_lt.mp late)
    have grown := levelOf_later traffic.uniform positive (traffic.after r mem_cons_self) ip
    rw [serve, countP_cons, Nat.cast_add]
    rcases wrap_cases (traffic.rate r mem_cons_self) traffic.first traffic.room.1 with
      ⟨noIp, same⟩ | ⟨client, allowed, isClient, passes, spends⟩
    · rw [same] at rest ⊢
      simp only [passedBetween, noIp, Option.any_none, Bool.and_false, Bool.false_and, Bool.false_eq_true, if_false,
        Nat.cast_zero]
      linarith
    by_cases own : client.text = ip
    · subst own
      have spent := spends.own
      cases allowed with
      | true =>
        have one : ((if passedBetween middleware client.text start finish (r, (wrap cfgs buckets r).1) = true
            then 1 else 0 : ℕ) : ℚ) ≤ 1 := by
          split <;> simp
        simp only [if_true] at spent
        linarith
      | false =>
        have refused : (wrap cfgs buckets r).1 ≠ .next := fun next => Bool.false_ne_true (passes.mp next)
        simp only [Bool.false_eq_true, if_false, sub_zero] at spent
        simp only [passedBetween, refused, beq_iff_eq, Bool.and_eq_true, decide_eq_true_eq, and_false, false_and, if_false,
          Nat.cast_zero]
        linarith
    · have kept := spends.others ip (Ne.symm own) r.now
      simp only [passedBetween, isClient, Option.any_some, beq_iff_eq, own, Bool.and_eq_true, decide_eq_true_eq, and_false,
        false_and, if_false, Nat.cast_zero]
      linarith

lemma passed_within (positive : 0 < rpm) (traffic : OneRate cfgs rpm now buckets requests) (window : start ≤ finish) :
    ((serve cfgs buckets requests).countP (passedBetween middleware ip start finish) : ℚ) ≤
      rpm + (finish - start) * (rpm / 60) := by
  have rpmPositive : (0 : ℚ) < rpm := by exact_mod_cast positive
  have gained := mul_nonneg (sub_nonneg.mpr window) (by linarith)
  induction requests generalizing now buckets with
  | nil =>
    simp only [serve, countP_nil, Nat.cast_zero]
    linarith
  | cons r rest ih =>
    by_cases early : r.now < start
    · have notYet := not_le.mpr early
      rw [serve, countP_cons_of_neg (by simp [passedBetween, notYet])]
      exact ih traffic.next
    by_cases late : finish < r.now
    · rw [none_after buckets fun r' member => late.trans_le (traffic.restart.after r' member)]
      linarith
    have here : ((serve cfgs buckets (r :: rest)).countP (passedBetween middleware ip start finish) : ℚ) ≤ _ :=
      passed_from positive traffic.restart (not_lt.mp late)
    have full := (levelOf_bounds traffic.first positive ip).2
    have shorter : (finish - r.now) * ((rpm : ℚ) / 60) ≤ (finish - start) * (rpm / 60) :=
      mul_le_mul_of_nonneg_right (by linarith [not_lt.mp early]) (by linarith)
    linarith

end OneRate

lemma createAll_known (same : ∀ rate ∈ rates, effectiveRpm rate = rpm) :
    createAll [rpm] rates = ([rpm], List.replicate rates.length 0) := by
  induction rates with
  | nil => rfl
  | cons rate rest ih =>
    have known : rateLimitIp [rpm] rate = ([rpm], 0) := by
      simp [rateLimitIp, same rate mem_cons_self, findIdx?_cons]
    simp only [createAll, known, ih fun rate member => same rate (mem_cons_of_mem _ member), length_cons,
      replicate_succ]

lemma createAll_one (same : ∀ other ∈ rest, effectiveRpm other = effectiveRpm rate) :
    createAll [] (rate :: rest) = ([effectiveRpm rate], List.replicate (rest.length + 1) 0) := by
  have first : rateLimitIp [] rate = ([effectiveRpm rate], 0) := rfl
  simp only [createAll, first, createAll_known same, replicate_succ]

lemma effectiveRpm_effectiveRpm (rpm : Int) : effectiveRpm (effectiveRpm rpm) = effectiveRpm rpm := by
  have positive := effectiveRpm_pos rpm
  exact if_neg (not_le.mpr positive)

lemma bounded_of_one_rate (same : ∀ a ∈ rates, ∀ b ∈ rates, effectiveRpm a = effectiveRpm b) : Bounded rates := by
  intro requests traffic i rate middleware requested created ip start duration notNegative
  cases rates with
  | nil => cases requested
  | cons head rest =>
    have member := mem_of_getElem? requested
    rw [createAll_one fun other member => same other (mem_cons_of_mem _ member) head mem_cons_self] at traffic ⊢
    rw [same rate member head mem_cons_self]
    cases requests with
    | nil =>
      have positive : (0 : ℚ) < effectiveRpm head := by exact_mod_cast effectiveRpm_pos head
      have gained := mul_nonneg positive.le notNegative
      simp only [serve, countP_nil, Nat.cast_zero]
      linarith
    | cons r later =>
      have first (r' : Request) (member : r' ∈ r :: later) : r'.middleware = 0 :=
        eq_of_mem_replicate (traffic.created r' member)
      have oneRate : OneRate [effectiveRpm head] (effectiveRpm head) r.now [] (r :: later) := by
        refine ⟨?_, ?_, traffic.inTime, traffic.room, by simp [Uniform]⟩ <;> intro r' member
        · rw [first r' member]
          exact effectiveRpm_effectiveRpm head
        · rcases mem_cons.mp member with rfl | member
          · exact le_refl _
          · exact (pairwise_cons.mp traffic.inTime).1 r' member
      have window : start ≤ start + duration := by linarith
      have within : ((serve [effectiveRpm head] [] (r :: later)).countP
          (passedBetween middleware ip start (start + duration)) : ℚ) ≤ _ :=
        passed_within (effectiveRpm_pos head) oneRate window
      refine within.trans (le_of_eq ?_)
      ring

lemma prefix_createAll (cfgs rates : List Int) : cfgs <+: (createAll cfgs rates).1 := by
  induction rates generalizing cfgs with
  | nil => exact prefix_refl cfgs
  | cons rate rest ih =>
    have first : cfgs <+: (rateLimitIp cfgs rate).1 := by
      simp only [rateLimitIp]
      split
      · exact prefix_refl cfgs
      · split
        · exact prefix_refl cfgs
        · exact prefix_append cfgs _
    exact first.trans (ih _)

lemma createAll_second (another : ∃ rate ∈ rates, effectiveRpm rate ≠ rpm) :
    ∃ (j : Nat) (rate : Int), rates[j]? = some rate ∧ effectiveRpm rate ≠ rpm ∧ (createAll [rpm] rates).2[j]? = some 1 ∧
      [rpm, effectiveRpm rate] <+: (createAll [rpm] rates).1 := by
  induction rates with
  | nil =>
    obtain ⟨rate, member, -⟩ := another
    cases member
  | cons rate rest ih =>
    by_cases same : effectiveRpm rate = rpm
    · have known : rateLimitIp [rpm] rate = ([rpm], 0) := by simp [rateLimitIp, same, findIdx?_cons]
      obtain ⟨j, other, requested, different, slot, begins⟩ := ih (by simpa [same] using another)
      refine ⟨j + 1, other, requested, different, ?_, ?_⟩
      · simpa only [createAll, known, getElem?_cons_succ] using slot
      · simpa only [createAll, known] using begins
    · have added : rateLimitIp [rpm] rate = ([rpm, effectiveRpm rate], 1) := by
        simp [rateLimitIp, Ne.symm same, findIdx?_cons, maxCfgs]
      refine ⟨0, rate, rfl, same, ?_, ?_⟩
      · simp only [createAll, added, getElem?_cons_zero]
      · simp only [createAll, added]
        exact prefix_createAll _ _

lemma burst_passes (cfgs : List Int) (middleware : Nat) {n : Nat} {client : ClientIp} {b : TokenBucket ℚ}
    (enough : n ≤ b.level now) :
    (serve cfgs [⟨client.text, b⟩] (List.replicate n ⟨now, middleware, some client⟩)).countP
        (passedBetween middleware client.text now now) = n ∧
      Machine.Meets (fun buckets r => (wrap cfgs buckets r).2) (fun buckets _ => buckets.length < maxIpBuckets)
        [⟨client.text, b⟩] (List.replicate n ⟨now, middleware, some client⟩) := by
  induction n generalizing b with
  | zero => exact ⟨rfl, trivial⟩
  | succ n ih =>
    push_cast at enough
    have allowed := (b.consume_iff now 1).mpr (by linarith)
    have served : wrap cfgs [⟨client.text, b⟩] ⟨now, middleware, some client⟩ =
        (.next, [⟨client.text, (b.consume now 1).2⟩]) := by
      simp [wrap, rateLimitIpHandler, allow, consumeFound, allowed]
    have spent := b.level_consume now zero_le_one
    rw [if_pos allowed] at spent
    obtain ⟨count, room⟩ := ih (b := (b.consume now 1).2) (by linarith)
    rw [replicate_succ]
    constructor
    · have passed : passedBetween middleware client.text now now (⟨now, middleware, some client⟩, .next) = true := by
        simp [passedBetween]
      rw [serve, served, countP_cons_of_pos passed, count]
    · refine ⟨by simp [maxIpBuckets], ?_⟩
      simp only [served]
      exact room

lemma exceeds {high : Nat} (low : Nat) (client : ClientIp)
    (highCfg : cfgs[high]? = some highRpm) (highPositive : 0 < highRpm) :
    let requests := ⟨0, high, some client⟩ :: List.replicate highRpm.toNat ⟨60, low, some client⟩
    highRpm.toNat ≤ (serve cfgs [] requests).countP (passedBetween low client.text 60 60) ∧
      Machine.Meets (fun buckets r => (wrap cfgs buckets r).2) (fun buckets _ => buckets.length < maxIpBuckets) [] requests := by
  have rate : effectiveRpm highRpm = highRpm := if_neg (not_le.mpr highPositive)
  have named := newBucket_ip client 0 highRpm
  have rpmPositive : (1 : ℚ) ≤ highRpm := by exact_mod_cast highPositive
  have full : (newBucket client.text 0 highRpm).bucket.level 0 = highRpm := level_init _ _ _
  have allowed : ((newBucket client.text 0 highRpm).bucket.consume 0 1).1 = true := by
    rw [consume_iff, full]
    exact rpmPositive
  have served : wrap cfgs [] ⟨0, high, some client⟩ =
      (.next, [⟨client.text, ((newBucket client.text 0 highRpm).bucket.consume 0 1).2⟩]) := by
    simp [wrap, rateLimitIpHandler, allow, consumeFound, allowed, highCfg, rate, named, maxIpBuckets]
  have refilled : ((highRpm.toNat : ℕ) : ℚ) ≤ ((newBucket client.text 0 highRpm).bucket.consume 0 1).2.level 60 := by
    have cast : ((highRpm.toNat : ℕ) : ℚ) = highRpm := by exact_mod_cast Int.toNat_of_nonneg highPositive.le
    rw [cast, consume, if_pos ((consume_iff _ _ _).mp allowed), full]
    apply le_min
    · exact le_refl _
    · simp only [newBucket, init]
      linarith
  obtain ⟨count, room⟩ := burst_passes cfgs low refilled
  constructor
  · rw [serve, served, countP_cons, count]
    omega
  · refine ⟨by simp [maxIpBuckets], ?_⟩
    simp only [served]
    exact room

lemma not_bounded_of_pair {i high low : Nat}
    (highCfg : (createAll [] rates).1[high]? = some highRpm) (highCreated : high ∈ (createAll [] rates).2)
    (requested : rates[i]? = some rate) (created : (createAll [] rates).2[i]? = some low)
    (less : effectiveRpm rate < highRpm) : ¬ Bounded rates := by
  intro bounded
  let client : ClientIp := ⟨.ofBytes [], by decide⟩
  have positive := (effectiveRpm_pos rate).trans less
  obtain ⟨count, room⟩ := exceeds low client highCfg positive
  have traffic : Traffic (createAll [] rates).1 (createAll [] rates).2
      (⟨0, high, some client⟩ :: List.replicate highRpm.toNat ⟨60, low, some client⟩) := by
    refine ⟨?_, ?_, room⟩
    · intro r member
      rcases mem_cons.mp member with rfl | member
      · exact highCreated
      · rw [eq_of_mem_replicate member]
        exact mem_of_getElem? created
    · constructor
      · intro r member
        rw [eq_of_mem_replicate member]
        norm_num
      · exact pairwise_replicate.mpr (Or.inr (le_refl _))
  have bound := bounded _ traffic i rate low requested created client.text 60 0 (le_refl 0)
  rw [add_zero, mul_zero, zero_div, add_zero] at bound
  have atMost := (Nat.cast_le.mpr count).trans bound
  have cast : ((highRpm.toNat : ℕ) : ℚ) = highRpm := by exact_mod_cast Int.toNat_of_nonneg positive.le
  rw [cast] at atMost
  exact absurd (Int.cast_le.mp atMost) (not_le.mpr less)

lemma not_bounded_of_two_rates
    (another : ∃ rate ∈ rest, effectiveRpm rate ≠ effectiveRpm head) : ¬ Bounded (head :: rest) := by
  obtain ⟨j, rate, requested, different, slot, more, begins⟩ := createAll_second another
  have first : rateLimitIp [] head = ([effectiveRpm head], 0) := rfl
  have cfgs : (createAll [] (head :: rest)).1 = (createAll [effectiveRpm head] rest).1 := by simp only [createAll, first]
  have zero : (createAll [] (head :: rest)).1[0]? = some (effectiveRpm head) := by
    rw [cfgs, ← begins]
    rfl
  have one : (createAll [] (head :: rest)).1[1]? = some (effectiveRpm rate) := by
    rw [cfgs, ← begins]
    rfl
  have firstSlot : (createAll [] (head :: rest)).2[0]? = some 0 := by
    rfl
  have secondSlot : (createAll [] (head :: rest)).2[j + 1]? = some 1 := by
    exact slot
  rcases lt_or_gt_of_ne different with less | less
  · exact not_bounded_of_pair zero (mem_of_getElem? firstSlot) requested secondSlot less
  · exact not_bounded_of_pair one (mem_of_getElem? secondSlot) rfl firstSlot less

/-- The middlewares share their buckets, so each keeps to its rate exactly if all have the same one. -/
theorem bounded_iff_one_rate (rates : List Int) :
    Bounded rates ↔ ∀ a ∈ rates, ∀ b ∈ rates, effectiveRpm a = effectiveRpm b := by
  constructor
  · intro bounded
    cases rates with
    | nil =>
      intro a member
      cases member
    | cons head rest =>
      have same (rate : Int) (member : rate ∈ head :: rest) : effectiveRpm rate = effectiveRpm head := by
        by_contra different
        rcases mem_cons.mp member with rfl | member
        · exact different rfl
        · exact not_bounded_of_two_rates ⟨rate, member, different⟩ bounded
      intro a first b second
      exact (same a first).trans (same b second).symm
  · exact bounded_of_one_rate

/-- After a request through the middleware for 100 requests a minute, the one for 10 lets 100 requests through at once. -/
theorem ten_not_bounded_beside_hundred : ¬ Bounded [10, 100] :=
  not_bounded_of_two_rates ⟨100, by decide, by decide⟩

end Cwist.App.RateLimit
