import Cwist.Jobs.Conserved

namespace Cwist.Jobs
open List Store

namespace Store
variable {r : Store} {e : Entry} {id next maxRetries : Nat}

lemma not_waiting_of_gone (gone : Gone r id) : id ∉ r.waiting := by
  intro there
  rcases mem_append.mp there with pending | unread
  · exact gone.2 pending
  · exact absurd gone.1 (not_lt.mpr (mem_range'_1.mp unread).1)

lemma records_counted (wf : r.Wf) (there : id ∈ r.pending) (found : r.stream[id]? = some e) (n : Int) :
    (r.hset id n).records.Perm ((e.job, n) :: (r.xack id).2.records) := by
  have perm := records_xack (r := r.hset id n) there found
  rw [count_hset_self] at perm
  have gone := not_waiting_of_gone (gone_xack wf (wf.pending id there))
  have same : ((r.hset id n).xack id).2.records = (r.xack id).2.records := records_hset (r := (r.xack id).2) gone n
  rwa [same] at perm

section
variable {jobs : List (CStr × Bytes)} (sound : r.Sound jobs)
include sound

lemma Sound.record_unique {j : Nat} {k k' : Int}
    (first : (j, k) ∈ r.records) (second : (j, k') ∈ r.records) : k = k' := by
  have unique : (r.records.map Prod.fst).Nodup := by
    rw [records_fst]
    exact sound.live
  exact congrArg Prod.snd (inj_on_of_nodup_map unique first second rfl)

lemma Sound.record_lt {j : Nat} {k : Int} (record : (j, k) ∈ r.records) : j < jobs.length := by
  refine sound.live_lt ?_
  rw [← records_fst]
  exact mem_map_of_mem record

lemma records_reapScript (short : Short jobs) (now : Nat) : (r.reapScript now).records.Perm r.records := by
  have both : (r.reapScript now).Sound jobs ∧ (r.reapScript now).records.Perm r.records := by
    refine reapScript_keeps (Q := fun r' => r'.Sound jobs ∧ r'.records.Perm r.records) ?_ now ⟨sound, .refl _⟩
    rintro r' p there ⟨sound, perm⟩
    exact ⟨sound.reapOne short there, (records_reapOne sound.wf there).trans perm⟩
  exact both.2

end

lemma records_nackScript (wf : r.Wf) (found : r.stream[id]? = some e) {p : Parked}
    (job : p.job = e.job) (same : id ∈ r.pending → (blobAttempts p.blob : Int) - 1 = r.count id) :
    ∀ x ∈ (r.nackScript id next maxRetries p).records, x ∈ r.records := by
  intro x member
  unfold nackScript at member
  by_cases there : id ∈ r.pending
  · have perm := records_xack there found
    have forgot := records_hdel (not_waiting_of_gone (gone_xack wf (wf.pending id there)))
    simp only [xack, there, decide_true, Bool.not_true, Bool.false_eq_true, if_false] at member forgot perm
    rw [perm.mem_iff]
    split at member
    · exact mem_cons_of_mem _ (forgot ▸ member)
    rcases records_zadd (r := hdel id { r with pending := r.pending.erase id }) p with ⟨-, added⟩ | ⟨-, kept⟩
    · rw [added.mem_iff, forgot, same there, job] at member
      exact member
    · rw [kept.mem_iff, forgot] at member
      exact mem_cons_of_mem _ member
  · simp only [xack, there, decide_false, Bool.not_false, if_true, erase_of_not_mem there] at member
    exact member

end Store

namespace World
variable {w w' : World} {maxRetries : Nat}

def Careful (maxRetries : Nat) (w : World) : Action → Prop
  | .count c =>
    match w.tasks c with
    | .claimed id _ _ => id ∈ w.store.pending ∧ w.store.count id + 1 < 2 ^ 32
    | .fresh id _ => id ∈ w.store.pending ∧ w.store.count id + 1 < 2 ^ 32 ∧ w.store.count id + 1 ≤ maxRetries
    | _ => True
  | .nack c _ =>
    match w.tasks c with
    | .holding id _ attempts => id ∈ w.store.pending → (attempts : Int) = w.store.count id ∧ attempts + 1 < 2 ^ 32
    | _ => True
  | _ => True

/-- No job has been handed out more often than it is recorded, or than the limit allows. -/
structure Bounded (maxRetries : Nat) (w : World) : Prop where
  recorded : ∀ j k, (j, k) ∈ w.store.records → (w.handed.count j : Int) ≤ k
  most : ∀ j, j ∈ w.store.dead.map DeadLetter.job ∨ w.handed.count j ≤ maxRetries
  known : ∀ j ∈ w.handed, j < w.jobs.length

def Rises (w w' : World) : Prop :=
  ∀ j k k', (j, k) ∈ w.store.records → (j, k') ∈ w'.store.records → k ≤ k'

lemma Bounded.kept (bounded : w.Bounded maxRetries) (sound : w.Sound)
    (records : ∀ x ∈ w'.store.records, x ∈ w.store.records) (handed : w'.handed = w.handed) (jobs : w'.jobs = w.jobs)
    (grows : w.store.Grows w'.store) : w'.Bounded maxRetries ∧ Rises w w' := by
  refine ⟨⟨?_, ?_, ?_⟩, ?_⟩
  · intro j k member
    rw [handed]
    exact bounded.recorded j k (records _ member)
  · intro j
    rw [handed]
    exact (bounded.most j).imp_left (grows.dead j)
  · rw [handed, jobs]
    exact bounded.known
  · intro j k k' before after
    exact Int.le_of_eq (sound.store.record_unique before (records _ after))

lemma deliveryCount_eq {n : Int} (positive : 0 < n) (small : n < 2 ^ 32) : (deliveryCount n : Int) = n := by
  rw [deliveryCount, if_pos positive]
  omega

section
variable (bounded : w.Bounded maxRetries) (sound : w.Sound)
include bounded sound

lemma Bounded.counted {id : Nat} {e : Entry}
    (there : id ∈ w.store.pending) (delivered : Delivered w.store id e) {w' : World}
    (store : w'.store = w.store.hset id (w.store.count id + 1)) (jobs : w'.jobs = w.jobs)
    (handed : w'.handed = w.handed ∨
      w'.handed = w.handed ++ [e.job] ∧ w.store.count id + 1 ≤ maxRetries) : w'.Bounded maxRetries ∧ Rises w w' := by
  have before := records_xack there delivered.1
  have after := records_counted sound.store.wf there delivered.1 (w.store.count id + 1)
  rw [← store] at after
  have here := before.mem_iff.mpr mem_cons_self
  -- The job has one record, so the others are of other jobs.
  have others : ∀ k, (e.job, k) ∉ (w.store.xack id).2.records := by
    intro k member
    have unique : (((e.job, w.store.count id) :: (w.store.xack id).2.records).map Prod.fst).Nodup := by
      rw [← (before.map Prod.fst).nodup_iff, records_fst]
      exact sound.store.live
    rw [map_cons, nodup_cons] at unique
    exact unique.1 (mem_map.mpr ⟨_, member, rfl⟩)
  have least : ∀ j, w'.handed.count j ≤ w.handed.count j + if j = e.job then 1 else 0 := by
    intro j
    rcases handed with same | ⟨more, -⟩
    · rw [same]
      exact Nat.le_add_right _ _
    rw [more]
    by_cases this : j = e.job
    · simp [this]
    · simp [this, Ne.symm this]
  refine ⟨⟨?_, ?_, ?_⟩, ?_⟩
  · intro j k member
    have step := least j
    rcases mem_cons.mp (after.mem_iff.mp member) with same | other
    · obtain ⟨rfl, rfl⟩ := Prod.mk.inj same
      have bound := bounded.recorded _ _ here
      rw [if_pos rfl] at step
      omega
    · have bound := bounded.recorded j k (before.mem_iff.mpr (mem_cons_of_mem _ other))
      have differs : j ≠ e.job := by
        rintro rfl
        exact others k other
      rw [if_neg differs] at step
      omega
  · intro j
    rcases bounded.most j with dead | most
    · left
      rw [store]
      exact dead
    rcases handed with same | ⟨more, limit⟩
    · exact .inr (same ▸ most)
    have step := least j
    split at step
    next this =>
      have bound := bounded.recorded _ _ here
      rw [this] at step ⊢
      omega
    · omega
  · rw [jobs]
    intro j member
    rcases handed with same | ⟨more, -⟩
    · exact bounded.known j (same ▸ member)
    rw [more] at member
    rcases mem_append.mp member with old | last
    · exact bounded.known j old
    · rw [mem_singleton.mp last]
      exact sound.store.record_lt here
  · intro j k k' old new
    rcases mem_cons.mp (after.mem_iff.mp new) with same | other
    · obtain ⟨rfl, rfl⟩ := Prod.mk.inj same
      have := sound.store.record_unique old here
      omega
    · exact Int.le_of_eq (sound.store.record_unique old (before.mem_iff.mpr (mem_cons_of_mem _ other)))

lemma Bounded.enqueued (type : CStr) (payload : Bytes) : Bounded maxRetries
        { w with store := w.store.xadd ⟨w.jobs.length, type, payload⟩, jobs := w.jobs ++ [(type, payload)] } ∧
      Rises w { w with store := w.store.xadd ⟨w.jobs.length, type, payload⟩, jobs := w.jobs ++ [(type, payload)] } := by
  have perm := records_xadd (e := ⟨w.jobs.length, type, payload⟩) sound.store.wf
  have unset : w.store.count w.store.stream.length = 0 := by
    rw [Store.count, sound.store.unset _ (le_rfl)]
    rfl
  refine ⟨⟨?_, bounded.most, ?_⟩, ?_⟩
  · intro j k member
    rcases mem_cons.mp (perm.mem_iff.mp member) with same | old
    · obtain ⟨rfl, rfl⟩ := Prod.mk.inj same
      have never : w.jobs.length ∉ w.handed := fun there => lt_irrefl _ (bounded.known _ there)
      rw [count_eq_zero.mpr never, unset]
      exact Int.le_refl _
    · exact bounded.recorded j k old
  · intro j member
    rw [length_append]
    exact lt_of_lt_of_le (bounded.known j member) (Nat.le_add_right _ _)
  · intro j k k' before after
    rcases mem_cons.mp (perm.mem_iff.mp after) with same | old
    · obtain ⟨rfl, -⟩ := Prod.mk.inj same
      exact absurd (sound.store.record_lt before) (lt_irrefl _)
    · exact Int.le_of_eq (sound.store.record_unique before old)

lemma Bounded.countStep {c : Nat} (careful : Careful maxRetries w (.count c)) :
    (countStep maxRetries w c).Bounded maxRetries ∧ Rises w (countStep maxRetries w c) := by
  have number {id : Nat} {e : Entry} (there : id ∈ w.store.pending) (delivered : Delivered w.store id e)
      (small : w.store.count id + 1 < 2 ^ 32) : (deliveryCount (w.store.count id + 1) : Int) = w.store.count id + 1 := by
    have bound := bounded.recorded _ _ ((records_xack there delivered.1).mem_iff.mpr mem_cons_self)
    exact deliveryCount_eq (by omega) small
  unfold Jobs.countStep
  dsimp only [Careful] at careful
  split
  next id e rest is =>
    have task := sound.task is
    rw [is] at careful
    obtain ⟨there, small⟩ := careful
    have number := number there task.1 small
    dsimp only [Store.hincrby]
    split
    · exact bounded.counted sound there task.1 rfl rfl (.inr ⟨rfl, by omega⟩)
    · exact bounded.counted sound there task.1 rfl rfl (.inl rfl)
  next id e is =>
    have task := sound.task is
    rw [is] at careful
    obtain ⟨there, -, limit⟩ := careful
    exact bounded.counted sound there task rfl rfl (.inr ⟨rfl, limit⟩)
  · exact ⟨bounded, fun j k k' before after => Int.le_of_eq (sound.store.record_unique before after)⟩

lemma Bounded.nackStep {c due : Nat} (careful : Careful maxRetries w (.nack c due)) :
    (nackStep maxRetries w c due).Bounded maxRetries ∧ Rises w (nackStep maxRetries w c due) := by
  unfold Jobs.nackStep
  dsimp only [Careful] at careful
  split
  next id e attempts is =>
    have task := sound.task is
    rw [is] at careful
    refine bounded.kept sound ?_ rfl rfl (.nackScript _ _ _ _ _)
    refine records_nackScript sound.store.wf task.1 rfl fun there => ?_
    obtain ⟨last, small⟩ := careful there
    rw [Nat.mod_eq_of_lt small, blobAttempts_jqBlob small]
    omega
  · exact ⟨bounded, fun j k k' before after => Int.le_of_eq (sound.store.record_unique before after)⟩

lemma Bounded.step {a : Action} (careful : Careful maxRetries w a) :
    (step maxRetries w a).Bounded maxRetries ∧ Rises w (step maxRetries w a) := by
  have stay : w.Bounded maxRetries ∧ Rises w w :=
    ⟨bounded, fun j k k' before after => Int.le_of_eq (sound.store.record_unique before after)⟩
  cases a with rw [Jobs.step]
  | enqueue type payload =>
    split
    · exact bounded.enqueued sound type payload
    · exact stay
  | reap c now =>
    split
    · have perm := records_reapScript sound.store sound.short now
      exact bounded.kept sound (fun x member => perm.mem_iff.mp member) rfl rfl (.reapScript _ now)
    · exact stay
  | autoclaim c ids =>
    split
    · split
      · exact bounded.kept sound (fun _ member => member) rfl rfl (.refl _)
      · exact stay
    · exact stay
  | readgroup c =>
    split
    · dsimp only
      split
      · exact bounded.kept sound (fun _ member => member) rfl rfl (.refl _)
      next e found =>
        have same := records_readgroup (Store.Sound.job_lt found)
        exact bounded.kept sound (fun x member => same ▸ member) rfl rfl (.readgroup _)
    · exact stay
  | count c => exact bounded.countStep sound careful
  | bury c =>
    split
    · exact bounded.kept sound (fun _ member => member) rfl rfl (.rpush _ _)
    · exact stay
  | remove c =>
    split
    · exact bounded.kept sound (fun x member => records_xack_subset member) rfl rfl (.xack _ _)
    · exact stay
  | forget c =>
    have grows (id : Nat) : w.store.Grows (w.store.hdel id) := .of_same rfl rfl (fun _ there => there) rfl
    have same {id : Nat} (gone : Gone w.store id) : (w.store.hdel id).records = w.store.records :=
      records_hdel (not_waiting_of_gone gone)
    split
    next id rest is =>
      have task := sound.task is
      exact bounded.kept sound (fun x member => same task.1 ▸ member) rfl rfl (grows id)
    next id is =>
      have task := sound.task is
      exact bounded.kept sound (fun x member => same task ▸ member) rfl rfl (grows id)
    · exact stay
  | ack c =>
    split
    · exact bounded.kept sound (fun x member => records_xack_subset member) rfl rfl (.xack _ _)
    · exact stay
  | nack c due => exact bounded.nackStep sound careful
  | crash c => exact bounded.kept sound (fun _ member => member) rfl rfl (.refl _)

end

lemma bounded_start (maxRetries : Nat) : start.Bounded maxRetries := ⟨nofun, fun _ => .inr (Nat.zero_le _), nofun⟩

lemma bounded_run {actions : List Action}
    (careful : Machine.Meets (Jobs.step maxRetries) (Careful maxRetries) start actions) :
    (run maxRetries actions).Sound ∧ (run maxRetries actions).Bounded maxRetries :=
  @Machine.Meets.invariant _ _ _ _ (fun w => w.Sound ∧ w.Bounded maxRetries)
    (fun _ a inv ok => ⟨inv.1.step maxRetries a, (inv.2.step inv.1 ok).1⟩) _ _ careful ⟨sound_start, bounded_start maxRetries⟩

end World

/-- In every run of careful consumers a job that is not a dead letter has been handed out no more often than `max_retries`, and
the next step of one of them does not lower what is recorded for a job. -/
theorem deliveries_bounded (maxRetries : Nat) (actions : List Action)
    (careful : Machine.Meets (step maxRetries) (World.Careful maxRetries) .start actions) :
    (∀ j, j ∈ (run maxRetries actions).store.dead.map DeadLetter.job ∨
      (run maxRetries actions).handed.count j ≤ maxRetries) ∧ ∀ a, World.Careful maxRetries (run maxRetries actions) a →
      World.Rises (run maxRetries actions) (step maxRetries (run maxRetries actions) a) := by
  obtain ⟨sound, bounded⟩ := World.bounded_run careful
  exact ⟨bounded.most, fun a ok => (bounded.step sound ok).2⟩

/-- One job is claimed, given back, reaped and claimed again, as often as the limit allows. -/
theorem deliveries_bounded_twice :
    let w := run 2 [.enqueue (.ofBytes []) [], .reap 0 0, .autoclaim 0 [], .readgroup 0, .count 0, .nack 0 5, .reap 1 5,
      .autoclaim 1 [], .readgroup 1, .count 1]
    w.handed = [0, 0] ∧ ∀ j, j ∈ w.store.dead.map DeadLetter.job ∨ w.handed.count j ≤ 2 := by
  refine ⟨by decide, (deliveries_bounded 2 _ ?_).1⟩
  exact ⟨trivial, trivial, trivial, trivial, ⟨by decide, by decide, by decide⟩,
    fun _ => ⟨by decide, by decide⟩, trivial, trivial, trivial,
    ⟨by decide, by decide, by decide⟩, trivial⟩

/-- The first consumer stalls, the second takes the entry over, and the first one gives it back: it is recorded as delivered
once and not twice, and a third consumer is given it. With a limit of two the job has been handed out three times. -/
theorem delivered_too_often :
    let stalled : List Action := [.enqueue (.ofBytes []) [], .reap 0 0, .autoclaim 0 [], .readgroup 0, .count 0, .reap 1 0,
      .autoclaim 1 [0], .count 1]
    (run 2 stalled).store.records = [(0, 2)] ∧ (run 2 (stalled ++ [.nack 0 5])).store.records = [(0, 1)] ∧
    (run 2 (stalled ++ [.nack 0 5, .reap 2 5, .autoclaim 2 [], .readgroup 2, .count 2])).handed = [0, 0, 0] ∧
    (run 2 (stalled ++ [.nack 0 5, .reap 2 5, .autoclaim 2 [], .readgroup 2, .count 2])).store.dead = [] := by
  decide

end Cwist.Jobs
