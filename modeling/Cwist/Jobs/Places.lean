import Cwist.Jobs.Queue

/-!
# Where the jobs are

A job that is not finished has one place: an entry that is unread or pending, or a member of the delay set.
-/

namespace Cwist.Jobs
open List Store

lemma blobNumber_be32 (front back : Bytes) {n : Nat} (small : n < 2 ^ 32) :
    blobNumber (front ++ be32 n ++ back) front.length = n := by
  have at_ (i : Nat) (less : i < 4) : (front ++ be32 n ++ back)[front.length + i]? = (be32 n)[i]? := by
    rw [append_assoc, getElem?_append_right (Nat.le_add_right _ _), Nat.add_sub_cancel_left,
      getElem?_append_left (by exact less)]
  have octet (m : Nat) : ((m % 256).toUInt8).toNat = m % 256 := by simp
  unfold blobNumber
  simp only [at_ 0 (by decide), at_ 1 (by decide), at_ 2 (by decide), at_ 3 (by decide)]
  simp only [be32, getElem?_cons_zero, getElem?_cons_succ, Option.getD_some, octet]
  omega

lemma be32_length (n : Nat) : (be32 n).length = 4 := rfl

section Blob
variable {type : CStr} {attempts : Nat} {payload : Bytes}

lemma blobNumber_type (short : type.length < 2 ^ 32) : blobNumber (jqBlob type attempts payload) 0 = type.length := by
  have number := blobNumber_be32 [] (be32 attempts ++ type.bytes.take (type.length % 2 ^ 32) ++ payload) short
  simpa [jqBlob] using number

lemma blobAttempts_jqBlob (small : attempts < 2 ^ 32) : blobAttempts (jqBlob type attempts payload) = attempts := by
  have number := blobNumber_be32 (be32 type.length) (type.bytes.take (type.length % 2 ^ 32) ++ payload) small
  simpa [jqBlob, blobAttempts, be32_length] using number

lemma jqBlob_eq (short : type.length < 2 ^ 32) :
    jqBlob type attempts payload = be32 type.length ++ be32 attempts ++ (type.bytes ++ payload) := by
  rw [jqBlob, Nat.mod_eq_of_lt short, CStr.length, take_length, append_assoc _ type.bytes]

lemma blobType_jqBlob (short : type.length < 2 ^ 32) : blobType (jqBlob type attempts payload) = type := by
  rw [blobType, blobNumber_type short, jqBlob_eq short, drop_left' (by rfl), CStr.length, take_left' rfl,
    CStr.ofBytes_self]

lemma blobPayload_jqBlob (short : type.length < 2 ^ 32) : blobPayload (jqBlob type attempts payload) = payload := by
  rw [blobPayload, blobNumber_type short, jqBlob_eq short, ← drop_drop, drop_left' (by rfl), CStr.length,
    drop_left' rfl]

end Blob

/-- A job that `enqueue` takes comes out of the reap script as it went into `jq_blob`, with an attempt less to be counted. -/
theorem nacked_job_unpacked (maxRetries job due : Nat) (w : World) (r : Store) (type : CStr) (attempts : UInt32)
    (payload : Bytes) (accepted : (step maxRetries w (.enqueue type payload)).jobs ≠ w.jobs) :
    let after := r.reapOne ⟨job, jqBlob type attempts.toNat payload, due⟩
    after.stream = r.stream ++ [⟨job, type, payload⟩] ∧ after.count r.stream.length = attempts.toNat - 1 := by
  have short : type.length < 2 ^ 32 := by
    by_contra long
    refine accepted (congrArg World.jobs (if_neg fun fits => ?_))
    have bound := fits.1
    unfold argumentMax at bound
    omega
  refine ⟨?_, ?_⟩
  · simp only [reapOne, xadd, hset, blobType_jqBlob short, blobPayload_jqBlob short]
  · simp [Store.reapOne, Store.xadd, Store.hset, Store.count, blobAttempts_jqBlob attempts.toNat_lt]

theorem nacked_ping_unpacked : (step 5 .start (.enqueue (.ofBytes [112]) [0])).jobs ≠ World.start.jobs ∧
      (empty.reapOne ⟨0, jqBlob (.ofBytes [112]) 2 [0], 7⟩).stream = [⟨0, .ofBytes [112], [0]⟩] :=
  ⟨by decide, (nacked_job_unpacked 5 0 7 .start .empty (.ofBytes [112]) 2 [0] (by decide)).1⟩

variable {r : Store} {e : Entry} {id : Nat} {p : Parked}

namespace Store

def unread (r : Store) : List Nat := range' r.delivered (r.stream.length - r.delivered)

def waiting (r : Store) : List Nat := r.pending ++ r.unread

def records (r : Store) : List (Nat × Int) :=
  (r.waiting.filterMap fun id => r.stream[id]?.map fun e => (e.job, r.count id)) ++
    r.delay.map fun p => (p.job, (blobAttempts p.blob : Int) - 1)

def live (r : Store) : List Nat :=
  (r.waiting.filterMap fun id => r.stream[id]?.map Entry.job) ++ r.delay.map Parked.job

structure Wf (r : Store) : Prop where
  bound : r.delivered ≤ r.stream.length
  pending : ∀ id ∈ r.pending, id < r.delivered
  unique : r.pending.Nodup

lemma records_fst (r : Store) : r.records.map Prod.fst = r.live := by
  simp only [records, live, map_append, map_filterMap, map_map, Option.map_map]
  rfl

variable {id' : Nat}

lemma waiting_lt (wf : Wf r) (there : id ∈ r.waiting) : id < r.stream.length := by
  rcases mem_append.mp there with pending | unread
  · exact lt_of_lt_of_le (wf.pending id pending) wf.bound
  · have := mem_range'_1.mp unread
    omega

lemma waiting_xadd (wf : Wf r) : (r.xadd e).waiting = r.waiting ++ [r.stream.length] := by
  have bound := wf.bound
  have more : (r.stream ++ [e]).length - r.delivered = (r.stream.length - r.delivered) + 1 := by
    rw [length_append, length_singleton]
    omega
  show r.pending ++ range' r.delivered ((r.stream ++ [e]).length - r.delivered) = _
  rw [more, range'_concat, Nat.one_mul, Nat.add_sub_cancel' bound, waiting, unread, append_assoc]

lemma filterMap_xadd {β : Type} (wf : Wf r) (f : Nat → Entry → β) :
    (r.xadd e).waiting.filterMap (fun id => (r.xadd e).stream[id]?.map (f id)) =
      r.waiting.filterMap (fun id => r.stream[id]?.map (f id)) ++ [f r.stream.length e] := by
  rw [waiting_xadd wf, filterMap_append]
  congr 1
  · refine filterMap_congr fun id there => ?_
    rw [xadd, getElem?_append_left (waiting_lt wf there)]
  · simp [xadd]

lemma records_xadd (wf : Wf r) : (r.xadd e).records.Perm ((e.job, r.count r.stream.length) :: r.records) := by
  have entries := filterMap_xadd wf (e := e) fun id e => (e.job, r.count id)
  have same : (r.xadd e).records = (r.waiting.filterMap fun id => r.stream[id]?.map fun e => (e.job, r.count id)) ++
      [(e.job, r.count r.stream.length)] ++ r.delay.map fun p => (p.job, (blobAttempts p.blob : Int) - 1) :=
    congrArg (· ++ _) entries
  rw [same, append_assoc]
  exact perm_middle

lemma live_xadd (wf : Wf r) : (r.xadd e).live.Perm (e.job :: r.live) := by
  have perm := (records_xadd (e := e) wf).map Prod.fst
  rwa [map_cons, records_fst, records_fst] at perm

lemma waiting_readgroup (less : r.delivered < r.stream.length) :
    waiting { r with delivered := r.delivered + 1, pending := r.pending ++ [r.delivered] } = r.waiting := by
  have more : r.stream.length - r.delivered = (r.stream.length - (r.delivered + 1)) + 1 := by omega
  simp only [waiting, unread]
  rw [more, append_assoc]
  rfl

lemma live_readgroup (less : r.delivered < r.stream.length) :
    live { r with delivered := r.delivered + 1, pending := r.pending ++ [r.delivered] } = r.live :=
  congrArg (fun waiting => waiting.filterMap (fun id => r.stream[id]?.map Entry.job) ++ r.delay.map Parked.job)
    (waiting_readgroup less)

lemma records_readgroup (less : r.delivered < r.stream.length) :
    records { r with delivered := r.delivered + 1, pending := r.pending ++ [r.delivered] } = r.records :=
  congrArg (fun waiting => (waiting.filterMap fun id => r.stream[id]?.map fun e => (e.job, r.count id)) ++
    r.delay.map fun p => (p.job, (blobAttempts p.blob : Int) - 1)) (waiting_readgroup less)

lemma waiting_xack (there : id ∈ r.pending) : r.waiting.Perm (id :: (r.xack id).2.waiting) := by
  exact (perm_cons_erase there).append_right _

lemma records_xack (there : id ∈ r.pending) (found : r.stream[id]? = some e) :
    r.records.Perm ((e.job, r.count id) :: (r.xack id).2.records) := by
  have perm := (waiting_xack there).filterMap fun id => r.stream[id]?.map fun e => (e.job, r.count id)
  rw [filterMap_cons_some (b := (e.job, r.count id)) (by rw [found]; rfl)] at perm
  exact perm.append_right _

lemma live_xack (there : id ∈ r.pending) (found : r.stream[id]? = some e) :
    r.live.Perm (e.job :: (r.xack id).2.live) := by
  have perm := (records_xack there found).map Prod.fst
  rwa [map_cons, records_fst, records_fst] at perm

lemma records_xack_subset {x : Nat × Int} (member : x ∈ (r.xack id).2.records) : x ∈ r.records := by
  have sublist : (r.xack id).2.records.Sublist r.records :=
    (((erase_sublist).append_right r.unread).filterMap _).append_right _
  exact sublist.subset member

lemma xack_absent (absent : id ∉ r.pending) : (r.xack id).2 = r := by
  rw [xack, erase_of_not_mem absent]

lemma count_hset_ne (other : id' ≠ id) (n : Int) : (r.hset id n).count id' = r.count id' := by
  show (Function.update r.attempts id (some n) id').getD 0 = _
  rw [Function.update_of_ne other]
  rfl

lemma count_hset_self (n : Int) : (r.hset id n).count id = n := by
  simp [count, hset]

lemma count_hdel_ne (other : id' ≠ id) : (r.hdel id).count id' = r.count id' := by
  show (Function.update r.attempts id none id').getD 0 = _
  rw [Function.update_of_ne other]
  rfl

lemma records_hset (absent : id ∉ r.waiting) (n : Int) : (r.hset id n).records = r.records := by
  refine congrArg (· ++ _) (filterMap_congr fun id' there => ?_)
  have other : id' ≠ id := by
    rintro rfl
    exact absent there
  rw [count_hset_ne other]
  rfl

lemma records_hdel (absent : id ∉ r.waiting) : (r.hdel id).records = r.records := by
  refine congrArg (· ++ _) (filterMap_congr fun id' there => ?_)
  have other : id' ≠ id := by
    rintro rfl
    exact absent there
  rw [count_hdel_ne other]
  rfl

lemma records_zadd (p : Parked) : ((∀ q ∈ r.delay, q.blob ≠ p.blob) ∧
        (r.zadd p).records.Perm ((p.job, (blobAttempts p.blob : Int) - 1) :: r.records)) ∨
      (∃ q ∈ r.delay, q.blob = p.blob) ∧ (r.zadd p).records.Perm r.records := by
  unfold zadd
  split
  next q found =>
    have member := mem_of_find?_eq_some found
    have same : q.blob = p.blob := by simpa using find?_some found
    refine .inr ⟨⟨q, member, same⟩, ?_⟩
    have perm : ((r.delay.erase q).orderedInsert before { q with due := p.due }).Perm
        ({ q with due := p.due } :: r.delay.erase q) := perm_orderedInsert _ _ _
    have mapped := perm.map fun p => (p.job, (blobAttempts p.blob : Int) - 1)
    have back := (perm_cons_erase member).map fun p => (p.job, (blobAttempts p.blob : Int) - 1)
    exact (mapped.trans back.symm).append_left _
  next absent =>
    have fresh : ∀ q ∈ r.delay, q.blob ≠ p.blob := by
      intro q member
      simpa using find?_eq_none.mp absent q member
    refine .inl ⟨fresh, ?_⟩
    have perm := (perm_orderedInsert before p r.delay).map fun p => (p.job, (blobAttempts p.blob : Int) - 1)
    exact (perm.append_left _).trans perm_middle

lemma live_zadd (p : Parked) : (r.zadd p).live.Perm (p.job :: r.live) ∨ (r.zadd p).live.Perm r.live := by
  rcases records_zadd (r := r) p with ⟨-, perm⟩ | ⟨-, perm⟩ <;> have perm := perm.map Prod.fst
  · rw [map_cons, records_fst, records_fst] at perm
    exact .inl perm
  · rw [records_fst, records_fst] at perm
    exact .inr perm

lemma mem_zadd {q : Parked} (member : q ∈ (r.zadd p).delay) : q = p ∨ ∃ q' ∈ r.delay, q'.job = q.job ∧ q'.blob = q.blob := by
  unfold zadd at member
  split at member
  next old found =>
    rcases (mem_orderedInsert _).mp member with rfl | before
    · exact .inr ⟨old, mem_of_find?_eq_some found, rfl, rfl⟩
    · exact .inr ⟨q, mem_of_mem_erase before, rfl, rfl⟩
  · rcases (mem_orderedInsert _).mp member with rfl | before
    · exact .inl rfl
    · exact .inr ⟨q, before, rfl, rfl⟩

lemma records_reapOne (wf : Wf r) (there : p ∈ r.delay) : (r.reapOne p).records.Perm r.records := by
  have entries := filterMap_xadd (e := ⟨p.job, blobType p.blob, blobPayload p.blob⟩) wf
    fun id e => (e.job, (r.reapOne p).count id)
  have old : (r.waiting.filterMap fun id => r.stream[id]?.map fun e => (e.job, (r.reapOne p).count id)) =
      r.waiting.filterMap fun id => r.stream[id]?.map fun e => (e.job, r.count id) := by
    refine filterMap_congr fun id there => ?_
    have same : (r.reapOne p).count id = r.count id := count_hset_ne (ne_of_lt (waiting_lt wf there)) _
    rw [same]
  have new : (r.reapOne p).count r.stream.length = (blobAttempts p.blob : Int) - 1 := count_hset_self _
  rw [old, new] at entries
  have same : (r.reapOne p).records = (r.waiting.filterMap fun id => r.stream[id]?.map fun e => (e.job, r.count id)) ++
      [(p.job, (blobAttempts p.blob : Int) - 1)] ++
        (r.delay.erase p).map fun p => (p.job, (blobAttempts p.blob : Int) - 1) :=
    congrArg (· ++ _) entries
  have back := (perm_cons_erase there).map fun p => (p.job, (blobAttempts p.blob : Int) - 1)
  rw [same, append_assoc]
  exact back.symm.append_left _

lemma live_reapOne (wf : Wf r) (there : p ∈ r.delay) : (r.reapOne p).live.Perm r.live := by
  have perm := (records_reapOne wf there).map Prod.fst
  rwa [records_fst, records_fst] at perm

lemma reapScript_keeps {Q : Store → Prop} (one : ∀ r p, p ∈ r.delay → Q r → Q (r.reapOne p)) (now : Nat) (start : Q r) :
    Q (r.reapScript now) := by
  have loop (items : List Parked) (r : Store) (inside : items.Sublist r.delay) (start : Q r) : Q (items.foldl reapOne r) := by
    induction items generalizing r with
    | nil => exact start
    | cons p items ih =>
      have rest := inside.erase p
      rw [erase_cons_head] at rest
      exact ih (r.reapOne p) rest (one r p (inside.subset mem_cons_self) start)
  exact loop _ r ((take_sublist _ _).trans filter_sublist) start

end Store

def Holds (jobs : List (CStr × Bytes)) (job : Nat) (blob : Bytes) : Prop :=
  ∃ type attempts payload, blob = jqBlob type attempts payload ∧ jobs[job]? = some (type, payload)

def Short (jobs : List (CStr × Bytes)) : Prop := ∀ job ∈ jobs, job.1.length < 2 ^ 32

/-- The store holds the jobs that were enqueued, each in one place at most. -/
structure Store.Sound (jobs : List (CStr × Bytes)) (r : Store) : Prop where
  wf : r.Wf
  live : r.live.Nodup
  entries : ∀ e ∈ r.stream, jobs[e.job]? = some (e.type, e.payload)
  parked : ∀ p ∈ r.delay, Holds jobs p.job p.blob
  letters : ∀ d ∈ r.dead, Holds jobs d.job d.blob
  unset : ∀ id, r.stream.length ≤ id → r.attempts id = none

namespace Store.Sound
variable {jobs : List (CStr × Bytes)}

lemma job_lt {α : Type} {jobs : List α} {a : α} {j : Nat} (found : jobs[j]? = some a) : j < jobs.length :=
  (List.getElem?_eq_some_iff.mp found).1

section
variable (sound : r.Sound jobs)
include sound

lemma live_lt {j : Nat} (there : j ∈ r.live) : j < jobs.length := by
  rcases mem_append.mp there with entry | parked
  · obtain ⟨id, -, found⟩ := mem_filterMap.mp entry
    obtain ⟨e, entry', rfl⟩ := Option.map_eq_some_iff.mp found
    exact job_lt (sound.entries e (mem_of_getElem? entry'))
  · obtain ⟨p, member, rfl⟩ := mem_map.mp parked
    obtain ⟨_, _, _, -, found⟩ := sound.parked p member
    exact job_lt found

lemma enqueue (type : CStr) (payload : Bytes) :
    (r.xadd ⟨jobs.length, type, payload⟩).Sound (jobs ++ [(type, payload)]) := by
  have more {j : Nat} {a : CStr × Bytes} (found : jobs[j]? = some a) : (jobs ++ [(type, payload)])[j]? = some a := by
    rw [getElem?_append_left (job_lt found), found]
  have holds {j : Nat} {blob : Bytes} (holds : Holds jobs j blob) : Holds (jobs ++ [(type, payload)]) j blob := by
    obtain ⟨t, a, b, same, found⟩ := holds
    exact ⟨t, a, b, same, more found⟩
  refine ⟨⟨?_, sound.wf.pending, sound.wf.unique⟩, ?_, ?_, fun p member => holds (sound.parked p member),
    fun d member => holds (sound.letters d member), ?_⟩
  · exact le_trans sound.wf.bound (by simp [xadd])
  · rw [(live_xadd sound.wf).nodup_iff, nodup_cons]
    exact ⟨fun there => lt_irrefl _ (sound.live_lt there), sound.live⟩
  · intro e member
    rcases mem_append.mp member with before | last
    · exact more (sound.entries e before)
    · rw [mem_singleton.mp last]
      simp
  · intro id beyond
    refine sound.unset id (le_trans ?_ beyond)
    simp [xadd]

lemma readgroup (found : r.stream[r.delivered]? = some e) :
    Sound jobs { r with delivered := r.delivered + 1, pending := r.pending ++ [r.delivered] } := by
  have less := job_lt found
  refine ⟨⟨less, ?_, ?_⟩, live_readgroup less ▸ sound.live, sound.entries, sound.parked, sound.letters, sound.unset⟩
  · intro id member
    rcases mem_append.mp member with before | last
    · exact Nat.lt_succ_of_lt (sound.wf.pending id before)
    · rw [mem_singleton.mp last]
      exact Nat.lt_succ_self _
  · rw [nodup_append]
    refine ⟨sound.wf.unique, by simp, ?_⟩
    rintro a inside b last rfl
    rw [mem_singleton.mp last] at inside
    exact lt_irrefl _ (sound.wf.pending _ inside)

lemma xack (id : Nat) : (r.xack id).2.Sound jobs := by
  have sublist : (r.xack id).2.live.Sublist r.live :=
    (((erase_sublist).append_right r.unread).filterMap _).append_right _
  exact ⟨⟨sound.wf.bound, fun id' member => sound.wf.pending id' (mem_of_mem_erase member), sound.wf.unique.erase _⟩,
    sound.live.sublist sublist, sound.entries, sound.parked, sound.letters, sound.unset⟩

lemma hset (less : id < r.stream.length) (n : Int) : (r.hset id n).Sound jobs := by
  refine ⟨⟨sound.wf.bound, sound.wf.pending, sound.wf.unique⟩, sound.live, sound.entries, sound.parked, sound.letters, ?_⟩
  intro id' beyond
  have other := ne_of_gt (lt_of_lt_of_le less beyond)
  show Function.update r.attempts id (some n) id' = none
  rw [Function.update_of_ne other]
  exact sound.unset id' beyond

lemma hdel (id : Nat) : (r.hdel id).Sound jobs := by
  refine ⟨⟨sound.wf.bound, sound.wf.pending, sound.wf.unique⟩, sound.live, sound.entries, sound.parked, sound.letters, ?_⟩
  intro id' beyond
  show Function.update r.attempts id none id' = none
  by_cases same : id' = id
  · rw [same, Function.update_self]
  · rw [Function.update_of_ne same]
    exact sound.unset id' beyond

lemma rpush {d : DeadLetter} (holds : Holds jobs d.job d.blob) : (r.rpush d).Sound jobs := by
  refine ⟨⟨sound.wf.bound, sound.wf.pending, sound.wf.unique⟩, sound.live, sound.entries, sound.parked, ?_, sound.unset⟩
  intro d' member
  rcases mem_append.mp member with before | last
  · exact sound.letters d' before
  · rw [mem_singleton.mp last]
    exact holds

lemma zadd (holds : Holds jobs p.job p.blob) (fresh : p.job ∉ r.live) : (r.zadd p).Sound jobs := by
  have fields : (r.zadd p).stream = r.stream ∧ (r.zadd p).delivered = r.delivered ∧ (r.zadd p).pending = r.pending ∧
      (r.zadd p).attempts = r.attempts ∧ (r.zadd p).dead = r.dead := by
    unfold Store.zadd
    split <;> exact ⟨rfl, rfl, rfl, rfl, rfl⟩
  obtain ⟨stream, delivered, pending, attempts, dead⟩ := fields
  refine ⟨⟨?_, ?_, ?_⟩, ?_, ?_, ?_, ?_, ?_⟩
  · rw [delivered, stream]
    exact sound.wf.bound
  · rw [pending, delivered]
    exact sound.wf.pending
  · rw [pending]
    exact sound.wf.unique
  · rcases live_zadd (r := r) p with perm | perm
    · rw [perm.nodup_iff, nodup_cons]
      exact ⟨fresh, sound.live⟩
    · rw [perm.nodup_iff]
      exact sound.live
  · rw [stream]
    exact sound.entries
  · intro q member
    rcases mem_zadd member with rfl | ⟨q', before, job, blob⟩
    · exact holds
    · rw [← job, ← blob]
      exact sound.parked q' before
  · rw [dead]
    exact sound.letters
  · rw [stream, attempts]
    exact sound.unset

lemma reapOne (short : Short jobs) (there : p ∈ r.delay) : (r.reapOne p).Sound jobs := by
  obtain ⟨type, attempts, payload, blob, found⟩ := sound.parked p there
  have fits := short _ (mem_of_getElem? found)
  refine ⟨⟨?_, sound.wf.pending, sound.wf.unique⟩, ?_, ?_, fun q member => sound.parked q (mem_of_mem_erase member),
    sound.letters, ?_⟩
  · exact le_trans sound.wf.bound (by simp [Store.reapOne, Store.xadd, Store.hset])
  · rw [(live_reapOne sound.wf there).nodup_iff]
    exact sound.live
  · intro e member
    rcases mem_append.mp member with before | last
    · exact sound.entries e before
    · rw [mem_singleton.mp last, found, blob, blobType_jqBlob fits, blobPayload_jqBlob fits]
  · intro id beyond
    have more : r.stream.length + 1 ≤ id := by
      simpa [Store.reapOne, Store.xadd, Store.hset] using beyond
    show Function.update r.attempts r.stream.length _ id = none
    rw [Function.update_of_ne (ne_of_gt more)]
    exact sound.unset id (Nat.le_of_succ_le more)

lemma reapScript (short : Short jobs) (now : Nat) : (r.reapScript now).Sound jobs :=
  reapScript_keeps (fun _ _ there sound => sound.reapOne short there) now sound

lemma nackScript (found : r.stream[id]? = some e) (next maxRetries : Nat)
    (job : p.job = e.job) (holds : Holds jobs p.job p.blob) : (r.nackScript id next maxRetries p).Sound jobs := by
  have acked := sound.xack id
  unfold Store.nackScript
  by_cases there : id ∈ r.pending
  · have perm := live_xack there found
    have fresh : p.job ∉ (r.xack id).2.live := by
      rw [job]
      exact (nodup_cons.mp (perm.nodup_iff.mp sound.live)).1
    simp only [Store.xack, there, decide_true, Bool.not_true, Bool.false_eq_true, if_false]
    split
    · exact (acked.hdel id).rpush holds
    · exact (acked.hdel id).zadd holds fresh
  · simp only [Store.xack, there, decide_false, Bool.not_false, if_true]
    exact acked

end

end Store.Sound

end Cwist.Jobs
