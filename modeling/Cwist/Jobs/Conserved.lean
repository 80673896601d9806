import Cwist.Jobs.Places
import Cwist.Lib.Machine

namespace Cwist.Jobs
open List Store DeadLetter

/-- What a task relies on stays: entries and dead letters are kept, and only the entry that is read next becomes pending. -/
structure Store.Grows (r r' : Store) : Prop where
  stream : ∀ (id : Nat) (e : Entry), r.stream[id]? = some e → r'.stream[id]? = some e
  delivered : r.delivered ≤ r'.delivered
  pending : ∀ id < r.delivered, id ∈ r'.pending → id ∈ r.pending
  dead : ∀ j ∈ r.dead.map job, j ∈ r'.dead.map job

variable {r r' : Store}

namespace Store.Grows
variable {r'' : Store}

lemma of_same (stream : r'.stream = r.stream) (delivered : r'.delivered = r.delivered)
    (pending : ∀ id ∈ r'.pending, id ∈ r.pending) (dead : r'.dead = r.dead) : Grows r r' where
  stream := by
    intro id e found
    rw [stream]
    exact found
  delivered := le_of_eq delivered.symm
  pending id _ there := pending id there
  dead := by
    intro j there
    rw [dead]
    exact there

lemma refl (r : Store) : Grows r r := of_same rfl rfl (fun _ => id) rfl

lemma trans (first : Grows r r') (second : Grows r' r'') : Grows r r'' where
  stream id e found := second.stream id e (first.stream id e found)
  delivered := le_trans first.delivered second.delivered
  pending id less there :=
    first.pending id less (second.pending id (lt_of_lt_of_le less first.delivered) there)
  dead j there := second.dead j (first.dead j there)

lemma appended {es : List Entry} (stream : r'.stream = r.stream ++ es) (delivered : r'.delivered = r.delivered)
    (pending : r'.pending = r.pending) (dead : r'.dead = r.dead) : Grows r r' where
  stream := by
    intro id e found
    rw [stream, getElem?_append_left (Sound.job_lt found), found]
  delivered := le_of_eq delivered.symm
  pending id _ there := pending ▸ there
  dead j there := dead ▸ there

lemma xack (r : Store) (id : Nat) : Grows r (r.xack id).2 := of_same rfl rfl (fun _ => mem_of_mem_erase) rfl

lemma rpush (r : Store) (d : DeadLetter) : Grows r (r.rpush d) where
  stream _ _ found := found
  delivered := le_rfl
  pending _ _ there := there
  dead := by
    intro j there
    rw [Store.rpush, map_append]
    exact mem_append_left _ there

lemma zadd (r : Store) (p : Parked) : Grows r (r.zadd p) := by
  unfold Store.zadd
  split <;> exact of_same rfl rfl (fun _ => id) rfl

lemma readgroup (r : Store) : Grows r { r with delivered := r.delivered + 1, pending := r.pending ++ [r.delivered] } where
  stream _ _ found := found
  delivered := Nat.le_succ _
  pending := by
    intro id less there
    rcases mem_append.mp there with before | last
    · exact before
    · rw [mem_singleton.mp last] at less
      exact absurd less (lt_irrefl _)
  dead _ there := there

lemma reapScript (r : Store) (now : Nat) : Grows r (r.reapScript now) :=
  reapScript_keeps (Q := Grows r) (fun _ _ _ grows => grows.trans (appended rfl rfl rfl rfl)) now (refl r)

lemma nackScript (r : Store) (id next maxRetries : Nat) (p : Parked) : Grows r (r.nackScript id next maxRetries p) := by
  have acked := xack r id
  have forgot : Grows r ((r.xack id).2.hdel id) := acked.trans (of_same rfl rfl (fun _ there => there) rfl)
  unfold Store.nackScript
  dsimp only
  split
  · exact acked
  split
  · exact forgot.trans (rpush _ _)
  · exact forgot.trans (zadd _ _)

end Store.Grows

def Delivered (r : Store) (id : Nat) (e : Entry) : Prop := r.stream[id]? = some e ∧ id < r.delivered

def Gone (r : Store) (id : Nat) : Prop := id < r.delivered ∧ id ∉ r.pending

def Task.Sound (r : Store) : Task → Prop
  | .idle | .reaped | .missed => True
  | .claimed id e rest | .exhausted id e _ rest => Delivered r id e ∧ ∀ x ∈ rest, Delivered r x.1 x.2
  | .stored id e rest => Delivered r id e ∧ e.job ∈ r.dead.map job ∧ ∀ x ∈ rest, Delivered r x.1 x.2
  | .removed id rest => Gone r id ∧ ∀ x ∈ rest, Delivered r x.1 x.2
  | .fresh id e | .holding id e _ => Delivered r id e
  | .settled id => Gone r id

variable {id : Nat} {e : Entry}

section Tasks

lemma Delivered.grows (delivered : Delivered r id e) (grows : r.Grows r') : Delivered r' id e :=
  ⟨grows.stream id e delivered.1, lt_of_lt_of_le delivered.2 grows.delivered⟩

lemma Gone.grows (gone : Gone r id) (grows : r.Grows r') : Gone r' id :=
  ⟨lt_of_lt_of_le gone.1 grows.delivered, fun there => gone.2 (grows.pending id gone.1 there)⟩

lemma Task.Sound.grows {t : Task} (sound : t.Sound r) (grows : r.Grows r') : t.Sound r' := by
  cases t with
  | idle | reaped | missed => trivial
  | claimed id e rest => exact ⟨sound.1.grows grows, fun x member => (sound.2 x member).grows grows⟩
  | exhausted id e attempts rest => exact ⟨sound.1.grows grows, fun x member => (sound.2 x member).grows grows⟩
  | stored id e rest =>
    exact ⟨sound.1.grows grows, grows.dead _ sound.2.1, fun x member => (sound.2.2 x member).grows grows⟩
  | removed id rest => exact ⟨Gone.grows sound.1 grows, fun x member => (sound.2 x member).grows grows⟩
  | fresh id e => exact Delivered.grows sound grows
  | holding id e attempts => exact Delivered.grows sound grows
  | settled id => exact Gone.grows sound grows

lemma Task.next_sound {rest : List (Nat × Entry)} (all : ∀ x ∈ rest, Delivered r x.1 x.2) : (Task.next rest).Sound r := by
  cases rest with
  | nil => trivial
  | cons x rest => exact ⟨all x mem_cons_self, fun y member => all y (mem_cons_of_mem _ member)⟩

lemma gone_xack (wf : r.Wf) (delivered : id < r.delivered) : Gone (r.xack id).2 id :=
  ⟨delivered, fun there => (List.Nodup.mem_erase_iff wf.unique).mp there |>.1 rfl⟩

end Tasks

structure World.Sound (w : World) : Prop where
  store : w.store.Sound w.jobs
  short : Short w.jobs
  tasks : ∀ c, (w.tasks c).Sound w.store

namespace World
variable {w : World}

variable {w' : World} {jobs : List (CStr × Bytes)} {maxRetries : Nat} {j : Nat}

lemma sound_start : start.Sound where
  store := ⟨⟨le_rfl, nofun, nodup_nil⟩, nodup_nil, nofun, nofun, nofun, fun _ _ => rfl⟩
  short := nofun
  tasks _ := trivial

section
variable (sound : w.Sound) {t : Task} {c : Nat}
include sound

lemma Sound.stepped (store : w'.store.Sound w'.jobs) (short : Short w'.jobs)
    (grows : w.store.Grows w'.store) (tasks : w'.tasks = Function.update w.tasks c t)
    (task : t.Sound w'.store) : w'.Sound := by
  refine ⟨store, short, fun c' => ?_⟩
  rw [tasks]
  by_cases same : c' = c
  · rw [same, Function.update_self]
    exact task
  · rw [Function.update_of_ne same]
    exact (sound.tasks c').grows grows

lemma Sound.task (is : w.tasks c = t) : t.Sound w.store := is ▸ sound.tasks c

lemma Sound.holds (delivered : Delivered w.store id e) (attempts : Nat) :
    Holds w.jobs e.job (jqBlob e.type attempts e.payload) :=
  ⟨e.type, attempts, e.payload, rfl, sound.store.entries e (mem_of_getElem? delivered.1)⟩

lemma Sound.counted (delivered : Delivered w.store id e) (n : Int) :
    (w.store.hset id n).Sound w.jobs ∧ w.store.Grows (w.store.hset id n) :=
  ⟨sound.store.hset (Store.Sound.job_lt delivered.1) n, .of_same rfl rfl (fun _ there => there) rfl⟩

lemma Sound.countStep (maxRetries c : Nat) : (countStep maxRetries w c).Sound := by
  unfold Jobs.countStep
  split
  next id e rest is =>
    have task := sound.task is
    obtain ⟨store, grows⟩ := sound.counted task.1 (w.store.count id + 1)
    dsimp only [Store.hincrby]
    split
    · exact sound.stepped store sound.short grows rfl (task.1.grows grows)
    · exact sound.stepped store sound.short grows rfl (task.grows grows)
  next id e is =>
    have task := sound.task is
    obtain ⟨store, grows⟩ := sound.counted task (w.store.count id + 1)
    exact sound.stepped store sound.short grows rfl (Delivered.grows task grows)
  · exact sound

lemma Sound.nackStep (maxRetries c due : Nat) : (nackStep maxRetries w c due).Sound := by
  unfold Jobs.nackStep
  split
  next id e attempts is =>
    have task := sound.task is
    exact sound.stepped (sound.store.nackScript task.1 _ _ rfl (sound.holds task _)) sound.short (.nackScript _ _ _ _ _) rfl
      trivial
  · exact sound

lemma Sound.step (maxRetries : Nat) (a : Action) : (step maxRetries w a).Sound := by
  cases a with rw [Jobs.step]
  | enqueue type payload =>
    split
    next fits =>
      have grows : w.store.Grows (w.store.xadd ⟨w.jobs.length, type, payload⟩) := .appended rfl rfl rfl rfl
      refine ⟨sound.store.enqueue type payload, ?_, fun c => (sound.tasks c).grows grows⟩
      intro job member
      rcases mem_append.mp member with before | last
      · exact sound.short job before
      · rw [mem_singleton.mp last]
        exact lt_of_le_of_lt fits.1 (by decide)
    · exact sound
  | reap c now =>
    split
    · exact sound.stepped (sound.store.reapScript sound.short now) sound.short (.reapScript _ now) rfl trivial
    · exact sound
  | autoclaim c ids =>
    split
    · split
      next claimable =>
        refine sound.stepped sound.store sound.short (.refl _) rfl (Task.next_sound ?_)
        intro x member
        obtain ⟨id, inside, found⟩ := mem_filterMap.mp member
        obtain ⟨e, entry, rfl⟩ := Option.map_eq_some_iff.mp found
        exact ⟨entry, sound.store.wf.pending id (claimable.2 id inside)⟩
      · exact sound
    · exact sound
  | readgroup c =>
    split
    · dsimp only
      split
      · exact sound.stepped sound.store sound.short (.refl _) rfl trivial
      next e found =>
        exact sound.stepped (sound.store.readgroup found) sound.short (.readgroup _) rfl ⟨found, Nat.lt_succ_self _⟩
    · exact sound
  | count c => exact sound.countStep maxRetries c
  | bury c =>
    split
    next id e attempts rest is =>
      have task := sound.task is
      have grows := Store.Grows.rpush w.store ⟨e.job, jqBlob e.type attempts e.payload⟩
      refine sound.stepped (sound.store.rpush (sound.holds task.1 attempts)) sound.short grows rfl ?_
      refine ⟨task.1.grows grows, ?_, fun x member => (task.2 x member).grows grows⟩
      simp [Store.rpush, setTask]
    · exact sound
  | remove c =>
    split
    next id e rest is =>
      have task := sound.task is
      have grows := Store.Grows.xack w.store id
      exact sound.stepped (sound.store.xack id) sound.short grows rfl
        ⟨gone_xack sound.store.wf task.1.2, fun x member => (task.2.2 x member).grows grows⟩
    · exact sound
  | forget c =>
    have grows (id : Nat) : w.store.Grows (w.store.hdel id) := .of_same rfl rfl (fun _ there => there) rfl
    split
    next id rest is =>
      have task := sound.task is
      exact sound.stepped (sound.store.hdel id) sound.short (grows id) rfl
        (Task.next_sound fun x member => (task.2 x member).grows (grows id))
    next id is => exact sound.stepped (sound.store.hdel id) sound.short (grows id) rfl trivial
    · exact sound
  | ack c =>
    split
    next id e attempts is =>
      have task := sound.task is
      exact sound.stepped (sound.store.xack id) sound.short (.xack _ id) rfl (gone_xack sound.store.wf task.2)
    · exact sound
  | nack c due => exact sound.nackStep maxRetries c due
  | crash c => exact sound.stepped sound.store sound.short (.refl _) rfl trivial

end

/-- Every job has been acknowledged, is in its place or is a dead letter. -/
def Kept (w : World) : Prop :=
  ∀ j < w.jobs.length, j ∈ w.acked ∨ j ∈ w.store.live ∨ j ∈ w.store.dead.map job

def ParksNew (maxRetries : Nat) (w : World) : Action → Prop
  | .nack c _ =>
    match w.tasks c with
    | .holding id e attempts =>
      id ∈ w.store.pending → (attempts + 1) % 2 ^ 32 ≤ maxRetries →
        ∀ q ∈ w.store.delay, q.blob ≠ jqBlob e.type ((attempts + 1) % 2 ^ 32) e.payload
    | _ => True
  | _ => True

lemma Kept.moved (kept : w.Kept) (jobs : w'.jobs = w.jobs) (acked : ∀ j ∈ w.acked, j ∈ w'.acked)
    (live : ∀ j ∈ w.store.live, j ∈ w'.acked ∨ j ∈ w'.store.live ∨ j ∈ w'.store.dead.map job)
    (grows : w.store.Grows w'.store) : w'.Kept := by
  intro j less
  rw [jobs] at less
  rcases kept j less with there | there | there
  · exact .inl (acked j there)
  · exact live j there
  · exact .inr (.inr (grows.dead j there))

lemma Kept.stayed (kept : w.Kept) (jobs : w'.jobs = w.jobs) (acked : w'.acked = w.acked)
    (live : ∀ j ∈ w.store.live, j ∈ w'.store.live) (grows : w.store.Grows w'.store) : w'.Kept :=
  kept.moved jobs (fun _ there => acked ▸ there) (fun j there => .inr (.inl (live j there))) grows

lemma live_reapScript (sound : r.Sound jobs) (short : Short jobs) (now : Nat) :
    ∀ j ∈ r.live, j ∈ (r.reapScript now).live := by
  have both : (r.reapScript now).Sound jobs ∧ ∀ j ∈ r.live, j ∈ (r.reapScript now).live := by
    refine reapScript_keeps (Q := fun r' => r'.Sound jobs ∧ ∀ j ∈ r.live, j ∈ r'.live) ?_ now
      ⟨sound, fun _ there => there⟩
    rintro r' p there ⟨sound, kept⟩
    exact ⟨sound.reapOne short there, fun j before =>
      (live_reapOne sound.wf there).mem_iff.mpr (kept j before)⟩
  exact both.2

lemma live_nackScript (found : r.stream[id]? = some e) (next maxRetries : Nat) {p : Parked} (job : p.job = e.job)
    (new : id ∈ r.pending → next ≤ maxRetries → ∀ q ∈ r.delay, q.blob ≠ p.blob) :
    ∀ j ∈ r.live, j ∈ (r.nackScript id next maxRetries p).live ∨
      j ∈ (r.nackScript id next maxRetries p).dead.map DeadLetter.job := by
  intro j before
  unfold nackScript
  by_cases there : id ∈ r.pending
  · have cases_ := mem_cons.mp ((live_xack there found).mem_iff.mp before)
    simp only [Store.xack, there, decide_true, Bool.not_true, Bool.false_eq_true, if_false] at cases_ ⊢
    split
    · rcases cases_ with rfl | other
      · exact .inr (by simp [Store.rpush, job])
      · exact .inl other
    rename_i parks
    rcases records_zadd (r := Store.hdel id { r with pending := r.pending.erase id }) p with
      ⟨-, perm⟩ | ⟨⟨q, member, same⟩, -⟩
    · have perm := perm.map Prod.fst
      rw [map_cons, records_fst, records_fst] at perm
      refine .inl (perm.mem_iff.mpr ?_)
      rcases cases_ with rfl | other
      · exact job ▸ mem_cons_self
      · exact mem_cons_of_mem _ other
    · exact absurd same (new there (not_lt.mp parks) q member)
  · simp only [Store.xack, there, decide_false, Bool.not_false, if_true, erase_of_not_mem there]
    exact .inl before

lemma Kept.step (kept : w.Kept) (sound : w.Sound) {a : Action} (new : ParksNew maxRetries w a) :
    (step maxRetries w a).Kept := by
  cases a with rw [Jobs.step]
  | enqueue type payload =>
    split
    · intro j less
      have perm := live_xadd (e := ⟨w.jobs.length, type, payload⟩) sound.store.wf
      rw [length_append, length_singleton] at less
      by_cases last : j = w.jobs.length
      · exact .inr (.inl (perm.mem_iff.mpr (last ▸ mem_cons_self)))
      rcases kept j (by omega) with there | there | there
      · exact .inl there
      · exact .inr (.inl (perm.mem_iff.mpr (mem_cons_of_mem _ there)))
      · exact .inr (.inr there)
    · exact kept
  | reap c now =>
    split
    · exact kept.stayed rfl rfl (live_reapScript sound.store sound.short now) (.reapScript _ now)
    · exact kept
  | autoclaim c ids =>
    split
    · split
      · exact kept
      · exact kept
    · exact kept
  | readgroup c =>
    split
    · dsimp only
      split
      · exact kept
      next e found =>
        have same := live_readgroup (Store.Sound.job_lt found)
        exact kept.stayed rfl rfl (fun j there => same.symm ▸ there) (.readgroup _)
    · exact kept
  | count c =>
    unfold countStep
    split
    · dsimp only
      split
      · exact kept
      · exact kept
    · exact kept
    · exact kept
  | bury c =>
    split
    · exact kept.stayed rfl rfl (fun _ there => there) (.rpush _ _)
    · exact kept
  | remove c =>
    split
    next id e rest is =>
      have task := sound.task is
      refine kept.moved rfl (fun _ there => there) (fun j there => ?_) (.xack _ id)
      by_cases pending : id ∈ w.store.pending
      · rcases mem_cons.mp ((live_xack pending task.1.1).mem_iff.mp there) with rfl | other
        · exact .inr (.inr task.2.1)
        · exact .inr (.inl other)
      · rw [xack_absent pending]
        exact .inr (.inl there)
    · exact kept
  | forget c =>
    split
    · exact kept
    · exact kept
    · exact kept
  | ack c =>
    split
    next id e attempts is =>
      have task := sound.task is
      by_cases pending : id ∈ w.store.pending
      · refine kept.moved rfl ?_ ?_ (.xack _ id)
        · intro j there
          simp [Store.xack, setTask, pending, there]
        intro j there
        rcases mem_cons.mp ((live_xack pending task.1).mem_iff.mp there) with rfl | other
        · exact .inl (by simp [Store.xack, setTask, pending])
        · exact .inr (.inl other)
      · have same := xack_absent pending
        simp only [Store.xack] at same
        simp only [Store.xack, pending, decide_false, Bool.false_eq_true, if_false, same]
        exact kept
    · exact kept
  | nack c due =>
    unfold nackStep
    split
    next id e attempts is =>
      simp only [ParksNew, is] at new
      have task := sound.task is
      refine kept.moved rfl (fun _ there => there) (fun j there => ?_) (.nackScript _ _ _ _ _)
      exact .inr (live_nackScript task.1 _ _ rfl new j there)
    · exact kept
  | crash c => exact kept

lemma kept_start : start.Kept := nofun

lemma kept_run {actions : List Action}
    (new : Machine.Meets (Jobs.step maxRetries) (ParksNew maxRetries) start actions) :
    (run maxRetries actions).Sound ∧ (run maxRetries actions).Kept :=
  @Machine.Meets.invariant _ _ _ _ (fun w => w.Sound ∧ w.Kept)
    (fun _ a inv ok => ⟨inv.1.step maxRetries a, inv.2.step inv.1 ok⟩) _ _ new ⟨sound_start, kept_start⟩

def present (w : World) (job : CStr × Bytes) : Nat :=
  (w.store.stream.drop w.store.delivered).countP (fun e => (e.type, e.payload) = job) +
    w.store.pending.countP (fun id => w.store.stream[id]?.map (fun e => (e.type, e.payload)) = some job) +
    w.store.delay.countP (fun p => (blobType p.blob, blobPayload p.blob) = job) +
    w.store.dead.countP (fun d => (blobType d.blob, blobPayload d.blob) = job)

def acknowledged (w : World) (job : CStr × Bytes) : Nat := w.acked.countP fun j => w.jobs[j]? = some job

lemma length_filter_range {α : Type} [BEq α] [LawfulBEq α] [DecidableEq α] (jobs : List α) (job : α) :
    ((List.range jobs.length).filter fun j => jobs[j]? = some job).length = jobs.count job := by
  induction jobs using List.reverseRecOn with
  | nil => rfl
  | append_singleton jobs last ih =>
    have before : (List.range jobs.length).filter (fun j => (jobs ++ [last])[j]? = some job) =
        (List.range jobs.length).filter fun j => jobs[j]? = some job := by
      refine filter_congr fun j inside => ?_
      rw [getElem?_append_left (mem_range.mp inside)]
    rw [length_append, length_singleton, range_succ, filter_append, before, length_append, ih]
    by_cases same : last = job
    · subst same
      simp
    · simp [same]

def presentJobs (w : World) (job : CStr × Bytes) : List Nat :=
  ((w.store.stream.drop w.store.delivered).filter fun e => (e.type, e.payload) = job).map Entry.job ++
    (w.store.pending.filter fun id => w.store.stream[id]?.map (fun e => (e.type, e.payload)) = some job).map
      (fun id => (w.store.stream[id]?.map Entry.job).getD 0) ++
    (w.store.delay.filter fun p => (blobType p.blob, blobPayload p.blob) = job).map Parked.job ++
    (w.store.dead.filter fun d => (blobType d.blob, blobPayload d.blob) = job).map DeadLetter.job

lemma length_presentJobs (w : World) (job : CStr × Bytes) : (w.presentJobs job).length = w.present job := by
  simp only [presentJobs, present, length_append, length_map, countP_eq_length_filter]

lemma Holds.contents (short : Short jobs) {blob : Bytes} (holds : Holds jobs j blob) :
    jobs[j]? = some (blobType blob, blobPayload blob) := by
  obtain ⟨type, attempts, payload, rfl, found⟩ := holds
  have fits := short _ (mem_of_getElem? found)
  rw [blobType_jqBlob fits, blobPayload_jqBlob fits]
  exact found

lemma Sound.mem_presentJobs (sound : w.Sound) {job : CStr × Bytes} (is : w.jobs[j]? = some job)
    (there : j ∈ w.store.live ∨ j ∈ w.store.dead.map DeadLetter.job) : j ∈ w.presentJobs job := by
  have blobs {blob : Bytes} (holds : Holds w.jobs j blob) : (blobType blob, blobPayload blob) = job := by
    have same := Holds.contents sound.short holds
    rw [is] at same
    exact (Option.some.inj same).symm
  have contents {e : Entry} (inside : e ∈ w.store.stream) (same : e.job = j) : (e.type, e.payload) = job := by
    have entry := sound.store.entries e inside
    rw [same, is] at entry
    exact (Option.some.inj entry).symm
  unfold presentJobs
  simp only [mem_append, mem_map, mem_filter, decide_eq_true_eq]
  rcases there with live | dead
  · rcases mem_append.mp live with entry | parked
    · obtain ⟨id, waiting, found⟩ := mem_filterMap.mp entry
      obtain ⟨e, found, same⟩ := Option.map_eq_some_iff.mp found
      have is' := contents (mem_of_getElem? found) same
      rcases mem_append.mp waiting with pending | unread
      · exact .inl (.inl (.inr ⟨id, ⟨pending, by rw [found, ← is']; rfl⟩, by rw [found]; exact same⟩))
      have range := mem_range'_1.mp unread
      have inside : e ∈ w.store.stream.drop w.store.delivered := by
        refine mem_of_getElem? (i := id - w.store.delivered) ?_
        rw [getElem?_drop, Nat.add_sub_cancel' range.1, found]
      exact .inl (.inl (.inl ⟨e, ⟨inside, is'⟩, same⟩))
    · obtain ⟨p, member, rfl⟩ := mem_map.mp parked
      exact .inl (.inr ⟨p, ⟨member, blobs (sound.store.parked p member)⟩, rfl⟩)
  · obtain ⟨d, member, rfl⟩ := mem_map.mp dead
    exact .inr ⟨d, ⟨member, blobs (sound.store.letters d member)⟩, rfl⟩

lemma Kept.count_le (kept : w.Kept) (sound : w.Sound) (job : CStr × Bytes) :
    w.jobs.count job ≤ w.acknowledged job + w.present job := by
  rw [← length_filter_range, acknowledged, countP_eq_length_filter, ← length_presentJobs, ← length_append]
  refine List.Subperm.length_le (subperm_of_subset (nodup_range.filter _) fun j member => ?_)
  obtain ⟨less, is⟩ := mem_filter.mp member
  rw [decide_eq_true_eq] at is
  rcases kept j (mem_range.mp less) with there | there
  · exact mem_append_left _ (mem_filter.mpr ⟨there, by simpa using is⟩)
  · exact mem_append_right _ (sound.mem_presentJobs is there)

end World

/-- In every run in which no nack parks a blob that is parked already, every job that was enqueued and not acknowledged is
present, as often as it was enqueued. -/
theorem no_job_lost (maxRetries : Nat) (actions : List Action)
    (new : Machine.Meets (step maxRetries) (World.ParksNew maxRetries) .start actions) (job : CStr × Bytes) :
    (run maxRetries actions).jobs.count job ≤
      (run maxRetries actions).acknowledged job + (run maxRetries actions).present job := by
  obtain ⟨sound, kept⟩ := World.kept_run new
  exact kept.count_le sound job

/-- In every run, wherever consumers crash, no job is in two places of the stream and the delay set, every record is of a
job as it was enqueued, and each consumer holds what was delivered. -/
theorem run_intact (maxRetries : Nat) (actions : List Action) : (run maxRetries actions).Sound :=
  foldlRecOn actions (step maxRetries) (motive := World.Sound) World.sound_start fun _ sound a _ => sound.step maxRetries a

def claim (c : Nat) : List Action := [.reap c 0, .autoclaim c [], .readgroup c, .count c]

def bare : CStr × Bytes := (.ofBytes [], [])

/-- One job is claimed and given back. -/
theorem no_job_lost_nack :
    let w := run 2 [.enqueue (.ofBytes []) [], .reap 0 0, .autoclaim 0 [], .readgroup 0, .count 0, .nack 0 5]
    w.jobs.count bare ≤ w.acknowledged bare + w.present bare := by
  refine no_job_lost 2 _ ?_ bare
  exact ⟨trivial, trivial, trivial, trivial, trivial, fun _ _ _ member => absurd member (not_mem_nil), trivial⟩

/-- Two jobs with the same contents are enqueued, claimed and given back: the delay set has one member, and nothing else is
left of the two. -/
theorem equal_job_lost :
    let w := run 2 (.enqueue (.ofBytes []) [] :: .enqueue (.ofBytes []) [] :: claim 0 ++ claim 1 ++ [.nack 0 5, .nack 1 6])
    w.jobs.count bare = 2 ∧ w.acknowledged bare = 0 ∧ w.present bare = 1 := by
  decide

end Cwist.Jobs
