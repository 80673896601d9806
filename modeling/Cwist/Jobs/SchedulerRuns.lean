import Cwist.Jobs.Scheduler

namespace Cwist.Jobs
open List Option Heap

attribute [simp] SchedulerEvent.accepted? SchedulerEvent.taken? SchedulerEvent.handed? SchedulerEvent.cancelled
  SchedulerEvent.pendingAfter

section
variable (log : List SchedulerEvent) (event : SchedulerEvent)
include log event

@[simp]
lemma accepted_concat : accepted (log ++ [event]) = accepted log ++ event.accepted?.toList := by
  cases event <;> simp [accepted]

@[simp]
lemma taken_concat : taken (log ++ [event]) = taken log ++ event.taken?.toList := by
  cases event <;> simp [taken]

@[simp]
lemma handed_concat : handed (log ++ [event]) = handed log ++ event.handed?.toList := by
  cases event <;> simp [handed]

@[simp]
lemma cancelled_concat : cancelled (log ++ [event]) = cancelled log ++ event.cancelled := by
  simp [cancelled]

@[simp]
lemma pending_concat : pending (log ++ [event]) = event.pendingAfter (pending log) := by
  simp [pending]

end

/-- Whatever the timer takes has the least deadline of all jobs that wait. -/
def TakesLeast (log : List SchedulerEvent) : Prop :=
  ∀ front job rest, log = front ++ .taken job :: rest → ∀ other ∈ pending front, job.deadline ≤ other.deadline

lemma TakesLeast.concat {log : List SchedulerEvent} {event : SchedulerEvent} (least : TakesLeast log)
    (next : ∀ job, event = .taken job → ∀ other ∈ pending log, job.deadline ≤ other.deadline) :
    TakesLeast (log ++ [event]) := by
  intro front job rest split other waits
  rcases eq_nil_or_concat' rest with rfl | ⟨rest, last, rfl⟩
  · obtain ⟨rfl, same⟩ := append_inj' split rfl
    exact next job (cons.inj same).1 other waits
  · rw [← cons_append, ← append_assoc] at split
    obtain ⟨rfl, -⟩ := append_inj' split rfl
    exact least front job rest rfl other waits

def Elapsed (job : ScheduledJob) (clockMs : UInt64) : Prop := job.stampMs.toNat + job.delayMs.toNat ≤ clockMs.toNat

instance (job : ScheduledJob) (clockMs : UInt64) : Decidable (Elapsed job clockMs) :=
  inferInstanceAs (Decidable (_ ≤ _))

structure JobsExact (s : Scheduler) : Prop where
  /-- A job that `cwist_scheduler_schedule` took is in one place, or delivered, and that once. -/
  once : (accepted s.log).Perm (s.heap ++ s.leaving.toList ++ s.cancels.flatten ++ handed s.log ++ cancelled s.log)
  distinct : ((accepted s.log).map ScheduledJob.call).Nodup
  notEarly : ∀ job clockMs, .handed job clockMs ∈ s.log → Elapsed job clockMs
  inTurn : taken s.log = handed s.log ++ s.leaving.toList
  least : TakesLeast s.log
  isHeap : Heap.IsHeap ScheduledJob.deadline s.heap
  room : s.heap.length ≤ s.heapCapacity
  holds : s.heap.Perm (pending s.log)

namespace Scheduler

def finish (s : Scheduler) (readingMs : UInt64) : List SchedulerOp :=
  [.submit true, .clock readingMs] ++ (replicate s.heap.length [.timer, .submit true]).flatten ++
    replicate (s.cancels.map fun jobs => jobs.length + 1).sum (.drop 0)

/-- Once every deadline has passed, the steps that are left deliver every job. -/
def Settles (s : Scheduler) : Prop :=
  ∀ readingMs : UInt64, (∀ job ∈ s.heap, job.deadlineMs ≤ readingMs) →
    (accepted s.log).Perm (handed (s.run (s.finish readingMs)).log ++ cancelled (s.run (s.finish readingMs)).log)

def Fits (s : Scheduler) : SchedulerOp → Prop
  | .schedule (some _) _ delayMs _ => s.clockMs.toNat + delayMs.toNat < 2 ^ 64
  | .submit alloc => alloc = true
  | _ => True

instance (s : Scheduler) : ∀ op, Decidable (s.Fits op)
  | .schedule (some _) _ delayMs _ => inferInstanceAs (Decidable (s.clockMs.toNat + delayMs.toNat < 2 ^ 64))
  | .schedule none _ _ _ => .isTrue trivial
  | .submit alloc => inferInstanceAs (Decidable (alloc = true))
  | .clock _ | .scheduleLocked _ _ | .timer | .cancelPending _ | .drop _ => .isTrue trivial

/-- What a step keeps: beside the property itself, that the deadlines of the jobs that are still to be taken are the sums of the
readings and the delays. -/
structure Inv (s : Scheduler) : Prop where
  once : ∀ job, (accepted s.log).count job =
    s.heap.count job + s.leaving.toList.count job + s.cancels.flatten.count job + (handed s.log).count job +
      (cancelled s.log).count job
  distinct : ((s.arriving ++ accepted s.log).map ScheduledJob.call).Nodup
  numbered : ∀ job ∈ s.arriving ++ accepted s.log, job.call < s.calls
  notEarly : ∀ job clockMs, .handed job clockMs ∈ s.log → Elapsed job clockMs
  inTurn : taken s.log = handed s.log ++ s.leaving.toList
  least : TakesLeast s.log
  isHeap : Heap.IsHeap ScheduledJob.deadline s.heap
  room : s.heap.length ≤ s.heapCapacity
  holds : s.heap.Perm (pending s.log)
  sums : ∀ job ∈ s.arriving ++ s.heap, job.deadline = job.stampMs.toNat + job.delayMs.toNat
  due : ∀ job, s.leaving = some job → Elapsed job s.clockMs

variable {s : Scheduler} {i arg heapCapacity : Nat} {op : SchedulerOp} {jobs below : List ScheduledJob}
  {job top : ScheduledJob}

lemma inv_create (clockMs : UInt64) : Inv (create clockMs) where
  once := by simp [create, accepted, handed, cancelled]
  distinct := by simp [create, accepted]
  numbered := by simp [create, accepted]
  notEarly := by simp [create]
  inTurn := by simp [create, taken, handed]
  least := by simp [create, TakesLeast]
  isHeap := by simp [create, Heap.IsHeap, Heap.InOrder]
  room := le_rfl
  holds := by simp [create, pending]
  sums := by simp [create]
  due := by simp [create]

lemma Inv.clock (inv : Inv s) (readingMs : UInt64) : Inv (s.step (.clock readingMs)) := by
  simp only [step]
  split
  next later => exact { inv with due := fun job leaves => Nat.le_trans (inv.due job leaves) later }
  · exact inv

lemma Inv.schedule (inv : Inv s) {func : Option Nat} {delayMs : UInt64} {alloc : Bool}
    (fits : s.Fits (.schedule func arg delayMs alloc)) : Inv (s.schedule func arg delayMs alloc) := by
  unfold Scheduler.schedule
  split
  case h_1 => exact inv
  case h_2 func =>
  split
  case isTrue =>
    split
    · exact { inv with
        once := by simpa [emit] using inv.once
        distinct := by simpa [emit] using inv.distinct
        numbered := by simpa [emit] using inv.numbered
        notEarly := by simpa [emit] using inv.notEarly
        inTurn := by simpa [emit] using inv.inTurn
        least := inv.least.concat (by simp)
        holds := by simpa [emit] using inv.holds }
    · exact inv
  case isFalse =>
    have sum : (s.clockMs + delayMs).toNat = s.clockMs.toNat + delayMs.toNat := by
      exact Nat.mod_eq_of_lt fits
    have others (job : ScheduledJob) (member : job ∈ s.arriving ++ accepted s.log) : job.call ≠ s.calls :=
      ne_of_lt (inv.numbered job member)
    exact { inv with
      distinct := by
        simp only [append_assoc, singleton_append]
        apply (perm_middle.map ScheduledJob.call).nodup_iff.mpr
        rw [map_cons, nodup_cons]
        refine ⟨?_, inv.distinct⟩
        intro repeated
        obtain ⟨job, member, same⟩ := mem_map.mp repeated
        exact others job member same
      numbered := by
        intro job member
        have := inv.numbered job
        simp only [mem_append, mem_singleton] at member this ⊢
        rcases member with (member | rfl) | member
        · exact Nat.lt_succ_of_lt (this (.inl member))
        · exact Nat.lt_succ_self _
        · exact Nat.lt_succ_of_lt (this (.inr member))
      sums := by
        intro job member
        simp only [mem_append, mem_singleton] at member
        rcases member with (member | rfl) | member
        · exact inv.sums job (mem_append_left _ member)
        · exact sum
        · exact inv.sums job (mem_append_right _ member) }

lemma heapPush_cases (room : s.heap.length ≤ s.heapCapacity) (job : ScheduledJob) (alloc : Bool) :
    s.heapPush job alloc = s ∨ ∃ heapCapacity, s.heap.length + 1 ≤ heapCapacity ∧
        s.heapPush job alloc = { s with heap := Heap.push ScheduledJob.deadline s.heap job, heapCapacity } := by
  unfold heapPush heapGrow
  by_cases space : s.heap.length < s.heapCapacity
  · right
    exact ⟨s.heapCapacity, space, by simp [space]⟩
  cases alloc with
  | false => simp [space]
  | true =>
    right
    refine ⟨if s.heapCapacity = 0 then heapInit else s.heapCapacity * 2, ?_, by simp [space]⟩
    unfold heapInit
    split <;> omega

lemma arriving_perm (found : s.arriving[i]? = some job) : s.arriving.Perm (job :: s.arriving.eraseIdx i) := by
  obtain ⟨bound, rfl⟩ := List.getElem?_eq_some_iff.mp found
  exact (getElem_cons_eraseIdx_perm bound).symm

lemma Inv.refuse (inv : Inv s) (i : Nat) : Inv { s with arriving := s.arriving.eraseIdx i } :=
  have sub := eraseIdx_sublist s.arriving i
  { inv with
    distinct := inv.distinct.sublist ((sub.append (List.Sublist.refl _)).map ScheduledJob.call)
    numbered := fun job member => inv.numbered job ((sub.append (List.Sublist.refl _)).subset member)
    sums := fun job member => inv.sums job ((sub.append (List.Sublist.refl _)).subset member) }

lemma Inv.accept (inv : Inv s) (found : s.arriving[i]? = some job) (room : s.heap.length + 1 ≤ heapCapacity) :
    Inv (emit { s with
      arriving := s.arriving.eraseIdx i, heap := Heap.push ScheduledJob.deadline s.heap job, heapCapacity }
      (.accepted job)) := by
  have arrived := arriving_perm found
  have pushed : (Heap.push ScheduledJob.deadline s.heap job).Perm (job :: s.heap) := perm_push s.heap job
  have moved : (s.arriving.eraseIdx i ++ (accepted s.log ++ [job])).Perm (s.arriving ++ accepted s.log) := by
    rw [← append_assoc]
    exact (perm_append_singleton _ _).trans (arrived.symm.append_right _)
  exact { inv with
    once := by
      intro other
      have before := inv.once other
      have counted := pushed.count_eq other
      simp only [emit, accepted_concat, handed_concat, cancelled_concat, SchedulerEvent.accepted?, SchedulerEvent.handed?,
        SchedulerEvent.cancelled, toList_some, toList_none, append_nil, count_append,
        count_cons, count_nil] at before counted ⊢
      omega
    distinct := by
      simp only [emit, accepted_concat, SchedulerEvent.accepted?, toList_some]
      exact (moved.map ScheduledJob.call).nodup_iff.mpr inv.distinct
    numbered := by
      intro other member
      simp only [emit, accepted_concat, SchedulerEvent.accepted?, toList_some] at member
      exact inv.numbered other (moved.mem_iff.mp member)
    notEarly := by simpa [emit] using inv.notEarly
    inTurn := by simpa [emit] using inv.inTurn
    least := inv.least.concat (by simp)
    isHeap := push_isHeap inv.isHeap job
    room := le_of_eq_of_le pushed.length_eq room
    holds := by
      simp only [emit, pending_concat, SchedulerEvent.pendingAfter]
      exact pushed.trans (inv.holds.cons job)
    sums := by
      intro other member
      apply inv.sums
      simp only [emit, mem_append, pushed.mem_iff, mem_cons] at member ⊢
      rw [arrived.mem_iff, mem_cons]
      tauto }

lemma Inv.scheduleLocked (inv : Inv s) (i : Nat) (alloc : Bool) : Inv (s.scheduleLocked i alloc) := by
  unfold Scheduler.scheduleLocked
  split
  case h_1 => exact inv
  case h_2 job found =>
  have refused := inv.refuse i
  rcases heapPush_cases refused.room job alloc with same | ⟨heapCapacity, room, same⟩
  · simp only [same]
    rw [if_pos (ne_of_lt (Nat.lt_succ_self _))]
    exact refused
  · have grown : (Heap.push ScheduledJob.deadline s.heap job).length = s.heap.length + 1 := (perm_push _ _).length_eq
    simp only [same]
    rw [if_neg (not_not_intro grown)]
    exact inv.accept found room

lemma timer_cases (s : Scheduler) : s.timer = s ∨
      ∃ job heap, s.leaving = none ∧ job ∈ s.heap ∧ job.deadlineMs ≤ s.clockMs ∧
        Heap.pop ScheduledJob.deadline s.heap = some (job, heap) ∧
          s.timer = emit { s with heap, leaving := some job } (.taken job) := by
  unfold Scheduler.timer
  split
  case h_2 => exact .inl rfl
  case h_1 top below idle filled =>
  split
  case isFalse => exact .inl rfl
  case isTrue due =>
  split
  case h_1 => exact .inl rfl
  case h_2 job heap popped =>
    right
    have same := popped
    rw [filled] at same
    obtain rfl := pop_root same
    exact ⟨job, heap, idle, by simp [filled], due, popped, rfl⟩

lemma Inv.timer (inv : Inv s) : Inv s.timer := by
  rcases timer_cases s with same | ⟨job, heap, idle, member, due, popped, same⟩
  · rw [same]
    exact inv
  rw [same]
  have taken := perm_pop popped
  have left (other : ScheduledJob) (member : other ∈ heap) : other ∈ s.heap := taken.mem_iff.mpr (mem_cons_of_mem _ member)
  exact { inv with
    once := by
      intro other
      have before := inv.once other
      have counted := taken.count_eq other
      simp only [emit, idle, accepted_concat, handed_concat, cancelled_concat, SchedulerEvent.accepted?,
        SchedulerEvent.handed?, SchedulerEvent.cancelled, toList_some, toList_none, append_nil,
        count_cons, count_nil] at before counted ⊢
      omega
    distinct := by simpa [emit] using inv.distinct
    numbered := by simpa [emit] using inv.numbered
    notEarly := by simpa [emit] using inv.notEarly
    inTurn := by simp [emit, inv.inTurn, idle]
    least := by
      apply inv.least.concat
      intro job' same other waits
      cases same
      exact pop_least inv.isHeap popped (inv.holds.mem_iff.mpr waits)
    isHeap := pop_isHeap inv.isHeap popped
    room := by
      have length := taken.length_eq
      have room := inv.room
      simp only [emit, length_cons] at length ⊢
      omega
    holds := by
      simp only [emit, pending_concat, SchedulerEvent.pendingAfter]
      have rest := (taken.symm.trans inv.holds).erase job
      rwa [erase_cons_head] at rest
    sums := by
      intro other member
      apply inv.sums
      simp only [emit, mem_append] at member ⊢
      exact member.imp_right (left other)
    due := by
      intro other leaves
      cases leaves
      have sum := inv.sums job (mem_append_right _ member)
      unfold Elapsed
      rw [← sum]
      exact due }

lemma Inv.submit (inv : Inv s) : Inv (s.submit true) := by
  unfold Scheduler.submit
  split
  case h_1 => exact inv
  case h_2 job leaves =>
  simp only [if_true]
  exact { inv with
    once := by
      intro other
      have before := inv.once other
      simp only [emit, leaves, accepted_concat, handed_concat, cancelled_concat, SchedulerEvent.accepted?,
        SchedulerEvent.handed?, SchedulerEvent.cancelled, toList_some, toList_none, append_nil,
        count_append, count_nil] at before ⊢
      omega
    distinct := by simpa [emit] using inv.distinct
    numbered := by simpa [emit] using inv.numbered
    notEarly := by
      intro other clockMs member
      simp only [emit, mem_append, mem_singleton] at member
      rcases member with member | same
      · exact inv.notEarly other clockMs member
      · cases same
        exact inv.due job leaves
    inTurn := by simp [emit, inv.inTurn, leaves]
    least := inv.least.concat (by simp)
    holds := by simpa [emit] using inv.holds
    due := by simp [emit] }

lemma Inv.cancelPending (inv : Inv s) (dropCb : Bool) : Inv (s.cancelPending dropCb) := by
  have sums (job : ScheduledJob) (member : job ∈ s.arriving ++ []) : job.deadline = job.stampMs.toNat + job.delayMs.toNat :=
    inv.sums job (mem_append_left _ (by simpa using member))
  cases dropCb with
  | true =>
    exact { inv with
      once := by
        intro other
        have before := inv.once other
        simp [Scheduler.cancelPending, emit] at before ⊢
        omega
      distinct := by simpa [Scheduler.cancelPending, emit] using inv.distinct
      numbered := by simpa [Scheduler.cancelPending, emit] using inv.numbered
      notEarly := by simpa [Scheduler.cancelPending, emit] using inv.notEarly
      inTurn := by simpa [Scheduler.cancelPending, emit] using inv.inTurn
      least := inv.least.concat (by simp)
      isHeap := by simp [Scheduler.cancelPending, emit, Heap.IsHeap, Heap.InOrder]
      room := le_rfl
      holds := by simp [Scheduler.cancelPending, emit]
      sums }
  | false =>
    exact { inv with
      once := by
        intro other
        have before := inv.once other
        simp [Scheduler.cancelPending, emit, -append_assoc] at before ⊢
        omega
      distinct := by simpa [Scheduler.cancelPending, emit, -append_assoc] using inv.distinct
      numbered := by simpa [Scheduler.cancelPending, emit, -append_assoc] using inv.numbered
      notEarly := by simpa [Scheduler.cancelPending, emit] using inv.notEarly
      inTurn := by simpa [Scheduler.cancelPending, emit, -append_assoc] using inv.inTurn
      least := (inv.least.concat (by simp)).concat (by simp)
      isHeap := by simp [Scheduler.cancelPending, emit, Heap.IsHeap, Heap.InOrder]
      room := le_rfl
      holds := by simp [Scheduler.cancelPending, emit, -append_assoc]
      sums }

lemma count_cancels (found : s.cancels[i]? = some jobs) (rest : List ScheduledJob) (job : ScheduledJob) :
    s.cancels.flatten.count job = jobs.count job + (s.cancels.eraseIdx i).flatten.count job ∧
      (s.cancels.set i rest).flatten.count job = rest.count job + (s.cancels.eraseIdx i).flatten.count job := by
  obtain ⟨bound, rfl⟩ := List.getElem?_eq_some_iff.mp found
  have whole := (getElem_cons_eraseIdx_perm bound).flatten.count_eq job
  have changed := (set_perm_cons_eraseIdx bound rest).flatten.count_eq job
  rw [flatten_cons, count_append] at whole changed
  exact ⟨whole.symm, changed⟩

lemma Inv.drop (inv : Inv s) (i : Nat) : Inv (s.drop i) := by
  unfold Scheduler.drop
  split
  case h_1 => exact inv
  case h_2 found =>
    exact { inv with
      once := by
        intro other
        have before := inv.once other
        have counted := (count_cancels found [] other).1
        simp only [count_nil] at counted ⊢
        omega }
  case h_3 job rest found =>
    exact { inv with
      once := by
        intro other
        have before := inv.once other
        obtain ⟨whole, changed⟩ := count_cancels found rest other
        simp only [emit, accepted_concat, handed_concat, cancelled_concat, SchedulerEvent.accepted?,
          SchedulerEvent.handed?, SchedulerEvent.cancelled, toList_none, append_nil,
          count_append, count_cons, count_nil] at before whole ⊢
        omega
      distinct := by simpa [emit] using inv.distinct
      numbered := by simpa [emit] using inv.numbered
      notEarly := by simpa [emit] using inv.notEarly
      inTurn := by simpa [emit] using inv.inTurn
      least := inv.least.concat (by simp)
      holds := by simpa [emit] using inv.holds }

lemma Inv.step (inv : Inv s) (fits : s.Fits op) : Inv (s.step op) := by
  cases op with
  | clock readingMs => exact inv.clock readingMs
  | schedule func arg delayMs alloc => exact inv.schedule fits
  | scheduleLocked i alloc => exact inv.scheduleLocked i alloc
  | timer => exact inv.timer
  | submit alloc =>
    cases fits
    exact inv.submit
  | cancelPending dropCb => exact inv.cancelPending dropCb
  | drop i => exact inv.drop i

lemma Inv.jobsExact (inv : Inv s) : JobsExact s where
  once := by
    rw [perm_iff_count]
    intro job
    simp only [inv.once job, count_append]
  distinct := by
    have all := inv.distinct
    rw [map_append] at all
    exact (nodup_append.mp all).2.1
  notEarly := inv.notEarly
  inTurn := inv.inTurn
  least := inv.least
  isHeap := inv.isHeap
  room := inv.room
  holds := inv.holds

lemma run_append (s : Scheduler) (first second : List SchedulerOp) : s.run (first ++ second) = (s.run first).run second :=
  foldl_append

/-- The steps of `finish` take no new job. -/
def Closing (op : SchedulerOp) : Prop :=
  op = .timer ∨ op = .submit true ∨ (∃ readingMs, op = .clock readingMs) ∨ ∃ i, op = .drop i

lemma accepted_step (closing : Closing op) : accepted (s.step op).log = accepted s.log := by
  rcases closing with rfl | rfl | ⟨readingMs, rfl⟩ | ⟨i, rfl⟩
  · rcases timer_cases s with same | ⟨job, heap, -, -, -, -, same⟩
    all_goals simp [step, same, emit]
  · simp only [step, Scheduler.submit]
    split <;> simp [emit]
  · simp only [step]
    split <;> rfl
  · simp only [step, Scheduler.drop]
    split <;> simp [emit]

lemma Closing.fits (closing : Closing op) (s : Scheduler) : s.Fits op := by
  rcases closing with rfl | rfl | ⟨readingMs, rfl⟩ | ⟨i, rfl⟩
  all_goals trivial

lemma Inv.closing_run {ops : List SchedulerOp} (inv : Inv s) (closing : ∀ op ∈ ops, Closing op) :
    Inv (s.run ops) ∧ accepted (s.run ops).log = accepted s.log := by
  induction ops generalizing s with
  | nil => exact ⟨inv, rfl⟩
  | cons op rest ih =>
    have first := closing op mem_cons_self
    obtain ⟨later, same⟩ := ih (inv.step (first.fits s)) fun op member => closing op (mem_cons_of_mem _ member)
    exact ⟨later, same.trans (accepted_step first)⟩

lemma closing_finish (s : Scheduler) (readingMs : UInt64) : ∀ op ∈ s.finish readingMs, Closing op := by
  intro op member
  simp only [finish, mem_append, mem_cons, not_mem_nil, or_false, mem_flatten, mem_replicate] at member
  rcases member with ((rfl | rfl) | ⟨turn, ⟨-, rfl⟩, member⟩) | ⟨-, rfl⟩
  · exact .inr (.inl rfl)
  · exact .inr (.inr (.inl ⟨_, rfl⟩))
  · simp only [mem_cons, not_mem_nil, or_false] at member
    rcases member with rfl | rfl
    · exact .inl rfl
    · exact .inr (.inl rfl)
  · exact .inr (.inr (.inr ⟨0, rfl⟩))

lemma timer_turn (idle : s.leaving = none)
    (filled : s.heap = top :: below) (due : ∀ job ∈ s.heap, job.deadlineMs ≤ s.clockMs) :
    ∃ heap, heap.length = below.length ∧ (∀ job ∈ heap, job ∈ s.heap) ∧ s.run [.timer, .submit true] =
        { s with heap, log := s.log ++ [.taken top] ++ [.handed top s.clockMs] } := by
  obtain ⟨job, heap, popped⟩ : ∃ job heap, Heap.pop ScheduledJob.deadline s.heap = some (job, heap) := by
    rw [filled]
    unfold Heap.pop
    simp only
    split
    all_goals exact ⟨_, _, rfl⟩
  have taken := perm_pop popped
  have same := popped
  rw [filled] at same
  obtain rfl := pop_root same
  refine ⟨heap, ?_, fun other member => taken.mem_iff.mpr (mem_cons_of_mem _ member), ?_⟩
  · have length := taken.length_eq
    rw [filled] at length
    simpa using length.symm
  have now := due job (by simp [filled])
  have turned : s.timer = emit { s with heap, leaving := some job } (.taken job) := by
    unfold Scheduler.timer
    simp only [idle]
    rw [filled] at popped ⊢
    simp only [now, if_true, popped]
  have left : s.run [.timer, .submit true] = s.timer.submit true := rfl
  rw [left, turned]
  cases s
  cases idle
  rfl

lemma timer_turns (idle : s.leaving = none) (due : ∀ job ∈ s.heap, job.deadlineMs ≤ s.clockMs) :
    let done := s.run (replicate s.heap.length [.timer, .submit true]).flatten
    done.heap = [] ∧ done.leaving = none ∧ done.cancels = s.cancels := by
  generalize count : s.heap.length = turns
  induction turns generalizing s with
  | zero => exact ⟨eq_nil_of_length_eq_zero count, idle, rfl⟩
  | succ turns ih =>
    obtain ⟨top, below, filled⟩ := exists_cons_of_length_eq_add_one count
    obtain ⟨heap, length, sub, same⟩ := timer_turn idle filled due
    rw [replicate_succ, flatten_cons, run_append, same]
    apply ih
    · exact idle
    · exact fun job member => due job (sub job member)
    · rw [filled] at count
      exact length.trans (Nat.succ.inj count)

lemma drop_jobs {others : List (List ScheduledJob)}
    (cancels : s.cancels = jobs :: others) :
    let done := s.run (replicate (jobs.length + 1) (.drop 0))
    done.heap = s.heap ∧ done.leaving = s.leaving ∧ done.cancels = others := by
  induction jobs generalizing s with
  | nil => simp [run, step, Scheduler.drop, cancels]
  | cons job rest ih =>
    have first : s.drop 0 = emit { s with cancels := rest :: others } (.dropped job) := by
      simp [Scheduler.drop, cancels]
    simp only [length_cons, replicate_succ (n := rest.length + 1), run, foldl_cons]
    rw [show s.step (.drop 0) = _ from first]
    exact ih rfl

lemma drop_all (jobs : List (List ScheduledJob)) (cancels : s.cancels = jobs) :
    let done := s.run (replicate (jobs.map fun jobs => jobs.length + 1).sum (.drop 0))
    done.heap = s.heap ∧ done.leaving = s.leaving ∧ done.cancels = [] := by
  induction jobs generalizing s with
  | nil => exact ⟨rfl, rfl, cancels⟩
  | cons first others ih =>
    obtain ⟨heap, leaving, rest⟩ := drop_jobs cancels
    obtain ⟨heap', leaving', done⟩ := ih rest
    simp only [map_cons, sum_cons]
    rw [replicate_add, run_append]
    exact ⟨heap'.trans heap, leaving'.trans leaving, done⟩

lemma submit_clock (s : Scheduler) (readingMs : UInt64) :
    let t := s.run [.submit true, .clock readingMs]
    t.heap = s.heap ∧ t.leaving = none ∧ t.cancels = s.cancels ∧ readingMs ≤ t.clockMs := by
  have submitted : (s.submit true).heap = s.heap ∧ (s.submit true).leaving = none ∧
      (s.submit true).cancels = s.cancels := by
    unfold Scheduler.submit
    split
    case h_1 idle => exact ⟨rfl, idle, rfl⟩
    case h_2 => exact ⟨rfl, rfl, rfl⟩
  obtain ⟨heap, leaving, cancels⟩ := submitted
  simp only [run, foldl_cons, foldl_nil, step]
  split
  case isTrue => exact ⟨heap, leaving, cancels, UInt64.le_refl _⟩
  case isFalse earlier => exact ⟨heap, leaving, cancels, UInt64.le_of_lt (UInt64.not_le.mp earlier)⟩

lemma finish_empties {readingMs : UInt64} (due : ∀ job ∈ s.heap, job.deadlineMs ≤ readingMs) :
    (s.run (s.finish readingMs)).heap = [] ∧ (s.run (s.finish readingMs)).leaving = none ∧
      (s.run (s.finish readingMs)).cancels = [] := by
  obtain ⟨heap, idle, cancels, later⟩ := submit_clock s readingMs
  rw [finish, run_append, run_append, ← heap, ← cancels]
  generalize s.run [.submit true, .clock readingMs] = t at heap idle cancels later ⊢
  have dueThen (job : ScheduledJob) (member : job ∈ t.heap) : job.deadlineMs ≤ t.clockMs :=
    UInt64.le_trans (due job (heap ▸ member)) later
  obtain ⟨empty, idle, kept⟩ := timer_turns idle dueThen
  rw [← kept]
  obtain ⟨heap, leaving, done⟩ := drop_all _ rfl
  exact ⟨heap.trans empty, leaving.trans idle, done⟩

lemma Inv.settles (inv : Inv s) : Settles s := by
  intro readingMs due
  obtain ⟨done, same⟩ := inv.closing_run (closing_finish s readingMs)
  obtain ⟨heap, leaving, cancels⟩ := finish_empties due
  rw [perm_iff_count]
  intro job
  rw [← same, done.once job, heap, leaving, cancels]
  simp

/-- In every run without a deadline that wraps or a submission that fails, a job that was taken is in one place or delivered
once, and never early. Once all deadlines have passed, the steps that are left deliver the rest. -/
theorem jobs_exact (clockMs : UInt64) (ops : List SchedulerOp) (fits : Machine.Meets step Fits (create clockMs) ops) :
    JobsExact ((create clockMs).run ops) ∧ Settles ((create clockMs).run ops) := by
  have inv := fits.invariant (fun _ _ inv fits => inv.step fits) (inv_create clockMs)
  exact ⟨inv.jobsExact, inv.settles⟩

theorem jobs_exact_two_delays :
    JobsExact ((create 5).run [.schedule (some 1) 0 20 true, .schedule (some 2) 0 10 true, .scheduleLocked 0 true,
      .scheduleLocked 0 true, .clock 15, .timer, .submit true, .cancelPending true, .drop 0]) :=
  (jobs_exact 5 _ (by decide +kernel)).1

/-- A delay of 2^64 - 1 ms is over at once. A job that the queue has no memory for is gone. -/
theorem wrapped_and_lost :
    ¬ JobsExact ((create 1).run [.schedule (some 1) 0 18446744073709551615 true, .scheduleLocked 0 true, .timer, .submit true]) ∧
      ¬ JobsExact ((create 1).run [.schedule (some 1) 0 1 true, .scheduleLocked 0 true, .clock 2, .timer, .submit false]) := by
  constructor <;> intro exact
  · have early := exact.notEarly ⟨0, 1, 0, 0, 1, 18446744073709551615⟩ 1 (by decide +kernel)
    exact absurd early (by decide)
  · have kept := exact.once.length_eq
    exact absurd kept (by decide +kernel)

end Scheduler

end Cwist.Jobs
