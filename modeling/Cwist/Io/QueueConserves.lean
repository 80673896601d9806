import Cwist.Io.Queue

namespace Cwist.Io
open List Option Worker

namespace Producer

def linked : Producer → Bool
  | .casTail _ | .fetchAdd | .signal | .returned => true
  | _ => false

def counted : Producer → Bool
  | .signal | .returned => true
  | _ => false

end Producer

namespace Worker

def loaded : Worker → Option Nat
  | .loadTail head | .loadNext head _ | .helpTail head | .casHead head _ => some head
  | _ => none

def holds : Worker → Bool
  | .fetchSub _ => true
  | _ => false

def seeking : Worker → Bool
  | .testRunning | .testPending | .loadHead | .loadTail _ | .loadNext _ _ | .helpTail _ | .casHead _ _ | .woken => true
  | _ => false

def Away (pc : Worker) : Prop := pc = .exited ∨ ∃ job, pc = .callback job

lemma Away.not_seeking {pc : Worker} (away : pc.Away) : pc.seeking = false := by
  rcases away with rfl | ⟨job, rfl⟩ <;> rfl

end Worker

namespace IoQueue

def counted (q : IoQueue) (job : Nat) : Bool := (q.producers[job]?).any Producer.counted

/-- A job is linked and its submit has returned, a worker is blocked without a signal on its way, and every other one is
inside a callback. -/
def Starved (q : IoQueue) : Prop :=
  ∃ job ∈ q.queue, q.producers[job]? = some .returned ∧
    ∃ w : Nat, q.workers[w]? = some .blocked ∧ ∀ (v : Nat) pc, v ≠ w → q.workers[v]? = some pc → pc.Away

def takes (q : IoQueue) (w : Nat) (ok : Bool) : Option Nat :=
  match q.workers[w]? with
  | some (.casHead head job) => if ok ∧ q.head = head then some job else none
  | _ => none

def Signals (q : IoQueue) : Op → Prop
  | .produce p _ _ =>
    q.producers[p]? = some .fetchAdd → q.pendingJobs + 1 ≠ 0 ∧ (q.pendingJobs = 0 ∨ blocked ∉ q.workers)
  | .work w ok => ∀ job ∈ q.takes w ok, q.counted job = true
  | _ => True

instance (q : IoQueue) : DecidablePred q.Signals
  | .produce _ _ _ => inferInstanceAs (Decidable (_ → _))
  | .work w ok => inferInstanceAs (Decidable (∀ job ∈ q.takes w ok, q.counted job = true))
  | .run | .submit | .wake _ | .stop | .broadcast => .isTrue trivial

end IoQueue

/-! ### One entry of a list of threads -/

section Threads
variable {α : Type*} {threads : List α} {i : Nat} {old next thread : α}

lemma countP_set_add (here : threads[i]? = some old) (next : α) (p : α → Bool) :
    (threads.set i next).countP p + (if p old then 1 else 0) = threads.countP p + if p next then 1 else 0 := by
  induction threads generalizing i with
  | nil => cases here
  | cons thread rest ih =>
    cases i with
    | zero =>
      obtain rfl : thread = old := by simpa using here
      simp only [set_cons_zero, countP_cons]
      omega
    | succ i =>
      have := ih (by simpa using here)
      simp only [set_cons_succ, countP_cons]
      omega

lemma mem_of_mem_set (member : thread ∈ threads.set i next) (different : next ≠ thread) : thread ∈ threads :=
  (mem_or_eq_of_mem_set member).resolve_right different.symm

lemma exists_set {p : α → Bool} (here : threads[i]? = some old) (kept : p old = true → p next = true)
    (some : ∃ thread ∈ threads, p thread = true) : ∃ thread ∈ threads.set i next, p thread = true := by
  obtain ⟨thread, mem, holds⟩ := some
  obtain ⟨j, inside, rfl⟩ := mem_iff_getElem.mp mem
  have bound := (List.getElem?_eq_some_iff.mp here).1
  by_cases same : i = j
  · subst same
    have : threads[i] = old := (List.getElem?_eq_some_iff.mp here).2
    exact ⟨next, mem_set bound next, kept (this ▸ holds)⟩
  · exact ⟨threads[j], mem_iff_getElem?.mpr ⟨j, by simp [same]⟩, holds⟩

lemma countP_succ {before after : α → Bool} (distinct : threads.Nodup) (member : old ∈ threads)
    (was : before old = false) (now : after old = true) (others : ∀ thread, old ≠ thread → after thread = before thread) :
    threads.countP after = threads.countP before + 1 := by
  induction threads with
  | nil => cases member
  | cons thread rest ih =>
    obtain ⟨absent, distinct⟩ := nodup_cons.mp distinct
    rcases mem_cons.mp member with rfl | member
    · have same : rest.countP after = rest.countP before := by
        refine countP_congr fun other there => ?_
        rw [others other (fun same => absent (same ▸ there))]
      simp [was, now, same]
    · have different : old ≠ thread := fun same => absent (same ▸ member)
      have := ih distinct member
      simp only [countP_cons, others thread different]
      omega

end Threads

namespace IoQueue

variable {q : IoQueue} {p w tail : Nat} {job : Nat} {old next pc : Producer}

lemma counted_at (here : q.producers[job]? = some pc) : q.counted job = pc.counted := by
  simp [counted, here]

structure Inv (q : IoQueue) : Prop where
  bound : q.head ≤ q.jobs.length
  heads : ∀ pc ∈ q.workers, ∀ head ∈ pc.loaded, head ≤ q.head
  next : ∀ head job, casHead head job ∈ q.workers → q.jobs[head]? = some job
  distinct : q.jobs.Nodup
  linked : ∀ job ∈ q.jobs, ∃ pc, q.producers[job]? = some pc ∧ pc.linked = true
  uncounted : ∀ job pc, q.producers[job]? = some pc → pc.linked = true → pc.counted = false → job ∈ q.queue
  exact : q.pendingJobs.toNat = q.queue.countP q.counted + q.workers.countP holds
  alone : .blocked ∈ q.workers → q.queue.countP q.counted ≤ 1
  awake : .blocked ∈ q.workers → ∀ job ∈ q.queue, q.producers[job]? = some .returned →
    ∃ pc ∈ q.workers, pc.seeking = true

lemma Inv.create : Inv create where
  bound := Nat.le_refl 0
  heads := by simp [IoQueue.create]
  next := by simp [IoQueue.create]
  distinct := nodup_nil
  linked := by simp [IoQueue.create]
  uncounted := by simp [IoQueue.create]
  exact := rfl
  alone := by simp [IoQueue.create]
  awake := by simp [IoQueue.create]

lemma Inv.not_starved (inv : q.Inv) : ¬ q.Starved := by
  rintro ⟨job, member, returned, w, blocked, others⟩
  obtain ⟨pc, there, seeking⟩ := inv.awake (mem_of_getElem? blocked) job member returned
  obtain ⟨v, place⟩ := mem_iff_getElem?.mp there
  have different : v ≠ w := by
    rintro rfl
    obtain rfl : pc = .blocked := some.inj (place.symm.trans blocked)
    cases seeking
  rw [(others v pc different place).not_seeking] at seeking
  cases seeking

lemma Inv.pending_of_returned (inv : q.Inv) (member : job ∈ q.queue)
    (returned : q.producers[job]? = some .returned) : q.pendingJobs ≠ 0 := by
  intro zero
  have none := inv.exact
  rw [zero] at none
  have : 0 < q.queue.countP q.counted := countP_pos_iff.mpr ⟨job, member, counted_at returned⟩
  simp at none
  omega

/-! ### Moves of one worker -/

lemma Inv.move (inv : q.Inv) (tail : Nat) {old next : Worker} (here : q.workers[w]? = some old)
    (heads : ∀ head ∈ next.loaded, head ≤ q.head)
    (job : ∀ head job, next = .casHead head job → q.jobs[head]? = some job) (holds : next.holds = old.holds)
    (sleeps : next = .blocked → q.pendingJobs = 0)
    (seeks : old.seeking = true → q.pendingJobs ≠ 0 → q.head < q.jobs.length → next.seeking = true) :
    Inv { q.move w next with tail } where
  bound := inv.bound
  heads pc member := by
    rcases mem_or_eq_of_mem_set member with member | rfl
    · exact inv.heads pc member
    · exact heads
  next head taken member := by
    rcases mem_or_eq_of_mem_set member with member | same
    · exact inv.next head taken member
    · exact job head taken same.symm
  distinct := inv.distinct
  linked := inv.linked
  uncounted := inv.uncounted
  exact := by
    have same := countP_set_add here next Worker.holds
    rw [holds] at same
    have exact := inv.exact
    change q.pendingJobs.toNat = q.queue.countP q.counted + (q.workers.set w next).countP Worker.holds
    omega
  alone member := by
    rcases mem_or_eq_of_mem_set member with member | same
    · exact inv.alone member
    have empty := inv.exact
    rw [sleeps same.symm] at empty
    change q.queue.countP q.counted ≤ 1
    simp at empty
    omega
  awake member taken queued returned := by
    have pending := inv.pending_of_returned queued returned
    rcases mem_or_eq_of_mem_set member with member | same
    · refine exists_set here (fun seeking => seeks seeking pending ?_) (inv.awake member taken queued returned)
      have := length_pos_of_mem (l := q.queue) queued
      rw [queue, length_drop] at this
      omega
    · exact absurd (sleeps same.symm) pending

lemma advanceTail_eq (q : IoQueue) (tail : Nat) (ok : Bool) :
    q.advanceTail tail ok = { q with tail := (q.advanceTail tail ok).tail } := by
  unfold advanceTail
  split <;> rfl

lemma Inv.waitUnderLock (inv : q.Inv) {old : Worker} (here : q.workers[w]? = some old)
    (holds : old.holds = false) : Inv (q.waitUnderLock w) := by
  unfold IoQueue.waitUnderLock
  split
  case isTrue asleep =>
    exact inv.move q.tail here nofun nofun holds.symm (fun _ => asleep.1) (fun _ pending => absurd asleep.1 pending)
  case isFalse =>
    split
    case isTrue => exact inv.move q.tail here nofun nofun holds.symm nofun (fun _ _ _ => rfl)
    case isFalse idle =>
      refine inv.move q.tail here nofun nofun holds.symm nofun (fun _ pending _ => absurd ?_ idle)
      exact .inr (UInt64.pos_iff_ne_zero.mpr pending)

lemma Inv.pop (inv : q.Inv) (here : q.workers[w]? = some (.casHead q.head job))
    (counted : q.counted job = true) : Inv ({ q with head := q.head + 1 }.move w (.fetchSub job)) := by
  have first := inv.next q.head job (mem_of_getElem? here)
  have split : q.queue = job :: q.jobs.drop (q.head + 1) := by
    obtain ⟨inside, rfl⟩ := List.getElem?_eq_some_iff.mp first
    exact drop_eq_getElem_cons inside
  have inside := (List.getElem?_eq_some_iff.mp first).1
  have count : q.queue.countP q.counted = (q.jobs.drop (q.head + 1)).countP q.counted + 1 := by
    rw [split, countP_cons_of_pos counted]
  refine { inv with bound := inside, heads := ?_, next := ?_, uncounted := ?_, exact := ?_, alone := ?_, awake := ?_ }
  · intro pc member head loaded
    rcases mem_or_eq_of_mem_set member with member | rfl
    · exact Nat.le_succ_of_le (inv.heads pc member head loaded)
    · cases loaded
  · intro head taken member
    exact inv.next head taken (mem_of_mem_set member nofun)
  · intro other pc there linked waiting
    have queued := inv.uncounted other pc there linked waiting
    rw [split] at queued
    refine (mem_cons.mp queued).resolve_left ?_
    rintro rfl
    rw [counted_at (q := q) there, waiting] at counted
    cases counted
  · have holds := countP_set_add here (.fetchSub job) Worker.holds
    simp only [Worker.holds, if_true, Bool.false_eq_true, if_false] at holds
    have exact := inv.exact
    change q.pendingJobs.toNat = (q.jobs.drop (q.head + 1)).countP q.counted + (q.workers.set w _).countP Worker.holds
    omega
  · intro member
    have := inv.alone (mem_of_mem_set member nofun)
    change (q.jobs.drop (q.head + 1)).countP q.counted ≤ 1
    omega
  · -- the job that was taken was the one that is counted
    intro member other queued returned
    have single := inv.alone (mem_of_mem_set member nofun)
    have : 0 < (q.jobs.drop (q.head + 1)).countP q.counted :=
      countP_pos_iff.mpr ⟨other, queued, counted_at returned⟩
    omega

lemma Inv.fetchSub (inv : q.Inv) (here : q.workers[w]? = some (.fetchSub job)) :
    Inv ({ q with pendingJobs := q.pendingJobs - 1 }.move w (.callback job)) := by
  have holds := countP_set_add here (.callback job) Worker.holds
  simp only [Worker.holds, if_true, Bool.false_eq_true, if_false] at holds
  have positive : 1 ≤ q.pendingJobs.toNat := by
    have := inv.exact
    omega
  refine { inv with heads := ?_, next := ?_, exact := ?_, alone := ?_, awake := ?_ }
  · intro pc member head loaded
    rcases mem_or_eq_of_mem_set member with member | rfl
    · exact inv.heads pc member head loaded
    · cases loaded
  · intro head taken member
    exact inv.next head taken (mem_of_mem_set member nofun)
  · have exact := inv.exact
    change (q.pendingJobs - 1).toNat = q.queue.countP q.counted + (q.workers.set w _).countP Worker.holds
    rw [UInt64.toNat_sub_of_le _ _ (by simpa [UInt64.le_iff_toNat_le] using positive)]
    simp only [UInt64.reduceToNat]
    omega
  · exact fun member => inv.alone (mem_of_mem_set member nofun)
  · intro member other queued returned
    exact exists_set here nofun (inv.awake (mem_of_mem_set member nofun) other queued returned)

lemma Inv.work (inv : q.Inv) {ok : Bool} (counted : ∀ job ∈ q.takes w ok, q.counted job = true) : Inv (q.work w ok) := by
  have holdsHead : ∀ {pc : Worker} {head : Nat}, q.workers[w]? = some pc → pc.loaded = some head → head ≤ q.head :=
    fun here loaded => inv.heads _ (mem_of_getElem? here) _ loaded
  unfold IoQueue.work
  split
  case h_1 here =>
    split
    · exact inv.move q.tail here nofun nofun rfl nofun (fun _ _ _ => rfl)
    · exact inv.move q.tail here nofun nofun rfl nofun (fun _ _ _ => rfl)
  case h_2 here =>
    split
    case isTrue => exact inv.move q.tail here nofun nofun rfl nofun (fun _ _ _ => rfl)
    case isFalse zero =>
      exact inv.move q.tail here nofun nofun rfl nofun
        (fun _ pending _ => absurd (UInt64.pos_iff_ne_zero.mpr pending) zero)
  case h_3 here =>
    refine inv.move q.tail here ?_ nofun rfl nofun (fun _ _ _ => rfl)
    rintro head ⟨⟩
    exact Nat.le_refl _
  case h_4 here =>
    refine inv.move q.tail here ?_ nofun rfl nofun (fun _ _ _ => rfl)
    rintro head ⟨⟩
    exact holdsHead here rfl
  case h_5 head tail here =>
    have behind := holdsHead here rfl
    cases there : q.jobs[head]? with
    | none =>
      -- the list looks empty only if it is
      refine inv.move q.tail here nofun nofun rfl nofun (fun _ _ inside => ?_)
      have := getElem?_eq_none_iff.mp there
      omega
    | some job =>
      dsimp only
      split
      · refine inv.move q.tail here ?_ nofun rfl nofun (fun _ _ _ => rfl)
        rintro _ ⟨⟩
        exact behind
      · refine inv.move q.tail here ?_ ?_ rfl nofun (fun _ _ _ => rfl)
        · rintro _ ⟨⟩
          exact behind
        · rintro _ _ ⟨⟩
          exact there
  case h_6 here =>
    rw [advanceTail_eq]
    exact inv.move _ here nofun nofun rfl nofun (fun _ _ _ => rfl)
  case h_7 head job here =>
    split
    case isTrue taken =>
      obtain ⟨rfl, rfl⟩ := taken
      refine inv.pop here (counted job ?_)
      simp [takes, here]
    case isFalse => exact inv.move q.tail here nofun nofun rfl nofun (fun _ _ _ => rfl)
  case h_8 here => exact inv.fetchSub here
  case h_9 here => exact inv.move q.tail here nofun nofun rfl nofun (fun _ _ _ => rfl)
  case h_10 here => exact inv.waitUnderLock here rfl
  case h_12 here => exact inv.waitUnderLock here rfl
  all_goals exact inv

/-! ### Turns of one submit -/

lemma turn_own (here : q.producers[p]? = some old) (next : Producer) : (q.turn p next).producers[p]? = some next :=
  List.getElem?_set_self (List.getElem?_eq_some_iff.mp here).1

lemma turn_other (other : p ≠ job) (next : Producer) : (q.turn p next).producers[job]? = q.producers[job]? :=
  getElem?_set_ne other

lemma counted_turn (here : q.producers[p]? = some old) (same : next.counted = old.counted) :
    (q.turn p next).counted = q.counted := by
  funext job
  by_cases own : p = job
  · subst own
    rw [counted_at (turn_own here next), counted_at here, same]
  · rw [counted, turn_other own, counted]

lemma Inv.turn (inv : q.Inv) (here : q.producers[p]? = some old)
    (linked : next.linked = old.linked) (counted : next.counted = old.counted)
    (wakes : next = .returned → .blocked ∈ q.workers → ∃ pc ∈ q.workers, pc.seeking = true) : Inv (q.turn p next) := by
  refine { inv with linked := ?_, uncounted := ?_, exact := ?_, alone := ?_, awake := ?_ }
  · intro job member
    obtain ⟨pc, there, before⟩ := inv.linked job member
    by_cases own : p = job
    · subst own
      obtain rfl : old = pc := some.inj (here.symm.trans there)
      exact ⟨next, turn_own here next, linked.trans before⟩
    · exact ⟨pc, (turn_other own next).trans there, before⟩
  · intro job pc there isLinked waiting
    by_cases own : p = job
    · subst own
      obtain rfl : next = pc := some.inj ((turn_own here next).symm.trans there)
      exact inv.uncounted p old here (linked ▸ isLinked) (counted ▸ waiting)
    · exact inv.uncounted job pc ((turn_other own next).symm.trans there) isLinked waiting
  · rw [counted_turn here counted]
    exact inv.exact
  · rw [counted_turn here counted]
    exact inv.alone
  intro blocked job queued returned
  by_cases own : p = job
  · subst own
    exact wakes (some.inj ((turn_own here next).symm.trans returned)) blocked
  · exact inv.awake blocked job queued ((turn_other own next).symm.trans returned)

lemma Inv.advanceTail (inv : q.Inv) (tail : Nat) (ok : Bool) : Inv (q.advanceTail tail ok) := by
  rw [advanceTail_eq]
  exact { inv with }

lemma Inv.link (inv : q.Inv) (here : q.producers[p]? = some (.casNext tail)) :
    Inv ({ q with jobs := q.jobs ++ [p] }.turn p (.casTail tail)) := by
  have fresh : p ∉ q.jobs := by
    intro member
    obtain ⟨pc, there, linked⟩ := inv.linked p member
    obtain rfl : .casNext tail = pc := some.inj (here.symm.trans there)
    cases linked
  have longer : (q.jobs ++ [p]).drop q.head = q.queue ++ [p] := drop_append_of_le_length inv.bound
  have same : ({ q with jobs := q.jobs ++ [p] }.turn p (.casTail tail)).counted = q.counted :=
    counted_turn (q := { q with jobs := q.jobs ++ [p] }) here rfl
  have count : (q.queue ++ [p]).countP q.counted = q.queue.countP q.counted := by
    rw [countP_append, countP_singleton, counted_at here]
    rfl
  have own : ({ q with jobs := q.jobs ++ [p] }.turn p (.casTail tail)).producers[p]? = some (.casTail tail) :=
    turn_own (q := { q with jobs := q.jobs ++ [p] }) here _
  refine ⟨?_, inv.heads, ?_, ?_, ?_, ?_, ?_, ?_, ?_⟩
  · exact Nat.le_trans inv.bound (by simp [IoQueue.turn])
  · intro head job member
    have there := inv.next head job member
    exact (List.getElem?_append_left (List.getElem?_eq_some_iff.mp there).1).trans there
  · exact nodup_append.mpr ⟨inv.distinct, pairwise_singleton _ p, fun job member other single same =>
      fresh (mem_singleton.mp single ▸ same ▸ member)⟩
  · intro job member
    rcases mem_append.mp member with member | single
    · have different : p ≠ job := fun same => fresh (same ▸ member)
      rw [turn_other different]
      exact inv.linked job member
    · rw [mem_singleton.mp single]
      exact ⟨_, own, rfl⟩
  · intro job pc there linked waiting
    change job ∈ (q.jobs ++ [p]).drop q.head
    rw [longer]
    by_cases mine : p = job
    · exact mem_append_right _ (mem_singleton.mpr mine.symm)
    · exact mem_append_left _ (inv.uncounted job pc ((turn_other mine _).symm.trans there) linked waiting)
  · rw [same]
    change q.pendingJobs.toNat = ((q.jobs ++ [p]).drop q.head).countP q.counted + _
    rw [longer, count]
    exact inv.exact
  · rw [same]
    change _ → ((q.jobs ++ [p]).drop q.head).countP q.counted ≤ 1
    rw [longer, count]
    exact inv.alone
  intro blocked job queued returned
  have different : p ≠ job := by
    rintro rfl
    cases own.symm.trans returned
  change job ∈ (q.jobs ++ [p]).drop q.head at queued
  rw [longer] at queued
  have queued := (mem_append.mp queued).resolve_right fun single => different (mem_singleton.mp single).symm
  exact inv.awake blocked job queued ((turn_other different _).symm.trans returned)

lemma toNat_succ {n : UInt64} (room : n + 1 ≠ 0) : (n + 1).toNat = n.toNat + 1 := by
  have bound := n.toNat_lt
  have sum : (n + 1).toNat = (n.toNat + 1) % 2 ^ 64 := UInt64.toNat_add n 1
  have positive : (n + 1).toNat ≠ 0 := fun zero => room (UInt64.toNat_inj.mp zero)
  omega

lemma Inv.fetchAdd (inv : q.Inv) (here : q.producers[p]? = some .fetchAdd) (room : q.pendingJobs + 1 ≠ 0)
    (signals : q.pendingJobs = 0 ∨ blocked ∉ q.workers) :
    Inv ({ q with pendingJobs := q.pendingJobs + 1 }.turn p (if q.pendingJobs = 0 then .signal else .returned)) := by
  generalize chosen : (if q.pendingJobs = 0 then Producer.signal else .returned) = next
  have linked : next.linked = true := by rw [← chosen]; split <;> rfl
  have isCounted : next.counted = true := by rw [← chosen]; split <;> rfl
  have own := turn_own here next
  have queued := inv.uncounted p _ here rfl rfl
  have count : q.queue.countP (q.turn p next).counted = q.queue.countP q.counted + 1 := by
    refine countP_succ (inv.distinct.sublist (drop_sublist ..)) queued (counted_at here)
      ((counted_at own).trans isCounted) ?_
    intro job other
    rw [counted, turn_other other, counted]
  refine { inv with linked := ?_, uncounted := ?_, exact := ?_, alone := ?_, awake := ?_ }
  · intro job member
    by_cases mine : p = job
    · subst mine
      exact ⟨next, own, linked⟩
    · obtain ⟨pc, there, before⟩ := inv.linked job member
      exact ⟨pc, (turn_other mine next).trans there, before⟩
  · intro job pc there isLinked waiting
    by_cases mine : p = job
    · subst mine
      exact queued
    · exact inv.uncounted job pc ((turn_other mine next).symm.trans there) isLinked waiting
  · change (q.pendingJobs + 1).toNat = q.queue.countP (q.turn p next).counted + _
    have exact := inv.exact
    rw [toNat_succ room]
    change _ = _ + q.workers.countP holds
    omega
  · intro blocked
    have zero := signals.resolve_right (fun none => none blocked)
    have exact := inv.exact
    rw [zero] at exact
    change q.queue.countP (q.turn p next).counted ≤ 1
    simp at exact
    omega
  · intro blocked job member returned
    have zero := signals.resolve_right (fun none => none blocked)
    have single : next = .signal := by rw [← chosen, if_pos zero]
    by_cases mine : p = job
    · subst mine
      cases single.symm.trans (some.inj (own.symm.trans returned))
    · exact inv.awake blocked job member ((turn_other mine next).symm.trans returned)

/-! ### Signals -/

lemma Inv.wake (inv : q.Inv) (here : q.workers[w]? = some .blocked) : Inv (q.move w .woken) :=
  inv.move q.tail here nofun nofun rfl nofun nofun

lemma condSignal_cases (q : IoQueue) (choice : Nat) : (blocked ∉ q.workers ∧ q.condSignal choice = q) ∨
      ∃ w : Nat, q.workers[w]? = some .blocked ∧ q.condSignal choice = q.move w .woken := by
  unfold condSignal
  split
  case isTrue here => exact .inr ⟨choice, here, rfl⟩
  case isFalse =>
    by_cases member : blocked ∈ q.workers
    · exact .inr ⟨_, getElem?_idxOf member, rfl⟩
    · refine .inl ⟨member, ?_⟩
      rw [move, idxOf_eq_length member, set_eq_of_length_le (Nat.le_refl _)]

section
variable (inv : q.Inv)
include inv

lemma Inv.signal (here : q.producers[p]? = some .signal) (choice : Nat) :
    Inv ((q.condSignal choice).turn p .returned) := by
  rcases condSignal_cases q choice with ⟨none, same⟩ | ⟨w, blocked, same⟩ <;> rw [same]
  · exact inv.turn here rfl rfl (fun _ member => absurd member none)
  · refine (inv.wake blocked).turn here rfl rfl fun _ _ => ?_
    exact ⟨.woken, mem_set (List.getElem?_eq_some_iff.mp blocked).1 _, rfl⟩

lemma Inv.produce {ok : Bool} {choice : Nat} (signals : q.Signals (.produce p ok choice)) :
    Inv (q.produce p ok choice) := by
  unfold IoQueue.produce
  split
  case h_1 here => exact inv.turn here rfl rfl nofun
  case h_2 here => exact inv.turn here rfl rfl nofun
  case h_3 last here =>
    split
    · cases last <;> exact inv.turn here rfl rfl nofun
    · exact inv.turn here rfl rfl nofun
  case h_4 here =>
    split
    · exact inv.link here
    · exact inv.turn here rfl rfl nofun
  case h_5 tail here =>
    have kept : (q.advanceTail tail ok).producers[p]? = some (.helpTail tail) := by rwa [advanceTail_eq]
    exact (inv.advanceTail tail ok).turn kept rfl rfl nofun
  case h_6 tail here =>
    have kept : (q.advanceTail tail true).producers[p]? = some (.casTail tail) := by rwa [advanceTail_eq]
    exact (inv.advanceTail tail true).turn kept rfl rfl nofun
  case h_7 here =>
    obtain ⟨room, zero⟩ := signals here
    exact inv.fetchAdd here room zero
  case h_8 here => exact inv.signal here choice
  all_goals exact inv

lemma Inv.broadcast : Inv (q.step .broadcast) := by
  have awake : ∀ {pc : Worker}, pc ∈ (q.step .broadcast).workers → pc = .woken ∨ pc ∈ q.workers ∧ pc ≠ .blocked := by
    intro pc member
    obtain ⟨before, there, rfl⟩ := mem_map.mp member
    by_cases asleep : before = .blocked
    · exact .inl (if_pos asleep)
    · rw [if_neg asleep]
      exact .inr ⟨there, asleep⟩
  have none : blocked ∉ (q.step .broadcast).workers := by
    intro member
    rcases awake member with same | ⟨_, different⟩
    · cases same
    · exact different rfl
  have holds : (q.step .broadcast).workers.countP holds = q.workers.countP holds := by
    rw [step, countP_map]
    refine countP_congr fun pc _ => ?_
    by_cases asleep : pc = .blocked
    · simp [asleep, holds]
    · simp [asleep]
  refine { inv with heads := ?_, next := ?_, exact := ?_, alone := fun member => absurd member none,
                    awake := fun member => absurd member none }
  · intro pc member head loaded
    rcases awake member with rfl | ⟨there, _⟩
    · cases loaded
    · exact inv.heads pc there head loaded
  · intro head job member
    rcases awake member with same | ⟨there, _⟩
    · cases same
    · exact inv.next head job there
  · rw [holds]
    exact inv.exact

lemma Inv.run : Inv (q.step .run) := by
  have before : ∀ {pc : Worker}, pc ∈ (q.step .run).workers → pc ≠ .testRunning → pc ∈ q.workers := by
    intro pc member different
    exact (mem_append.mp member).resolve_right fun single => different (mem_singleton.mp single)
  refine { inv with heads := ?_, next := ?_, exact := ?_, alone := ?_, awake := ?_ }
  · intro pc member head loaded
    exact inv.heads pc (before member (by rintro rfl; cases loaded)) head loaded
  · intro head job member
    exact inv.next head job (before member nofun)
  · have : (q.step .run).workers.countP holds = q.workers.countP holds := by
      simp [step, holds]
    rw [this]
    exact inv.exact
  · exact fun member => inv.alone (before member nofun)
  · intro member job queued returned
    obtain ⟨pc, there, seeking⟩ := inv.awake (before member nofun) job queued returned
    exact ⟨pc, mem_append_left _ there, seeking⟩

lemma Inv.submit : Inv { q with producers := q.producers ++ [.loadTail] } := by
  have old : ∀ {job : Nat} {pc : Producer}, (q.producers ++ [.loadTail])[job]? = some pc → pc ≠ .loadTail →
      q.producers[job]? = some pc := by
    intro job pc there different
    rcases Nat.lt_or_ge job q.producers.length with inside | outside
    · rwa [getElem?_append_left inside] at there
    · rw [getElem?_append_right outside] at there
      exact absurd (mem_singleton.mp (mem_of_getElem? there)) different
  have kept : ∀ {job : Nat} {pc : Producer}, q.producers[job]? = some pc →
      (q.producers ++ [.loadTail])[job]? = some pc := by
    intro job pc there
    rwa [List.getElem?_append_left (List.getElem?_eq_some_iff.mp there).1]
  have count : q.queue.countP (IoQueue.counted { q with producers := q.producers ++ [.loadTail] }) =
      q.queue.countP q.counted := by
    refine countP_congr fun job queued => ?_
    obtain ⟨pc, there, _⟩ := inv.linked job (mem_of_mem_drop queued)
    rw [counted_at there, counted_at (q := { q with producers := _ }) (kept there)]
  refine { inv with linked := ?_, uncounted := ?_, exact := ?_, alone := ?_, awake := ?_ }
  · intro job member
    obtain ⟨pc, there, linked⟩ := inv.linked job member
    exact ⟨pc, kept there, linked⟩
  · intro job pc there linked
    exact inv.uncounted job pc (old there (by rintro rfl; cases linked)) linked
  · exact inv.exact.trans (congrArg (· + _) count.symm)
  · exact fun blocked => Nat.le_trans (Nat.le_of_eq count) (inv.alone blocked)
  · intro blocked job queued returned
    exact inv.awake blocked job queued (old returned nofun)

lemma Inv.step (op : Op) (signals : q.Signals op) : Inv (q.step op) := by
  cases op with
  | run => exact inv.run
  | submit =>
    rw [IoQueue.step]
    split
    · exact inv.submit
    · exact inv
  | produce p ok choice => exact inv.produce signals
  | work w ok => exact inv.work signals
  | wake w =>
    rw [IoQueue.step]
    split
    case isTrue here => exact inv.wake here
    case isFalse => exact inv
  | stop => exact { inv with }
  | broadcast => exact inv.broadcast

end

/-- Work conservation: in a run in which every job is counted from zero or while nobody sleeps, and taken only when it is
counted, no job whose submit has returned waits for a callback while a worker sleeps. -/
theorem never_starved (ops : List Op) (signals : Machine.Meets IoQueue.step Signals create ops) :
    ¬ (ops.foldl IoQueue.step create).Starved :=
  (signals.invariant (fun _ op inv ok => inv.step op ok) Inv.create).not_starved

def bothAsleep : List Op := [.run, .run] ++ replicate 5 (.work 0 true) ++ replicate 5 (.work 1 true)

def submitting (p n : Nat) : List Op := .submit :: replicate n (.produce p true 0)

def taking : List Op := replicate 7 (.work 0 true)

theorem never_starved_job_by_job :
    Machine.Meets IoQueue.step Signals create (bothAsleep ++ submitting 0 7 ++ taking ++ submitting 1 7) ∧
      ¬ ((bothAsleep ++ submitting 0 7 ++ taking ++ submitting 1 7).foldl IoQueue.step create).Starved :=
  ⟨by decide, never_starved _ (by decide)⟩

/-- The second submit finds the counter at one and signals nobody. -/
theorem second_submit_starved :
    ((bothAsleep ++ submitting 0 7 ++ submitting 1 6 ++ taking).foldl IoQueue.step create).Starved := by
  have workers : ((bothAsleep ++ submitting 0 7 ++ submitting 1 6 ++ taking).foldl IoQueue.step create).workers =
      [.callback 0, .blocked] := by decide
  refine ⟨1, by decide, by decide, 1, by decide, ?_⟩
  intro v pc other there
  rw [workers] at there
  rcases v with _ | _ | v
  · exact .inr ⟨0, (some.inj there).symm⟩
  · exact absurd rfl other
  · cases there

end IoQueue

end Cwist.Io
