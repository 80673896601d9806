import Cwist.Lib.Machine

/-!
# The job queue

`io_queue.c`: a lock-free list of jobs with a sentinel, a counter of the jobs beside it, and workers that sleep
while the counter is zero.
-/

namespace Cwist.Io

inductive Producer where
  | loadTail
  | loadNext (tail : Nat)
  /-- The second load of `q->tail`, with whether `tail->next` was NULL. -/
  | reloadTail (tail : Nat) (last : Bool)
  | casNext (tail : Nat)
  | helpTail (tail : Nat)
  | casTail (tail : Nat)
  | fetchAdd
  | signal
  | returned
  deriving DecidableEq

inductive Worker where
  | testRunning
  | testPending
  | loadHead
  | loadTail (head : Nat)
  | loadNext (head tail : Nat)
  | helpTail (head : Nat)
  | casHead (head job : Nat)
  | fetchSub (job : Nat)
  | callback (job : Nat)
  | wait
  | blocked
  /-- Signalled in `pthread_cond_wait`, before it has the lock again. -/
  | woken
  | exited
  deriving DecidableEq

structure IoQueue where
  jobs : List Nat
  head : Nat
  tail : Nat
  pendingJobs : UInt64
  running : Bool
  producers : List Producer
  workers : List Worker
  deriving DecidableEq

namespace IoQueue

def create : IoQueue := ⟨[], 0, 0, 0, true, [], []⟩

section

variable (q : IoQueue)

def queue : List Nat := q.jobs.drop q.head

def turn (p : Nat) (next : Producer) : IoQueue := { q with producers := q.producers.set p next }

def move (w : Nat) (next : Worker) : IoQueue := { q with workers := q.workers.set w next }

def advanceTail (tail : Nat) (ok : Bool) : IoQueue :=
  if ok ∧ q.tail = tail then { q with tail := tail + 1 } else q

def condSignal (choice : Nat) : IoQueue :=
  if q.workers[choice]? = some .blocked then q.move choice .woken else q.move (q.workers.idxOf .blocked) .woken

def produce (p : Nat) (ok : Bool) (choice : Nat) : IoQueue :=
  match q.producers[p]? with
  | some .loadTail => q.turn p (.loadNext q.tail)
  | some (.loadNext tail) => q.turn p (.reloadTail tail (q.jobs[tail]?).isNone)
  | some (.reloadTail tail last) =>
    if q.tail = tail then q.turn p (if last then .casNext tail else .helpTail tail) else q.turn p .loadTail
  | some (.casNext tail) =>
    if ok ∧ q.jobs.length = tail then { q with jobs := q.jobs ++ [p] }.turn p (.casTail tail) else q.turn p .loadTail
  | some (.helpTail tail) => (q.advanceTail tail ok).turn p .loadTail
  | some (.casTail tail) => (q.advanceTail tail true).turn p .fetchAdd
  | some .fetchAdd =>
    { q with pendingJobs := q.pendingJobs + 1 }.turn p (if q.pendingJobs = 0 then .signal else .returned)
  | some .signal => (q.condSignal choice).turn p .returned
  | some .returned => q
  | none => q

def waitUnderLock (w : Nat) : IoQueue :=
  if q.pendingJobs = 0 ∧ q.running then q.move w .blocked
  else if q.running ∨ 0 < q.pendingJobs then q.move w .testRunning
  else q.move w .exited

def work (w : Nat) (ok : Bool) : IoQueue :=
  match q.workers[w]? with
  | some .testRunning => q.move w (if q.running then .loadHead else .testPending)
  | some .testPending => q.move w (if 0 < q.pendingJobs then .loadHead else .exited)
  | some .loadHead => q.move w (.loadTail q.head)
  | some (.loadTail head) => q.move w (.loadNext head q.tail)
  | some (.loadNext head tail) =>
    match q.jobs[head]? with
    | none => q.move w .wait
    | some job => q.move w (if head = tail then .helpTail head else .casHead head job)
  | some (.helpTail head) => (q.advanceTail head ok).move w .loadHead
  | some (.casHead head job) =>
    if ok ∧ q.head = head then { q with head := head + 1 }.move w (.fetchSub job) else q.move w .loadHead
  | some (.fetchSub job) => { q with pendingJobs := q.pendingJobs - 1 }.move w (.callback job)
  | some (.callback _) => q.move w .testRunning
  | some .wait => q.waitUnderLock w
  | some .blocked => q
  | some .woken => q.waitUnderLock w
  | some .exited => q
  | none => q

end

inductive Op where
  | run
  | submit
  | produce (p : Nat) (ok : Bool) (choice : Nat)
  | work (w : Nat) (ok : Bool)
  | wake (w : Nat)
  | stop
  | broadcast
  deriving DecidableEq

def step (q : IoQueue) : Op → IoQueue
  | .run => { q with workers := q.workers ++ [.testRunning] }
  | .submit => if q.running then { q with producers := q.producers ++ [.loadTail] } else q
  | .produce p ok choice => q.produce p ok choice
  | .work w ok => q.work w ok
  | .wake w => if q.workers[w]? = some .blocked then q.move w .woken else q
  | .stop => { q with running := false }
  | .broadcast => { q with workers := q.workers.map fun pc => if pc = .blocked then .woken else pc }

end IoQueue

end Cwist.Io
