import Cwist.Basic
import Cwist.Lib.Heap
import Cwist.Lib.Machine

namespace Cwist.Jobs

structure ScheduledJob where
  deadlineMs : UInt64
  func : Nat
  arg : Nat
  call : Nat
  stampMs : UInt64
  delayMs : UInt64
  deriving DecidableEq

def ScheduledJob.deadline (job : ScheduledJob) : Nat := job.deadlineMs.toNat

inductive SchedulerEvent where
  | direct (func arg : Nat)
  | accepted (job : ScheduledJob)
  | taken (job : ScheduledJob)
  | handed (job : ScheduledJob) (clockMs : UInt64)
  | detached
  | dropped (job : ScheduledJob)
  | freed (jobs : List ScheduledJob)
  deriving DecidableEq

structure Scheduler where
  clockMs : UInt64
  heap : List ScheduledJob
  heapCapacity : Nat
  /-- Calls of `cwist_scheduler_schedule` that have read the clock and not yet taken the lock. -/
  arriving : List ScheduledJob
  /-- The job that the timer thread has popped and not yet submitted. -/
  leaving : Option ScheduledJob
  /-- What each call of `cwist_scheduler_cancel_pending` has still to drop. -/
  cancels : List (List ScheduledJob)
  calls : Nat
  log : List SchedulerEvent
  deriving DecidableEq

namespace Scheduler

def heapInit : Nat := 16

def create (clockMs : UInt64) : Scheduler := ⟨clockMs, [], 0, [], none, [], 0, []⟩

section

variable (s : Scheduler)

def emit (event : SchedulerEvent) : Scheduler := { s with log := s.log ++ [event] }

def heapGrow (alloc : Bool) : Option Scheduler :=
  if s.heap.length < s.heapCapacity then some s
  else if alloc then some { s with heapCapacity := if s.heapCapacity = 0 then heapInit else s.heapCapacity * 2 }
  else none

def heapPush (job : ScheduledJob) (alloc : Bool) : Scheduler :=
  match s.heapGrow alloc with
  | none => s
  | some s => { s with heap := Heap.push ScheduledJob.deadline s.heap job }

def schedule (func : Option Nat) (arg : Nat) (delayMs : UInt64) (alloc : Bool) : Scheduler :=
  match func with
  | none => s
  | some func =>
    if delayMs = 0 then
      if alloc then s.emit (.direct func arg) else s
    else
      let job := ⟨s.clockMs + delayMs, func, arg, s.calls, s.clockMs, delayMs⟩
      { s with arriving := s.arriving ++ [job], calls := s.calls + 1 }

def scheduleLocked (i : Nat) (alloc : Bool) : Scheduler :=
  match s.arriving[i]? with
  | none => s
  | some job =>
    let after := heapPush { s with arriving := s.arriving.eraseIdx i } job alloc
    if after.heap.length ≠ s.heap.length + 1 then after else after.emit (.accepted job)

def timer : Scheduler :=
  match s.leaving, s.heap with
  | none, top :: _ =>
    if top.deadlineMs ≤ s.clockMs then
      match Heap.pop ScheduledJob.deadline s.heap with
      | none => s
      | some (job, heap) => emit { s with heap, leaving := some job } (.taken job)
    else s
  | _, _ => s

def submit (alloc : Bool) : Scheduler :=
  match s.leaving with
  | none => s
  | some job =>
    let s := { s with leaving := none }
    if alloc then s.emit (.handed job s.clockMs) else s

def cancelPending (dropCb : Bool) : Scheduler :=
  let detached := s.heap
  let s := emit { s with heap := [], heapCapacity := 0 } .detached
  if dropCb then { s with cancels := s.cancels ++ [detached] } else s.emit (.freed detached)

def drop (i : Nat) : Scheduler :=
  match s.cancels[i]? with
  | none => s
  | some [] => { s with cancels := s.cancels.eraseIdx i }
  | some (job :: rest) => emit { s with cancels := s.cancels.set i rest } (.dropped job)

end

end Scheduler

inductive SchedulerOp where
  | clock (readingMs : UInt64)
  | schedule (func : Option Nat) (arg : Nat) (delayMs : UInt64) (alloc : Bool)
  | scheduleLocked (i : Nat) (alloc : Bool)
  | timer
  | submit (alloc : Bool)
  | cancelPending (dropCb : Bool)
  | drop (i : Nat)

namespace Scheduler

def step (s : Scheduler) : SchedulerOp → Scheduler
  | .clock readingMs => if s.clockMs ≤ readingMs then { s with clockMs := readingMs } else s
  | .schedule func arg delayMs alloc => s.schedule func arg delayMs alloc
  | .scheduleLocked i alloc => s.scheduleLocked i alloc
  | .timer => s.timer
  | .submit alloc => s.submit alloc
  | .cancelPending dropCb => s.cancelPending dropCb
  | .drop i => s.drop i

def run (s : Scheduler) (ops : List SchedulerOp) : Scheduler := ops.foldl step s

end Scheduler

namespace SchedulerEvent

def accepted? : SchedulerEvent → Option ScheduledJob
  | accepted job => some job
  | _ => none

def taken? : SchedulerEvent → Option ScheduledJob
  | taken job => some job
  | _ => none

def handed? : SchedulerEvent → Option ScheduledJob
  | handed job _ => some job
  | _ => none

def cancelled : SchedulerEvent → List ScheduledJob
  | dropped job => [job]
  | freed jobs => jobs
  | _ => []

def pendingAfter (waiting : List ScheduledJob) : SchedulerEvent → List ScheduledJob
  | accepted job => job :: waiting
  | taken job => waiting.erase job
  | detached => []
  | _ => waiting

end SchedulerEvent

section

variable (log : List SchedulerEvent)

def accepted : List ScheduledJob := log.filterMap SchedulerEvent.accepted?

def taken : List ScheduledJob := log.filterMap SchedulerEvent.taken?

def handed : List ScheduledJob := log.filterMap SchedulerEvent.handed?

def cancelled : List ScheduledJob := log.flatMap SchedulerEvent.cancelled

def pending : List ScheduledJob := log.foldl SchedulerEvent.pendingAfter []

end

end Cwist.Jobs
