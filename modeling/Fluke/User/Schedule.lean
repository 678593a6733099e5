import Fluke.User.Thread

/-!
# The scheduler
-/

namespace Fluke

open Outcome

namespace Kernel

/-- `schedule_ready` -/
def scheduleReady (t : ThreadId) (k : Kernel) : Except Panic Kernel := do
  assert ((k.thread t).state = .floating) .threadFloating
  (k.setState t .ready).queuePush .run t

/-- `run_queue_pop` -/
def runQueuePop (k : Kernel) : Except Panic (Option ThreadId × Kernel) :=
  match k.queuePop .run with
  | (none, k) => .ok (none, k)
  | (some t, k) => do
    assert ((k.thread t).state = .ready) .threadReady
    .ok (some t, k.setState t .floating)

/-- The place of a thread in the list of sleeping threads: behind those that wake up earlier or at
the same time. -/
def sleepInsert (timeout : ThreadId → ℕ) (t : ThreadId) : List ThreadId → List ThreadId
  | [] => [t]
  | next :: queue =>
    if timeout t < timeout next then t :: next :: queue
    else next :: sleepInsert timeout t queue

/-- `set_timeout` -/
def setTimeout (t : ThreadId) (ns : ℤ) (k : Kernel) : Except Panic Kernel := do
  assert (t ∉ k.sleepQueue) .timeoutUnlinked
  let (now, k) := k.nanoseconds
  let k := k.setTimeoutNs t (uaddIsize now ns)
  .ok (k.setSleepQueue (sleepInsert (fun t => (k.thread t).timeout) t k.sleepQueue))

/-- `schedule_nanosleep` -/
def scheduleNanosleep (t : ThreadId) (waitNs : ℤ) (k : Kernel) : Except Panic Kernel := do
  assert ((k.thread t).state = .floating) .threadFloating
  assert ((k.thread t).queueRoot = none) .threadUnqueued
  let k := k.setState t .sleeping
  assert (waitNs > 0) .waitPositive
  k.setTimeout t waitNs

/-- `schedule_queue_with_timeout` -/
def scheduleQueueWithTimeout (t : ThreadId) (q : QueueId) (waitNs : ℤ)
    (timeoutReturnValue : ErrorCode) (k : Kernel) : Except Panic Kernel := do
  assert (waitNs > 0) .waitPositive
  let k := k.setR0 t timeoutReturnValue.negated
  let k ← k.pushInto q t
  k.setTimeout t waitNs

/-- `schedule_wake` -/
def scheduleWake (t : ThreadId) (returnValue : ℕ) (k : Kernel) : Except Panic Kernel := do
  assert ((k.thread t).state = .sleeping ∨ (k.thread t).state = .waiting) .threadBlocked
  assert ((k.thread t).queueRoot = none) .threadUnqueued
  let k := k.setState t .floating
  let k := k.setR0 t returnValue
  (k.cancel t).scheduleReady t

/-- The loop of `schedule_wake_all`, over the threads that are in the queue -/
def wakeAll (q : QueueId) (returnValue : ℕ) : List ThreadId → Kernel → Except Panic Kernel
  | [], k => .ok k
  | _ :: threads, k =>
    match k.queuePop q with
    | (none, k) => .ok k
    | (some t, k) => do
      let k ← k.scheduleWake t returnValue
      wakeAll q returnValue threads k

/-- `schedule_wake_all` -/
def scheduleWakeAll (q : QueueId) (returnValue : ℕ) (k : Kernel) : Except Panic Kernel :=
  wakeAll q returnValue (k.queue q) k

/-- One thread that `wakeup_sleepers` takes from the list -/
def wakeSleeper (t : ThreadId) (k : Kernel) : Except Panic Kernel := do
  let k ← match (k.thread t).state with
    | .waiting => k.queueNodeRemove t
    | .sleeping => do
      assert ((k.thread t).queueRoot = none) .threadUnqueued
      .ok k
    | _ => .error .sleepingState
  let k := k.setState t .floating
  let k := k.setTimeoutNs t 0
  k.scheduleReady t

/-- The loop of `wakeup_sleepers`. The list is cut behind the last thread that wakes up. -/
def wakeupSleepersAt (now : ℕ) : List ThreadId → Kernel → Except Panic Kernel
  | [], k => .ok (k.setSleepQueue [])
  | queued :: next, k =>
    if (k.thread queued).timeout < now then do
      let k ← k.wakeSleeper queued
      wakeupSleepersAt now next k
    else .ok (k.setSleepQueue (queued :: next))

/-- `wakeup_sleepers` -/
def wakeupSleepers (k : Kernel) : Except Panic Kernel :=
  let (now, k) := k.nanoseconds
  wakeupSleepersAt now k.sleepQueue k

/-! ### Leaving the kernel -/

/-- `cpu_context_save` -/
def cpuContextSave (k : Kernel) : Except Panic (ThreadId × Kernel) :=
  match k.currentThread with
  | none => .error .invalidPointer
  | some t => do
    assert ((k.thread t).state = .running) .threadRunning
    let k := k.setCtx t k.userContext
    let k := k.setState t .floating
    .ok (t, k.setCurrentThread none)

/-- `cpu_context_restore_and_exit` -/
def cpuContextRestoreAndExit (t : ThreadId) (k : Kernel) : Except Panic Kernel := do
  assert (k.currentThread = none) .noCurrentThread
  assert ((k.thread t).state = .floating) .threadFloating
  .ok ((k.setCurrentThread (some t)).setState t .running)

/-- `cpu_exit_idle` -/
def cpuExitIdle (k : Kernel) : Except Panic Kernel := do
  assert (k.currentThread = none) .noCurrentThread
  .ok k

/-- The running thread makes room for another one. -/
def preempt (k : Kernel) : Except Panic Kernel :=
  match k.currentThread with
  | none => .ok k
  | some running => do
    let (_, k) ← k.cpuContextSave
    k.scheduleReady running

/-- `schedule` -/
def schedule (k : Kernel) : Except Panic (Flow Unit × Kernel) := do
  let k ← k.wakeupSleepers
  match ← k.runQueuePop with
  | (none, k) => .ok (.returns (), k)
  | (some t, k) => do
    let k ← k.preempt
    let k ← k.cpuContextRestoreAndExit t
    .ok (.exits, k)

/-- `schedule_or_exit` -/
def scheduleOrExit (k : Kernel) : Except Panic Kernel := do
  match ← k.schedule with
  | (.exits, k) => .ok k
  | (.returns (), k) => k.cpuExitIdle

end Kernel

end Fluke
