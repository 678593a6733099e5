import Fluke.User.Handle

/-!
# Threads

The state that the scheduler, IPC and the interrupt handles share. A queue is the list of its
threads, which is what the intrusive queues represent; a thread knows the queue that it is in. The
threads with a timeout are a list as well, in the order in which they wake up.

`clock` and `copies` are what `nanoseconds` and `memcpy_user_user_catch_fault` are going to return,
call by call. A function of the source that does not return, since it resumes a thread or idles,
ends in the state in which the kernel is left.
-/

namespace Fluke

open Outcome

/-- `Thread*` -/
abbrev ThreadId := ℕ

/-- `enum thread_state` -/
inductive ThreadState where
  | floating | running | ready | waiting | sleeping | calling
  deriving DecidableEq, Repr

/-- `Queue*` -/
inductive QueueId where
  /-- `run_queue` -/
  | run
  /-- `channels[i].queue` of an IPC object -/
  | channel (ipc : ℕ) (i : ℕ)
  /-- `handlers[n].waiting` -/
  | irq (n : Fin 16)
  deriving DecidableEq, Repr

/-- `struct Registers`, with the registers of a system call -/
structure Registers where
  /-- `rax`, which is `CTX_SYS_OP` and `CTX_SYS_R0` -/
  r0 : ℕ
  /-- `rdi` -/
  a0 : ℕ
  /-- `rsi`, which is `CTX_PTR` -/
  a1 : ℕ
  /-- `rdx`, which is `CTX_LEN` and `CTX_SYS_R1` -/
  a2 : ℕ
  /-- `r10`, which is `CTX_MODE` -/
  a3 : ℕ
  /-- `r8` -/
  a4 : ℕ
  /-- `r9` -/
  a5 : ℕ
  /-- `rip` -/
  pc : ℕ
  /-- `rsp` -/
  sp : ℕ
  deriving DecidableEq, Repr

/-- `Thread` -/
structure Thread where
  ctx : Registers
  state : ThreadState
  /-- `timeout.ns` -/
  timeout : ℕ
  /-- `queue.root` -/
  queueRoot : Option QueueId
  ipcCaller : Option ThreadId

/-- `IPC_channel::State` -/
inductive ChannelState where
  | empty | listening | calling
  deriving DecidableEq, Repr

/-- `IPCimpl`; the queues of the channels are among the queues. -/
structure IpcImpl where
  transferMap : List ℕ
  channelCount : ℕ
  closedCall : Bool
  closedListen : Bool
  channels : List ChannelState
  deriving DecidableEq, Repr

/-- `IRQ_handle`, and whether the interrupt is enabled -/
structure IrqHandle where
  isClaimed : Bool
  interruptOccurred : Bool
  enabled : Bool

/-- The state of the scheduler, IPC and the interrupts. `freed` lists the IPC objects that were
freed, with the size that was given, the latest first. -/
@[ext] structure Kernel where
  thread : ThreadId → Thread
  threadCount : ℕ
  queue : QueueId → List ThreadId
  sleepQueue : List ThreadId
  currentThread : Option ThreadId
  userContext : Registers
  irqs : Fin 16 → IrqHandle
  ipcs : ℕ → Option IpcImpl
  ipcCount : ℕ
  freed : List (ℕ × ℕ)
  clock : ℕ → ℕ
  copies : ℕ → ℕ

/-- `usize(-errno)` -/
def ErrorCode.negated (e : ErrorCode) : ℕ := 2 ^ 64 - e.value

/-- What a function leaves behind that returns or resumes a thread. -/
inductive Flow (α : Type) where
  | returns (a : α)
  | exits
  deriving DecidableEq, Repr

namespace Kernel

/-! ### Writes -/

/-- Overwrite a thread. -/
def setThread (k : Kernel) (t : ThreadId) (thread : Thread) : Kernel :=
  { k with thread := Function.update k.thread t thread }

/-- `thread->state = state` -/
def setState (k : Kernel) (t : ThreadId) (state : ThreadState) : Kernel :=
  k.setThread t { k.thread t with state := state }

/-- `thread->ctx = ctx` -/
def setCtx (k : Kernel) (t : ThreadId) (ctx : Registers) : Kernel :=
  k.setThread t { k.thread t with ctx := ctx }

/-- `CTX_SYS_R0(&thread->ctx) = value` -/
def setR0 (k : Kernel) (t : ThreadId) (value : ℕ) : Kernel :=
  k.setCtx t { (k.thread t).ctx with r0 := value }

/-- `thread->queue.root = root` -/
def setQueueRoot (k : Kernel) (t : ThreadId) (root : Option QueueId) : Kernel :=
  k.setThread t { k.thread t with queueRoot := root }

/-- `thread->timeout.ns = ns` -/
def setTimeoutNs (k : Kernel) (t : ThreadId) (ns : ℕ) : Kernel :=
  k.setThread t { k.thread t with timeout := ns }

/-- `thread->ipc_caller = caller` -/
def setIpcCaller (k : Kernel) (t : ThreadId) (caller : Option ThreadId) : Kernel :=
  k.setThread t { k.thread t with ipcCaller := caller }

/-- Overwrite a queue. -/
def setQueue (k : Kernel) (q : QueueId) (threads : List ThreadId) : Kernel :=
  { k with queue := Function.update k.queue q threads }

/-- `sleep_queue = thread`, and the links -/
def setSleepQueue (k : Kernel) (threads : List ThreadId) : Kernel :=
  { k with sleepQueue := threads }

/-- `this_tls->current_thread = thread` -/
def setCurrentThread (k : Kernel) (thread : Option ThreadId) : Kernel :=
  { k with currentThread := thread }

/-- `this_tls->user_context = ctx` -/
def setUserContext (k : Kernel) (ctx : Registers) : Kernel := { k with userContext := ctx }

/-- The next reading of the clock -/
def tick (k : Kernel) : Kernel := { k with clock := fun i => k.clock (i + 1) }

/-- Overwrite an IPC object. -/
def setIpc (k : Kernel) (i : ℕ) (ipc : Option IpcImpl) : Kernel :=
  { k with ipcs := Function.update k.ipcs i ipc }

/-- Overwrite an interrupt handle. -/
def setIrq (k : Kernel) (n : Fin 16) (irq : IrqHandle) : Kernel :=
  { k with irqs := Function.update k.irqs n irq }

section

variable (k : Kernel) (t m : ThreadId) (thread : Thread) (q : QueueId) (threads : List ThreadId)
  (i : ℕ) (ipc : Option IpcImpl) (n : Fin 16) (irq : IrqHandle) (current : Option ThreadId)
  (ctx : Registers)

@[simp, grind =] lemma setThread_thread : (k.setThread t thread).thread m =
    if m = t then thread else k.thread m := Function.update_apply _ _ _ _

@[simp, grind =] lemma setThread_threadCount :
    (k.setThread t thread).threadCount = k.threadCount := rfl

@[simp, grind =] lemma setThread_queue : (k.setThread t thread).queue q = k.queue q := rfl

@[simp, grind =] lemma setThread_sleepQueue :
    (k.setThread t thread).sleepQueue = k.sleepQueue := rfl

@[simp, grind =] lemma setThread_currentThread :
    (k.setThread t thread).currentThread = k.currentThread := rfl

@[simp, grind =] lemma setThread_userContext :
    (k.setThread t thread).userContext = k.userContext := rfl

@[simp, grind =] lemma setThread_irqs : (k.setThread t thread).irqs n = k.irqs n := rfl

@[simp, grind =] lemma setThread_ipcs : (k.setThread t thread).ipcs i = k.ipcs i := rfl

@[simp, grind =] lemma setThread_ipcCount : (k.setThread t thread).ipcCount = k.ipcCount := rfl

@[simp, grind =] lemma setThread_freed : (k.setThread t thread).freed = k.freed := rfl

@[simp, grind =] lemma setThread_clock : (k.setThread t thread).clock = k.clock := rfl

@[simp, grind =] lemma setThread_copies : (k.setThread t thread).copies = k.copies := rfl

@[simp] lemma setThread_setThread (thread' : Thread) :
    (k.setThread t thread).setThread t thread' = k.setThread t thread' := by
  simp [setThread]

@[simp] lemma setThread_setQueue :
    (k.setThread t thread).setQueue q threads = (k.setQueue q threads).setThread t thread := rfl

@[simp] lemma setThread_setSleepQueue : (k.setThread t thread).setSleepQueue threads =
    (k.setSleepQueue threads).setThread t thread := rfl

@[simp] lemma setSleepQueue_setQueue (threads' : List ThreadId) :
    (k.setSleepQueue threads').setQueue q threads =
      (k.setQueue q threads).setSleepQueue threads' := rfl

@[simp] lemma setThread_tick : (k.setThread t thread).tick = k.tick.setThread t thread := rfl

@[simp] lemma setSleepQueue_self : k.setSleepQueue k.sleepQueue = k := rfl

@[simp, grind =] lemma setQueue_queue (q' : QueueId) : (k.setQueue q threads).queue q' =
    if q' = q then threads else k.queue q' := Function.update_apply _ _ _ _

@[simp, grind =] lemma setQueue_thread : (k.setQueue q threads).thread t = k.thread t := rfl

@[simp, grind =] lemma setQueue_threadCount :
    (k.setQueue q threads).threadCount = k.threadCount := rfl

@[simp, grind =] lemma setQueue_sleepQueue : (k.setQueue q threads).sleepQueue = k.sleepQueue := rfl

@[simp, grind =] lemma setQueue_currentThread :
    (k.setQueue q threads).currentThread = k.currentThread := rfl

@[simp, grind =] lemma setQueue_userContext :
    (k.setQueue q threads).userContext = k.userContext := rfl

@[simp, grind =] lemma setQueue_irqs : (k.setQueue q threads).irqs n = k.irqs n := rfl

@[simp, grind =] lemma setQueue_ipcs : (k.setQueue q threads).ipcs i = k.ipcs i := rfl

@[simp, grind =] lemma setQueue_ipcCount : (k.setQueue q threads).ipcCount = k.ipcCount := rfl

@[simp, grind =] lemma setQueue_freed : (k.setQueue q threads).freed = k.freed := rfl

@[simp, grind =] lemma setQueue_clock : (k.setQueue q threads).clock = k.clock := rfl

@[simp, grind =] lemma setQueue_copies : (k.setQueue q threads).copies = k.copies := rfl

@[simp, grind =] lemma setIpc_ipcs (j : ℕ) : (k.setIpc i ipc).ipcs j =
    if j = i then ipc else k.ipcs j := Function.update_apply _ _ _ _

@[simp, grind =] lemma setIpc_thread : (k.setIpc i ipc).thread t = k.thread t := rfl

@[simp, grind =] lemma setIpc_threadCount : (k.setIpc i ipc).threadCount = k.threadCount := rfl

@[simp, grind =] lemma setIpc_queue : (k.setIpc i ipc).queue q = k.queue q := rfl

@[simp, grind =] lemma setIpc_sleepQueue : (k.setIpc i ipc).sleepQueue = k.sleepQueue := rfl

@[simp, grind =] lemma setIpc_currentThread :
    (k.setIpc i ipc).currentThread = k.currentThread := rfl

@[simp, grind =] lemma setIpc_userContext : (k.setIpc i ipc).userContext = k.userContext := rfl

@[simp, grind =] lemma setIpc_irqs : (k.setIpc i ipc).irqs n = k.irqs n := rfl

@[simp, grind =] lemma setIpc_ipcCount : (k.setIpc i ipc).ipcCount = k.ipcCount := rfl

@[simp, grind =] lemma setIpc_freed : (k.setIpc i ipc).freed = k.freed := rfl

@[simp, grind =] lemma setIpc_clock : (k.setIpc i ipc).clock = k.clock := rfl

@[simp, grind =] lemma setIpc_copies : (k.setIpc i ipc).copies = k.copies := rfl

@[simp, grind =] lemma setIrq_irqs (m : Fin 16) : (k.setIrq n irq).irqs m =
    if m = n then irq else k.irqs m := Function.update_apply _ _ _ _

@[simp, grind =] lemma setIrq_thread : (k.setIrq n irq).thread t = k.thread t := rfl

@[simp, grind =] lemma setIrq_threadCount : (k.setIrq n irq).threadCount = k.threadCount := rfl

@[simp, grind =] lemma setIrq_queue : (k.setIrq n irq).queue q = k.queue q := rfl

@[simp, grind =] lemma setIrq_sleepQueue : (k.setIrq n irq).sleepQueue = k.sleepQueue := rfl

@[simp, grind =] lemma setIrq_currentThread :
    (k.setIrq n irq).currentThread = k.currentThread := rfl

@[simp, grind =] lemma setIrq_userContext : (k.setIrq n irq).userContext = k.userContext := rfl

@[simp, grind =] lemma setIrq_ipcs : (k.setIrq n irq).ipcs i = k.ipcs i := rfl

@[simp, grind =] lemma setIrq_ipcCount : (k.setIrq n irq).ipcCount = k.ipcCount := rfl

@[simp, grind =] lemma setIrq_freed : (k.setIrq n irq).freed = k.freed := rfl

@[simp, grind =] lemma setIrq_clock : (k.setIrq n irq).clock = k.clock := rfl

@[simp, grind =] lemma setIrq_copies : (k.setIrq n irq).copies = k.copies := rfl

@[simp, grind =] lemma setSleepQueue_sleepQueue :
    (k.setSleepQueue threads).sleepQueue = threads := rfl

@[simp, grind =] lemma setSleepQueue_thread : (k.setSleepQueue threads).thread t = k.thread t := rfl

@[simp, grind =] lemma setSleepQueue_threadCount :
    (k.setSleepQueue threads).threadCount = k.threadCount := rfl

@[simp, grind =] lemma setSleepQueue_queue : (k.setSleepQueue threads).queue q = k.queue q := rfl

@[simp, grind =] lemma setSleepQueue_currentThread :
    (k.setSleepQueue threads).currentThread = k.currentThread := rfl

@[simp, grind =] lemma setSleepQueue_userContext :
    (k.setSleepQueue threads).userContext = k.userContext := rfl

@[simp, grind =] lemma setSleepQueue_irqs : (k.setSleepQueue threads).irqs n = k.irqs n := rfl

@[simp, grind =] lemma setSleepQueue_ipcs : (k.setSleepQueue threads).ipcs i = k.ipcs i := rfl

@[simp, grind =] lemma setSleepQueue_ipcCount :
    (k.setSleepQueue threads).ipcCount = k.ipcCount := rfl

@[simp, grind =] lemma setSleepQueue_freed : (k.setSleepQueue threads).freed = k.freed := rfl

@[simp, grind =] lemma setSleepQueue_clock : (k.setSleepQueue threads).clock = k.clock := rfl

@[simp, grind =] lemma setSleepQueue_copies : (k.setSleepQueue threads).copies = k.copies := rfl

@[simp, grind =] lemma setCurrentThread_currentThread :
    (k.setCurrentThread current).currentThread = current := rfl

@[simp, grind =] lemma setCurrentThread_thread :
    (k.setCurrentThread current).thread t = k.thread t := rfl

@[simp, grind =] lemma setCurrentThread_threadCount :
    (k.setCurrentThread current).threadCount = k.threadCount := rfl

@[simp, grind =] lemma setCurrentThread_queue :
    (k.setCurrentThread current).queue q = k.queue q := rfl

@[simp, grind =] lemma setCurrentThread_sleepQueue :
    (k.setCurrentThread current).sleepQueue = k.sleepQueue := rfl

@[simp, grind =] lemma setCurrentThread_userContext :
    (k.setCurrentThread current).userContext = k.userContext := rfl

@[simp, grind =] lemma setCurrentThread_irqs : (k.setCurrentThread current).irqs n = k.irqs n := rfl

@[simp, grind =] lemma setCurrentThread_ipcs : (k.setCurrentThread current).ipcs i = k.ipcs i := rfl

@[simp, grind =] lemma setCurrentThread_ipcCount :
    (k.setCurrentThread current).ipcCount = k.ipcCount := rfl

@[simp, grind =] lemma setCurrentThread_freed : (k.setCurrentThread current).freed = k.freed := rfl

@[simp, grind =] lemma setCurrentThread_clock : (k.setCurrentThread current).clock = k.clock := rfl

@[simp, grind =] lemma setCurrentThread_copies :
    (k.setCurrentThread current).copies = k.copies := rfl

@[simp, grind =] lemma setUserContext_userContext : (k.setUserContext ctx).userContext = ctx := rfl

@[simp, grind =] lemma setUserContext_threadCount :
    (k.setUserContext ctx).threadCount = k.threadCount := rfl

@[simp, grind =] lemma setUserContext_queue : (k.setUserContext ctx).queue q = k.queue q := rfl

@[simp, grind =] lemma setUserContext_sleepQueue :
    (k.setUserContext ctx).sleepQueue = k.sleepQueue := rfl

@[simp, grind =] lemma setUserContext_currentThread :
    (k.setUserContext ctx).currentThread = k.currentThread := rfl

@[simp, grind =] lemma setUserContext_irqs : (k.setUserContext ctx).irqs n = k.irqs n := rfl

@[simp, grind =] lemma setUserContext_ipcs : (k.setUserContext ctx).ipcs i = k.ipcs i := rfl

@[simp, grind =] lemma setUserContext_ipcCount : (k.setUserContext ctx).ipcCount = k.ipcCount := rfl

@[simp, grind =] lemma setUserContext_freed : (k.setUserContext ctx).freed = k.freed := rfl

@[simp, grind =] lemma setUserContext_clock : (k.setUserContext ctx).clock = k.clock := rfl

@[simp, grind =] lemma setUserContext_copies : (k.setUserContext ctx).copies = k.copies := rfl

@[simp, grind =] lemma tick_clock : k.tick.clock = fun i => k.clock (i + 1) := rfl

@[simp, grind =] lemma tick_thread : k.tick.thread t = k.thread t := rfl

@[simp, grind =] lemma tick_threadCount : k.tick.threadCount = k.threadCount := rfl

@[simp, grind =] lemma tick_queue : k.tick.queue q = k.queue q := rfl

@[simp, grind =] lemma tick_sleepQueue : k.tick.sleepQueue = k.sleepQueue := rfl

@[simp, grind =] lemma tick_currentThread : k.tick.currentThread = k.currentThread := rfl

@[simp, grind =] lemma tick_userContext : k.tick.userContext = k.userContext := rfl

@[simp, grind =] lemma tick_irqs : k.tick.irqs n = k.irqs n := rfl

@[simp, grind =] lemma tick_ipcs : k.tick.ipcs i = k.ipcs i := rfl

@[simp, grind =] lemma tick_ipcCount : k.tick.ipcCount = k.ipcCount := rfl

@[simp, grind =] lemma tick_freed : k.tick.freed = k.freed := rfl

@[simp, grind =] lemma tick_copies : k.tick.copies = k.copies := rfl

end

/-! ### Queues -/

/-- `queue_push` -/
def queuePush (q : QueueId) (t : ThreadId) (k : Kernel) : Except Panic Kernel := do
  assert ((k.thread t).queueRoot = none) .queueNodeFree
  .ok ((k.setQueue q (k.queue q ++ [t])).setQueueRoot t (some q))

/-- `queue_pop` -/
def queuePop (q : QueueId) (k : Kernel) : Option ThreadId × Kernel :=
  match k.queue q with
  | [] => (none, k)
  | t :: threads => (some t, (k.setQueue q threads).setQueueRoot t none)

/-- `queue_node_remove` -/
def queueNodeRemove (t : ThreadId) (k : Kernel) : Except Panic Kernel :=
  match (k.thread t).queueRoot with
  | none => .error (.assertion .queueNodeQueued)
  | some q => .ok ((k.setQueue q ((k.queue q).erase t)).setQueueRoot t none)

/-- `Thread::Timeout::cancel` -/
def cancel (t : ThreadId) (k : Kernel) : Kernel :=
  if t ∈ k.sleepQueue then (k.setSleepQueue (k.sleepQueue.erase t)).setTimeoutNs t 0 else k

/-- `Thread::push_into` -/
def pushInto (q : QueueId) (t : ThreadId) (k : Kernel) : Except Panic Kernel := do
  assert ((k.thread t).state = .floating) .threadFloating
  assert ((k.thread t).queueRoot = none) .threadUnqueued
  assert (t ∉ k.sleepQueue) .timeoutUnlinked
  (k.setState t .waiting).queuePush q t

/-- `Thread::pop_from` -/
def popFrom (q : QueueId) (k : Kernel) : Except Panic (Option ThreadId × Kernel) :=
  match k.queuePop q with
  | (none, k) => .ok (none, k)
  | (some t, k) => do
    assert ((k.thread t).state = .waiting) .threadWaiting
    .ok (some t, (k.setState t .floating).cancel t)

/-! ### The clock, and copies between address spaces -/

/-- `nanoseconds` -/
def nanoseconds (k : Kernel) : ℕ × Kernel :=
  (k.clock 0, k.tick)

/-- `memcpy_user_user_catch_fault`: 0, or what failed -/
def memcpyUserUserCatchFault (k : Kernel) : ℕ × Kernel :=
  (k.copies 0, { k with copies := fun i => k.copies (i + 1) })

end Kernel

end Fluke
