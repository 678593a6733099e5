import Fluke.User.Schedule

/-!
# The places of threads

Every thread has one place: it runs, it is in a queue, it sleeps, or another thread holds it until
it responds. `Placed` says that the state, the queues, the list of sleeping threads and the two
raw pointers all agree with the places. A thread whose place is `floating` is in the hands of the
kernel; between entries there is none.
-/

namespace Fluke

open Outcome

/-- Where a thread is. -/
inductive Place where
  | absent
  | floating
  | running
  | queued (q : QueueId)
  | sleeping
  | calling (listener : ThreadId)
  deriving DecidableEq

namespace Place

/-- The state of a thread at the place. -/
def state : Place → ThreadState
  | absent => .floating
  | floating => .floating
  | running => .running
  | queued .run => .ready
  | queued (.channel _ _) => .waiting
  | queued (.irq _) => .waiting
  | sleeping => .sleeping
  | calling _ => .calling

/-- The queue of a thread at the place. -/
def root : Place → Option QueueId
  | queued q => some q
  | _ => none

/-- A thread at the place has a timeout. -/
def Timed : Place → Prop
  | sleeping => True
  | queued (.irq _) => True
  | _ => False

@[simp] lemma root_eq_some {p : Place} {q : QueueId} : p.root = some q ↔ p = queued q := by
  cases p <;> simp [root]

@[simp] lemma timed_absent : ¬ absent.Timed := fun h => h

@[simp] lemma timed_floating : ¬ floating.Timed := fun h => h

@[simp] lemma timed_running : ¬ running.Timed := fun h => h

@[simp] lemma timed_run : ¬ (queued .run).Timed := fun h => h

@[simp] lemma timed_channel (i c : ℕ) : ¬ (queued (.channel i c)).Timed := fun h => h

@[simp] lemma timed_irq (n : Fin 16) : (queued (.irq n)).Timed := trivial

@[simp] lemma timed_sleeping : sleeping.Timed := trivial

@[simp] lemma timed_calling (l : ThreadId) : ¬ (calling l).Timed := fun h => h

lemma timed_iff {p : Place} : p.Timed ↔ p = sleeping ∨ ∃ n, p = queued (.irq n) := by
  cases p with
  | queued q => cases q <;> simp
  | _ => simp

end Place

/-- The kernel agrees with the places. -/
structure Placed (k : Kernel) (place : ThreadId → Place) : Prop where
  state : ∀ t, (k.thread t).state = (place t).state
  root : ∀ t, (k.thread t).queueRoot = (place t).root
  queue : ∀ q t, t ∈ k.queue q ↔ place t = .queued q
  nodup : ∀ q, (k.queue q).Nodup
  current : ∀ t, k.currentThread = some t ↔ place t = .running
  caller : ∀ l t, (k.thread l).ipcCaller = some t ↔ place t = .calling l
  sleep : ∀ t, t ∈ k.sleepQueue ↔ (place t).Timed
  sleepNodup : k.sleepQueue.Nodup
  absent : ∀ t, place t = .absent ↔ k.threadCount ≤ t

namespace Placed

variable {k k' : Kernel} {place : ThreadId → Place} {t : ThreadId}

/-- Nothing else matters. -/
lemma congr (h : Placed k place)
    (hthread : ∀ t, (k'.thread t).state = (k.thread t).state ∧
      (k'.thread t).queueRoot = (k.thread t).queueRoot ∧
      (k'.thread t).ipcCaller = (k.thread t).ipcCaller)
    (hqueue : k'.queue = k.queue) (hsleep : k'.sleepQueue = k.sleepQueue)
    (hcurrent : k'.currentThread = k.currentThread) (hcount : k'.threadCount = k.threadCount) :
    Placed k' place where
  state t := by rw [(hthread t).1, h.state]
  root t := by rw [(hthread t).2.1, h.root]
  queue q t := by rw [hqueue, h.queue]
  nodup q := by rw [hqueue]; exact h.nodup q
  current t := by rw [hcurrent, h.current]
  caller l t := by rw [(hthread l).2.2, h.caller]
  sleep t := by rw [hsleep, h.sleep]
  sleepNodup := by rw [hsleep]; exact h.sleepNodup
  absent t := by rw [hcount, h.absent]

lemma setCtx (h : Placed k place) (t : ThreadId) (ctx : Registers) :
    Placed (k.setCtx t ctx) place := by
  refine h.congr (fun m => ?_) rfl rfl rfl rfl
  by_cases hm : m = t
  · subst hm
    simp [Kernel.setCtx]
  · simp [Kernel.setCtx, hm]

lemma setR0 (h : Placed k place) (t : ThreadId) (value : ℕ) :
    Placed (k.setR0 t value) place := h.setCtx t _

lemma setIpc (h : Placed k place) (i : ℕ) (ipc : Option IpcImpl) :
    Placed (k.setIpc i ipc) place := h.congr (fun _ => ⟨rfl, rfl, rfl⟩) rfl rfl rfl rfl

lemma setIrq (h : Placed k place) (n : Fin 16) (irq : IrqHandle) :
    Placed (k.setIrq n irq) place := h.congr (fun _ => ⟨rfl, rfl, rfl⟩) rfl rfl rfl rfl

end Placed

end Fluke
