import Fluke.User.Schedule.Places

/-!
# Moving threads

What the functions of the scheduler do to a thread that is where they expect it, and that the
thread is at its new place afterwards.
-/

namespace Fluke

open Outcome

/-! ### What the moves leave -/

namespace Kernel

variable (k : Kernel) (t : ThreadId)

/-- The thread is ready. -/
def readied : Kernel :=
  (k.setQueue .run (k.queue .run ++ [t])).setThread t
    { k.thread t with state := .ready, queueRoot := some .run }

/-- The thread waits in the queue. -/
def pushed (q : QueueId) : Kernel :=
  (k.setQueue q (k.queue q ++ [t])).setThread t
    { k.thread t with state := .waiting, queueRoot := some q }

/-- The kernel has taken the thread from the queue. -/
def popped (q : QueueId) : Kernel :=
  (k.setQueue q ((k.queue q).erase t)).setThread t
    { k.thread t with state := .floating, queueRoot := none }

/-- The thread is taken from the queue and ready, with a value to return. -/
def woken (q : QueueId) (value : ℕ) : Kernel :=
  (((k.setQueue q ((k.queue q).erase t)).setQueue .run (k.queue .run ++ [t])).setThread t
    { k.thread t with
      ctx := { (k.thread t).ctx with r0 := value }
      state := .ready
      timeout := if t ∈ k.sleepQueue then 0 else (k.thread t).timeout
      queueRoot := some .run }).setSleepQueue (k.sleepQueue.erase t)

/-- The thread sleeps until the time. -/
def slept (timeout : ℕ) (state : ThreadState) : Kernel :=
  let k := k.setThread t { k.thread t with state := state, timeout := timeout }
  k.setSleepQueue (sleepInsert (fun t => (k.thread t).timeout) t k.sleepQueue)

/-- The registers of the thread are saved. -/
def saved : Kernel :=
  (k.setThread t { k.thread t with ctx := k.userContext, state := .floating }).setCurrentThread none

/-- The thread runs. -/
def restored : Kernel :=
  (k.setCurrentThread (some t)).setThread t { k.thread t with state := .running }

/-- The caller waits for the response of the listener. -/
def called (listener : ThreadId) : Kernel :=
  (k.setState t .calling).setIpcCaller listener (some t)

/-- The caller is in the hands of the kernel again. -/
def released (listener : ThreadId) : Kernel :=
  (k.setIpcCaller listener none).setState t .floating

lemma called_thread (l m : ThreadId) : (k.called t l).thread m =
    { k.thread m with
      state := if m = t then .calling else (k.thread m).state
      ipcCaller := if m = l then some t else (k.thread m).ipcCaller } := by
  unfold called setState setIpcCaller
  simp only [setThread_thread]
  split_ifs <;> simp_all

lemma released_thread (l m : ThreadId) : (k.released t l).thread m =
    { k.thread m with
      state := if m = t then .floating else (k.thread m).state
      ipcCaller := if m = l then none else (k.thread m).ipcCaller } := by
  unfold released setState setIpcCaller
  simp only [setThread_thread]
  split_ifs <;> simp_all

lemma sleepInsert_perm (timeout : ThreadId → ℕ) (t : ThreadId) (queue : List ThreadId) :
    (sleepInsert timeout t queue).Perm (t :: queue) := by
  induction queue with
  | nil => exact List.Perm.refl _
  | cons next queue ih =>
    unfold sleepInsert
    split_ifs
    · exact List.Perm.refl _
    · exact (ih.cons next).trans (List.Perm.swap t next queue)

end Kernel

/-! ### What the functions return -/

namespace Placed

variable {k : Kernel} {place : ThreadId → Place} {t : ThreadId} {q : QueueId}

lemma scheduleReady (h : Placed k place) (ht : place t = .floating) :
    k.scheduleReady t = .ok (k.readied t) := by
  have hstate : (k.thread t).state = .floating := by rw [h.state, ht, Place.state]
  have hroot : (k.thread t).queueRoot = none := by rw [h.root, ht]; rfl
  simp [Kernel.scheduleReady, Kernel.queuePush, Kernel.setState, Kernel.setQueueRoot, assert,
    hstate, hroot, Kernel.readied]

lemma pushInto (h : Placed k place) (ht : place t = .floating) (q : QueueId) :
    k.pushInto q t = .ok (k.pushed t q) := by
  have hstate : (k.thread t).state = .floating := by rw [h.state, ht, Place.state]
  have hroot : (k.thread t).queueRoot = none := by rw [h.root, ht]; rfl
  have hsleep : t ∉ k.sleepQueue := by simp [h.sleep, ht]
  simp [Kernel.pushInto, Kernel.queuePush, Kernel.setState, Kernel.setQueueRoot, assert,
    hstate, hroot, hsleep, Kernel.pushed]

lemma popFrom (h : Placed k place) {i c : ℕ} {threads : List ThreadId}
    (hq : k.queue (.channel i c) = t :: threads) :
    k.popFrom (.channel i c) = .ok (some t, k.popped t (.channel i c)) ∧
      place t = .queued (.channel i c) := by
  have ht : place t = .queued (.channel i c) := (h.queue _ t).mp (by simp [hq])
  have hstate : (k.thread t).state = .waiting := by rw [h.state, ht, Place.state]
  have hsleep : t ∉ k.sleepQueue := by simp [h.sleep, ht]
  refine ⟨?_, ht⟩
  simp [Kernel.popFrom, Kernel.queuePop, hq, Kernel.setQueueRoot, Kernel.setState, assert, hstate,
    Kernel.cancel, hsleep, Kernel.popped]

lemma popFrom_nil (hq : k.queue q = []) : k.popFrom q = .ok (none, k) := by
  simp [Kernel.popFrom, Kernel.queuePop, hq]

/-- The first thread of a queue other than the run queue is taken out and woken. -/
lemma wake (h : Placed k place) (hqr : q ≠ .run) {threads : List ThreadId}
    (hq : k.queue q = t :: threads) (value : ℕ) :
    (k.queuePop q).1 = some t ∧ (k.queuePop q).2.scheduleWake t value = .ok (k.woken t q value) ∧
      place t = .queued q := by
  have ht : place t = .queued q := (h.queue _ t).mp (by simp [hq])
  have hstate : (k.thread t).state = .waiting := by
    rw [h.state, ht]
    cases q with
    | run => exact absurd rfl hqr
    | _ => rfl
  refine ⟨by simp [Kernel.queuePop, hq], ?_, ht⟩
  by_cases hsleep : t ∈ k.sleepQueue
  · simp [Kernel.queuePop, hq, Kernel.setQueueRoot, Kernel.scheduleWake, Kernel.setState,
      Kernel.setR0, Kernel.setCtx, Kernel.cancel, Kernel.setTimeoutNs, Kernel.scheduleReady,
      Kernel.queuePush, assert, hstate, hsleep, Kernel.woken, Ne.symm hqr]
  · simp [Kernel.queuePop, hq, Kernel.setQueueRoot, Kernel.scheduleWake, Kernel.setState,
      Kernel.setR0, Kernel.setCtx, Kernel.cancel, Kernel.scheduleReady,
      Kernel.queuePush, assert, hstate, hsleep, Kernel.woken, Ne.symm hqr, List.erase_of_not_mem]
    rfl

lemma runQueuePop (h : Placed k place) {threads : List ThreadId}
    (hq : k.queue .run = t :: threads) :
    k.runQueuePop = .ok (some t, k.popped t .run) ∧ place t = .queued .run := by
  have ht : place t = .queued .run := (h.queue _ t).mp (by simp [hq])
  have hstate : (k.thread t).state = .ready := by rw [h.state, ht, Place.state]
  refine ⟨?_, ht⟩
  simp [Kernel.runQueuePop, Kernel.queuePop, hq, Kernel.setQueueRoot, Kernel.setState, assert,
    hstate, Kernel.popped]

lemma runQueuePop_nil (hq : k.queue .run = []) : k.runQueuePop = .ok (none, k) := by
  simp [Kernel.runQueuePop, Kernel.queuePop, hq]

lemma cpuContextSave (h : Placed k place) (ht : k.currentThread = some t) :
    k.cpuContextSave = .ok (t, k.saved t) ∧ place t = .running := by
  have hplace : place t = .running := (h.current t).mp ht
  have hstate : (k.thread t).state = .running := by rw [h.state, hplace, Place.state]
  refine ⟨?_, hplace⟩
  simp [Kernel.cpuContextSave, ht, Kernel.setCtx, Kernel.setState, assert, hstate, Kernel.saved]

lemma cpuContextRestoreAndExit (h : Placed k place) (ht : place t = .floating)
    (hnone : k.currentThread = none) :
    k.cpuContextRestoreAndExit t = .ok (k.restored t) := by
  have hstate : (k.thread t).state = .floating := by rw [h.state, ht, Place.state]
  simp [Kernel.cpuContextRestoreAndExit, assert, hnone, hstate, Kernel.setState, Kernel.restored]

lemma scheduleNanosleep (h : Placed k place) (ht : place t = .floating) {ns : ℤ} (hns : 0 < ns) :
    k.scheduleNanosleep t ns =
      .ok (k.nanoseconds.2.slept t (uaddIsize k.nanoseconds.1 ns) .sleeping) := by
  have hstate : (k.thread t).state = .floating := by rw [h.state, ht, Place.state]
  have hroot : (k.thread t).queueRoot = none := by rw [h.root, ht]; rfl
  have hsleep : t ∉ k.sleepQueue := by simp [h.sleep, ht]
  simp [Kernel.scheduleNanosleep, assert, hstate, hroot, Kernel.setState, hns, Kernel.setTimeout,
    hsleep, Kernel.nanoseconds, Kernel.setTimeoutNs, Kernel.slept, apply_ite Thread.timeout]

lemma scheduleQueueWithTimeout (h : Placed k place) (ht : place t = .floating) {ns : ℤ}
    (hns : 0 < ns) (n : Fin 16) (e : ErrorCode) :
    k.scheduleQueueWithTimeout t (.irq n) ns e =
      .ok (((k.setR0 t e.negated).pushed t (.irq n)).tick.slept t
        (uaddIsize (k.clock 0) ns) .waiting) := by
  have h' : Placed (k.setR0 t e.negated) place := h.setR0 t _
  have hsleep : t ∉ k.sleepQueue := by simp [h.sleep, ht]
  unfold Kernel.scheduleQueueWithTimeout assert
  rw [if_pos (decide_eq_true hns), ok_bind]
  dsimp only
  rw [h'.pushInto ht, ok_bind]
  simp [assert, Kernel.setTimeout, hsleep, Kernel.nanoseconds, Kernel.setR0, Kernel.setCtx,
    Kernel.pushed, Kernel.setTimeoutNs, Kernel.slept]

end Placed

/-! ### The places afterwards -/

namespace Placed

variable {k : Kernel} {place : ThreadId → Place} {t l : ThreadId} {q : QueueId}

lemma readied (h : Placed k place) (ht : place t = .floating) :
    Placed (k.readied t) (Function.update place t (.queued .run)) := by
  obtain ⟨hstate, hroot, hqueue, hnodup, hcurrent, hcaller, hsleep, hsleepNodup, habsent⟩ := h
  unfold Kernel.readied
  refine ⟨fun m => ?_, fun m => ?_, fun q m => ?_, fun q => ?_, fun m => ?_, fun l m => ?_,
    fun m => ?_, hsleepNodup, fun m => ?_⟩
  all_goals simp only [Function.update_apply]
  · grind [Place.state]
  · grind [Place.root]
  · grind
  · grind
  · grind
  · grind
  · grind [Place.Timed]
  · grind

lemma pushed (h : Placed k place) (ht : place t = .floating) {i c : ℕ} :
    Placed (k.pushed t (.channel i c)) (Function.update place t (.queued (.channel i c))) := by
  obtain ⟨hstate, hroot, hqueue, hnodup, hcurrent, hcaller, hsleep, hsleepNodup, habsent⟩ := h
  unfold Kernel.pushed
  refine ⟨fun m => ?_, fun m => ?_, fun q m => ?_, fun q => ?_, fun m => ?_, fun l m => ?_,
    fun m => ?_, hsleepNodup, fun m => ?_⟩
  all_goals simp only [Function.update_apply]
  · grind [Place.state]
  · grind [Place.root]
  · grind
  · grind
  · grind
  · grind
  · grind [Place.Timed]
  · grind

lemma popped (h : Placed k place) (ht : place t = .queued q) (hq : ∀ n, q ≠ .irq n) :
    Placed (k.popped t q) (Function.update place t .floating) := by
  have htimed : ¬ (place t).Timed := by
    rw [ht]
    cases q with
    | irq n => exact absurd rfl (hq n)
    | _ => simp
  obtain ⟨hstate, hroot, hqueue, hnodup, hcurrent, hcaller, hsleep, hsleepNodup, habsent⟩ := h
  unfold Kernel.popped
  refine ⟨fun m => ?_, fun m => ?_, fun q m => ?_, fun q => ?_, fun m => ?_, fun l m => ?_,
    fun m => ?_, hsleepNodup, fun m => ?_⟩
  all_goals simp only [Function.update_apply]
  · grind [Place.state]
  · grind [Place.root]
  · grind [List.Nodup.mem_erase_iff]
  · grind [List.Nodup.erase]
  · grind
  · grind
  · grind [Place.Timed]
  · grind

lemma woken (h : Placed k place) (ht : place t = .queued q) (hq : q ≠ .run) (value : ℕ) :
    Placed (k.woken t q value) (Function.update place t (.queued .run)) := by
  obtain ⟨hstate, hroot, hqueue, hnodup, hcurrent, hcaller, hsleep, hsleepNodup, habsent⟩ := h
  unfold Kernel.woken
  refine ⟨fun m => ?_, fun m => ?_, fun q m => ?_, fun q => ?_, fun m => ?_, fun l m => ?_,
    fun m => ?_, hsleepNodup.erase t, fun m => ?_⟩
  all_goals simp only [Function.update_apply]
  · grind [Place.state]
  · grind [Place.root]
  · grind [List.Nodup.mem_erase_iff]
  · grind [List.Nodup.erase]
  · grind
  · grind
  · grind [Place.Timed, List.Nodup.mem_erase_iff]
  · grind

lemma slept (h : Placed k place) (ht : place t = .floating) (timeout : ℕ) :
    Placed (k.slept t timeout .sleeping) (Function.update place t .sleeping) := by
  obtain ⟨hstate, hroot, hqueue, hnodup, hcurrent, hcaller, hsleep, hsleepNodup, habsent⟩ := h
  have hperm := fun timeout => Kernel.sleepInsert_perm timeout t k.sleepQueue
  unfold Kernel.slept
  refine ⟨fun m => ?_, fun m => ?_, fun q m => ?_, fun q => ?_, fun m => ?_, fun l m => ?_,
    fun m => ?_, ?_, fun m => ?_⟩
  all_goals simp only [Function.update_apply]
  · grind [Place.state]
  · grind [Place.root]
  · grind
  · grind
  · grind
  · grind
  · rw [Kernel.setSleepQueue_sleepQueue, Kernel.setThread_sleepQueue, (hperm _).mem_iff]
    grind [Place.Timed]
  · rw [Kernel.setSleepQueue_sleepQueue, Kernel.setThread_sleepQueue, (hperm _).nodup_iff]
    grind [Place.Timed]
  · grind

lemma pushedTimed (h : Placed k place) (ht : place t = .floating) {n : Fin 16} (timeout : ℕ) :
    Placed ((k.pushed t (.irq n)).slept t timeout .waiting)
      (Function.update place t (.queued (.irq n))) := by
  obtain ⟨hstate, hroot, hqueue, hnodup, hcurrent, hcaller, hsleep, hsleepNodup, habsent⟩ := h
  have hperm := fun timeout => Kernel.sleepInsert_perm timeout t k.sleepQueue
  unfold Kernel.slept Kernel.pushed
  refine ⟨fun m => ?_, fun m => ?_, fun q m => ?_, fun q => ?_, fun m => ?_, fun l m => ?_,
    fun m => ?_, ?_, fun m => ?_⟩
  all_goals simp only [Function.update_apply]
  · grind [Place.state]
  · grind [Place.root]
  · grind
  · grind
  · grind
  · grind
  · rw [Kernel.setSleepQueue_sleepQueue, Kernel.setThread_sleepQueue,
      Kernel.setThread_sleepQueue, Kernel.setQueue_sleepQueue, (hperm _).mem_iff]
    grind [Place.Timed]
  · rw [Kernel.setSleepQueue_sleepQueue, Kernel.setThread_sleepQueue,
      Kernel.setThread_sleepQueue, Kernel.setQueue_sleepQueue, (hperm _).nodup_iff]
    grind [Place.Timed]
  · grind

lemma saved (h : Placed k place) (ht : place t = .running) :
    Placed (k.saved t) (Function.update place t .floating) := by
  obtain ⟨hstate, hroot, hqueue, hnodup, hcurrent, hcaller, hsleep, hsleepNodup, habsent⟩ := h
  unfold Kernel.saved
  refine ⟨fun m => ?_, fun m => ?_, fun q m => ?_, fun q => ?_, fun m => ?_, fun l m => ?_,
    fun m => ?_, hsleepNodup, fun m => ?_⟩
  all_goals simp only [Function.update_apply]
  · grind [Place.state]
  · grind [Place.root]
  · grind
  · grind
  · grind
  · grind
  · grind [Place.Timed]
  · grind

lemma restored (h : Placed k place) (ht : place t = .floating) (hnone : k.currentThread = none) :
    Placed (k.restored t) (Function.update place t .running) := by
  obtain ⟨hstate, hroot, hqueue, hnodup, hcurrent, hcaller, hsleep, hsleepNodup, habsent⟩ := h
  unfold Kernel.restored
  refine ⟨fun m => ?_, fun m => ?_, fun q m => ?_, fun q => ?_, fun m => ?_, fun l m => ?_,
    fun m => ?_, hsleepNodup, fun m => ?_⟩
  all_goals simp only [Function.update_apply]
  · grind [Place.state]
  · grind [Place.root]
  · grind
  · grind
  · grind
  · grind
  · grind [Place.Timed]
  · grind

lemma called (h : Placed k place) (ht : place t = .floating)
    (hl : (k.thread l).ipcCaller = none) :
    Placed (k.called t l) (Function.update place t (.calling l)) := by
  obtain ⟨hstate, hroot, hqueue, hnodup, hcurrent, hcaller, hsleep, hsleepNodup, habsent⟩ := h
  refine ⟨fun m => ?_, fun m => ?_, fun q m => ?_, hnodup, fun m => ?_, fun l m => ?_,
    fun m => ?_, hsleepNodup, fun m => ?_⟩
  all_goals simp only [Function.update_apply, Kernel.called_thread]
  · grind [Place.state]
  · grind [Place.root]
  · change m ∈ k.queue q ↔ _
    grind
  · change k.currentThread = _ ↔ _
    grind
  · grind
  · change m ∈ k.sleepQueue ↔ _
    grind [Place.Timed]
  · change _ ↔ k.threadCount ≤ m
    grind

lemma released (h : Placed k place) (ht : place t = .calling l) :
    Placed (k.released t l) (Function.update place t .floating) := by
  obtain ⟨hstate, hroot, hqueue, hnodup, hcurrent, hcaller, hsleep, hsleepNodup, habsent⟩ := h
  have hl : (k.thread l).ipcCaller = some t := (hcaller l t).mpr ht
  refine ⟨fun m => ?_, fun m => ?_, fun q m => ?_, hnodup, fun m => ?_, fun l m => ?_,
    fun m => ?_, hsleepNodup, fun m => ?_⟩
  all_goals simp only [Function.update_apply, Kernel.released_thread]
  · grind [Place.state]
  · grind [Place.root]
  · change m ∈ k.queue q ↔ _
    grind
  · change k.currentThread = _ ↔ _
    grind
  · grind
  · change m ∈ k.sleepQueue ↔ _
    grind [Place.Timed]
  · change _ ↔ k.threadCount ≤ m
    grind

end Placed

end Fluke
