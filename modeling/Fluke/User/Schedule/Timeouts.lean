import Fluke.User.Schedule.Passing
import Fluke.User.Schedule.Refinement

/-!
# Timeouts over a run

Whatever the scheduler is called for, the links make up its lists, and the list of sleepers is in
the order of the deadlines; threads with the same deadline are in the order in which they went to
sleep.
-/

namespace Fluke

open Outcome

/-- A call of the functions that move threads, with the queues that they are called for -/
inductive SchedulerCall where
  | scheduleReady (t : ThreadId)
  | runQueuePop
  | pushInto (i c : ℕ) (t : ThreadId)
  | popFrom (i c : ℕ)
  | nanosleep (t : ThreadId) (waitNs : ℤ)
  | queueWithTimeout (t : ThreadId) (n : Fin 16) (waitNs : ℤ) (timeoutReturnValue : ErrorCode)
  /-- `queue_pop`, and `schedule_wake` of the thread -/
  | wakeFirst (n : Fin 16) (returnValue : ℕ)
  | wakeAll (q : QueueId) (returnValue : ℕ)
  | wakeupSleepers

/-- One call, and the thread it returns -/
def Kernel.schedulerStep : SchedulerCall → Kernel → Except Panic (Option ThreadId × Kernel)
  | .scheduleReady t, k => do
    let k ← k.scheduleReady t
    .ok (none, k)
  | .runQueuePop, k => k.runQueuePop
  | .pushInto i c t, k => do
    let k ← k.pushInto (.channel i c) t
    .ok (none, k)
  | .popFrom i c, k => k.popFrom (.channel i c)
  | .nanosleep t waitNs, k => do
    let k ← k.scheduleNanosleep t waitNs
    .ok (none, k)
  | .queueWithTimeout t n waitNs e, k => do
    let k ← k.scheduleQueueWithTimeout t (.irq n) waitNs e
    .ok (none, k)
  | .wakeFirst n value, k =>
    match k.queuePop (.irq n) with
    | (none, k) => .ok (none, k)
    | (some t, k) => do
      let k ← k.scheduleWake t value
      .ok (some t, k)
  | .wakeAll q value, k => do
    let k ← k.scheduleWakeAll q value
    .ok (none, k)
  | .wakeupSleepers, k => do
    let k ← k.wakeupSleepers
    .ok (none, k)

/-- The same call on the links -/
def Links.schedulerStep (fuel : ℕ) : SchedulerCall → Links → Except Panic (Option ThreadId × Links)
  | .scheduleReady t, s => do
    let s ← s.scheduleReady t
    .ok (none, s)
  | .runQueuePop, s => s.runQueuePop
  | .pushInto i c t, s => do
    let s ← s.pushInto (.channel i c) t
    .ok (none, s)
  | .popFrom i c, s => s.popFrom (.channel i c)
  | .nanosleep t waitNs, s => do
    let s ← s.scheduleNanosleep fuel t waitNs
    .ok (none, s)
  | .queueWithTimeout t n waitNs e, s => do
    let s ← s.scheduleQueueWithTimeout fuel t (.irq n) waitNs e
    .ok (none, s)
  | .wakeFirst n value, s => do
    match ← s.pop (.irq n) with
    | (none, s) => .ok (none, s)
    | (some t, s) => do
      let s ← s.scheduleWake t value
      .ok (some t, s)
  | .wakeAll q value, s => do
    let s ← s.scheduleWakeAll q value fuel
    .ok (none, s)
  | .wakeupSleepers, s => do
    let s ← s.wakeupSleepers fuel
    .ok (none, s)

/-- The thread exists, and no one has it but the kernel. -/
def Kernel.Holds (k : Kernel) (t : ThreadId) : Prop :=
  t < k.threadCount ∧ (k.thread t).state = .floating

/-- A call that takes a thread is made for one that the kernel holds, and one that wakes a whole
queue is not made for the run queue. -/
def SchedulerCall.Admitted : SchedulerCall → Kernel → Prop
  | .scheduleReady t, k => k.Holds t
  | .pushInto _ _ t, k => k.Holds t
  | .nanosleep t waitNs, k => k.Holds t ∧ 0 < waitNs
  | .queueWithTimeout t _ waitNs _, k => k.Holds t ∧ 0 < waitNs
  | .wakeAll q _, _ => q ≠ .run
  | _, _ => True

/-- The threads that sleep, in the order in which they went to sleep: `asleep` were before. -/
def arrived (asleep sleepQueue : List ThreadId) : List ThreadId :=
  asleep.filter (· ∈ sleepQueue) ++ sleepQueue.filter (· ∉ asleep)

/-- The list of sleepers is in the order of the deadlines. -/
structure Asleep (asleep : List ThreadId) (k : Kernel) : Prop where
  nodup : asleep.Nodup
  due : k.sleepQueue = Deadlines.due (fun t => (k.thread t).timeout) asleep

section

variable {k k' : Kernel} {asleep : List ThreadId} {t : ThreadId}

lemma Asleep.mem_iff (h : Asleep asleep k) : t ∈ k.sleepQueue ↔ t ∈ asleep := by
  rw [h.due, Deadlines.mem_due]

/-- Threads may have left the list, and nothing else has happened to it. -/
structure Left (k k' : Kernel) : Prop where
  sleepQueue : k'.sleepQueue.Sublist k.sleepQueue
  timeout : ∀ t ∈ k'.sleepQueue, (k'.thread t).timeout = (k.thread t).timeout

lemma Left.trans {k'' : Kernel} (h : Left k k') (h' : Left k' k'') : Left k k'' where
  sleepQueue := h'.sleepQueue.trans h.sleepQueue
  timeout t ht := (h'.timeout t ht).trans (h.timeout t (h'.sleepQueue.subset ht))

/-- What a list without duplicates has lost is not in what is left. -/
lemma filter_mem_sublist {l l' : List ThreadId} (h : l'.Sublist l) (hnodup : l.Nodup) :
    l.filter (· ∈ l') = l' := by
  induction h with
  | slnil => rfl
  | @cons l' l a h ih =>
    obtain ⟨ha, hnodup⟩ := List.nodup_cons.mp hnodup
    have ha' : a ∉ l' := fun hmem => ha (h.subset hmem)
    simp [ha', ih hnodup]
  | @cons_cons l' l a h ih =>
    obtain ⟨ha, hnodup⟩ := List.nodup_cons.mp hnodup
    rw [List.filter_cons, if_pos (by simp)]
    congr 1
    rw [← ih hnodup]
    refine List.filter_congr fun b hb => ?_
    have hba : b ≠ a := fun heq => ha (heq ▸ hb)
    simp [hba, hb]

lemma Asleep.leave (h : Asleep asleep k) (hleft : Left k k') :
    Asleep (arrived asleep k'.sleepQueue) k' := by
  have hsub : ∀ t ∈ k'.sleepQueue, t ∈ asleep := fun t ht =>
    h.mem_iff.mp (hleft.sleepQueue.subset ht)
  have harrived : arrived asleep k'.sleepQueue = asleep.filter (· ∈ k'.sleepQueue) := by
    have hnone : k'.sleepQueue.filter (· ∉ asleep) = [] := by
      rw [List.filter_eq_nil_iff]
      intro t ht
      simpa using hsub t ht
    rw [arrived, hnone, List.append_nil]
  have hnodup : k.sleepQueue.Nodup := h.due ▸ Deadlines.due_perm.nodup_iff.mpr h.nodup
  rw [harrived]
  refine ⟨h.nodup.filter _, ?_⟩
  conv_lhs => rw [← filter_mem_sublist hleft.sleepQueue hnodup, h.due]
  rw [← Deadlines.due_filter]
  refine Deadlines.due_congr fun t ht => (hleft.timeout t ?_).symm
  simpa using (List.mem_filter.mp ht).2

/-- A thread has gone to sleep. -/
lemma Asleep.enter (h : Asleep asleep k) (ht : t ∉ k.sleepQueue)
    (hqueue : k'.sleepQueue =
      Kernel.sleepInsert (fun t => (k'.thread t).timeout) t k.sleepQueue)
    (htimeout : ∀ m, m ≠ t → (k'.thread m).timeout = (k.thread m).timeout) :
    Asleep (arrived asleep k'.sleepQueue) k' := by
  have ht' : t ∉ asleep := fun hmem => ht (h.mem_iff.mpr hmem)
  have hdue : k.sleepQueue = Deadlines.due (fun t => (k'.thread t).timeout) asleep := by
    rw [h.due]
    refine Deadlines.due_congr fun m hm => (htimeout m ?_).symm
    rintro rfl
    exact ht' hm
  have hconcat : k'.sleepQueue =
      Deadlines.due (fun t => (k'.thread t).timeout) (asleep ++ [t]) := by
    rw [hqueue, Kernel.sleepInsert_eq, Deadlines.due_concat, ← hdue]
  have harrived : arrived asleep k'.sleepQueue = asleep ++ [t] := by
    have hold : asleep.filter (· ∈ k'.sleepQueue) = asleep := by
      rw [List.filter_eq_self]
      intro m hm
      simp [hconcat, hm]
    have hnew : k'.sleepQueue.filter (· ∉ asleep) = [t] := by
      rw [hconcat, ← Deadlines.due_filter, List.filter_append]
      have hnone : asleep.filter (fun m => decide (m ∉ asleep)) = [] := by
        rw [List.filter_eq_nil_iff]
        intro m hm
        simpa using hm
      rw [hnone]
      simp [ht', Deadlines.due]
    rw [arrived, hold, hnew]
  rw [harrived]
  exact ⟨List.nodup_append.mpr ⟨h.nodup, List.nodup_singleton t, by
    rintro a ha b hb rfl
    rw [List.mem_singleton] at hb
    exact ht' (hb ▸ ha)⟩, hconcat⟩

/-! ### What a call does to the list -/

lemma Left.of_eq (hqueue : k'.sleepQueue = k.sleepQueue)
    (htimeout : ∀ t, (k'.thread t).timeout = (k.thread t).timeout) : Left k k' where
  sleepQueue := by rw [hqueue]
  timeout t _ := htimeout t

lemma readied_left (k : Kernel) (t : ThreadId) : Left k (k.readied t) := by
  refine .of_eq rfl fun m => ?_
  by_cases hm : m = t <;> simp [Kernel.readied, hm]

lemma pushed_left (k : Kernel) (t : ThreadId) (q : QueueId) : Left k (k.pushed t q) := by
  refine .of_eq rfl fun m => ?_
  by_cases hm : m = t <;> simp [Kernel.pushed, hm]

lemma popped_left (k : Kernel) (t : ThreadId) (q : QueueId) : Left k (k.popped t q) := by
  refine .of_eq rfl fun m => ?_
  by_cases hm : m = t <;> simp [Kernel.popped, hm]

lemma woken_left (hnodup : k.sleepQueue.Nodup) (t : ThreadId) (q : QueueId) (value : ℕ) :
    Left k (k.woken t q value) where
  sleepQueue := List.erase_sublist
  timeout m hm := by
    have hmt : m ≠ t := (hnodup.mem_erase_iff.mp hm).1
    simp [Kernel.woken, hmt]

lemma WokeUp.left {now : ℕ} {woken : List ThreadId} (h : WokeUp now woken k k')
    (hnodup : k.sleepQueue.Nodup) : Left k k' where
  sleepQueue := h.sleepQueue ▸ List.sublist_append_right _ _
  timeout t ht := by
    have hnot : t ∉ woken := fun hmem => by
      rw [h.sleepQueue] at hnodup
      exact (List.nodup_append.mp hnodup).2.2 t hmem t ht rfl
    rw [h.others t hnot]

namespace Placed

variable {place : ThreadId → Place} {q : QueueId} {value : ℕ}

lemma wakeAll_left (hq : q ≠ .run) {threads : List ThreadId} :
    ∀ {k : Kernel} {place : ThreadId → Place}, Placed k place → k.queue q = threads →
      ∃ k' place', Kernel.wakeAll q value threads k = .ok k' ∧ Placed k' place' ∧ Left k k' := by
  induction threads with
  | nil =>
    intro k place h _
    exact ⟨k, place, rfl, h, .of_eq rfl fun _ => rfl⟩
  | cons t threads ih =>
    intro k place h hthreads
    obtain ⟨hpop, hwake, hplace⟩ := h.wake hq hthreads value
    have hqueue : (k.woken t q value).queue q = threads := by
      simp [Kernel.woken, hq, hthreads]
    obtain ⟨k', place', heq, h', hleft⟩ := ih (h.woken hplace hq value) hqueue
    refine ⟨k', place', ?_, h', (woken_left h.sleepNodup t q value).trans hleft⟩
    rw [Kernel.wakeAll]
    cases hp : k.queuePop q with
    | mk r k₁ =>
      rw [hp] at hpop hwake
      obtain rfl : r = some t := hpop
      dsimp only at hwake ⊢
      rw [hwake, ok_bind, heq]

lemma floating (h : Placed k place) (ht : k.Holds t) : place t = .floating := by
  obtain ⟨hlt, hstate⟩ := ht
  rw [h.state] at hstate
  cases hplace : place t with
  | floating => rfl
  | absent => exact absurd ((h.absent t).mp hplace) (Nat.not_le.mpr hlt)
  | queued q =>
    rw [hplace] at hstate
    cases q <;> simp [Place.state] at hstate
  | _ =>
    rw [hplace] at hstate
    simp [Place.state] at hstate

/-- No call that is admitted fails, and the sleepers stay in order. -/
lemma schedulerStep (h : Placed k place) (hasleep : Asleep asleep k) {call : SchedulerCall}
    (hcall : call.Admitted k) : ∃ r k' place', k.schedulerStep call = .ok (r, k') ∧
      Placed k' place' ∧ Asleep (arrived asleep k'.sleepQueue) k' := by
  cases call with
  | scheduleReady t =>
    have ht := h.floating hcall
    refine ⟨none, _, _, ?_, h.readied ht, hasleep.leave (readied_left k t)⟩
    rw [Kernel.schedulerStep, h.scheduleReady ht, ok_bind]
  | runQueuePop =>
    cases hq : k.queue .run with
    | nil =>
      exact ⟨none, k, place, runQueuePop_nil hq, h, hasleep.leave (.of_eq rfl fun _ => rfl)⟩
    | cons t threads =>
      obtain ⟨heq, hplace⟩ := h.runQueuePop hq
      exact ⟨some t, _, _, heq, h.popped hplace (by simp), hasleep.leave (popped_left k t _)⟩
  | pushInto i c t =>
    have ht := h.floating hcall
    refine ⟨none, _, _, ?_, h.pushed (i := i) (c := c) ht, hasleep.leave (pushed_left k t _)⟩
    rw [Kernel.schedulerStep, h.pushInto ht, ok_bind]
  | popFrom i c =>
    cases hq : k.queue (.channel i c) with
    | nil => exact ⟨none, k, place, popFrom_nil hq, h, hasleep.leave (.of_eq rfl fun _ => rfl)⟩
    | cons t threads =>
      obtain ⟨heq, hplace⟩ := h.popFrom hq
      exact ⟨some t, _, _, heq, h.popped hplace (by simp), hasleep.leave (popped_left k t _)⟩
  | nanosleep t waitNs =>
    obtain ⟨hholds, hns⟩ := hcall
    have ht := h.floating hholds
    have hnot : t ∉ k.sleepQueue := by simp [h.sleep, ht]
    have htick : Placed k.tick place := h.congr (fun _ => ⟨rfl, rfl, rfl⟩) rfl rfl rfl rfl
    refine ⟨none, _, _, ?_, htick.slept ht (uaddIsize (k.clock 0) waitNs),
      hasleep.enter hnot ?_ fun m hm => ?_⟩
    · rw [Kernel.schedulerStep, h.scheduleNanosleep ht hns, ok_bind]
      rfl
    · rfl
    · simp [Kernel.slept, hm]
  | queueWithTimeout t n waitNs e =>
    obtain ⟨hholds, hns⟩ := hcall
    have ht := h.floating hholds
    have hnot : t ∉ k.sleepQueue := by simp [h.sleep, ht]
    have htick : Placed (k.setR0 t e.negated).tick place :=
      (h.setR0 t e.negated).congr (fun _ => ⟨rfl, rfl, rfl⟩) rfl rfl rfl rfl
    refine ⟨none, _, _, ?_, htick.pushedTimed (n := n) ht (uaddIsize (k.clock 0) waitNs),
      hasleep.enter hnot ?_ fun m hm => ?_⟩
    · rw [Kernel.schedulerStep, h.scheduleQueueWithTimeout ht hns, ok_bind]
      rfl
    · rfl
    · simp [Kernel.slept, Kernel.pushed, Kernel.setR0, Kernel.setCtx, hm]
  | wakeFirst n value =>
    cases hq : k.queue (.irq n) with
    | nil =>
      refine ⟨none, k, place, ?_, h, hasleep.leave (.of_eq rfl fun _ => rfl)⟩
      rw [Kernel.schedulerStep, Kernel.queuePop, hq]
    | cons t threads =>
      obtain ⟨hpop, hwake, hplace⟩ := h.wake (by simp) hq value
      refine ⟨some t, _, _, ?_, h.woken hplace (by simp) value,
        hasleep.leave (woken_left h.sleepNodup t _ value)⟩
      rw [Kernel.schedulerStep]
      cases hp : k.queuePop (.irq n) with
      | mk r k₁ =>
        rw [hp] at hpop hwake
        obtain rfl : r = some t := hpop
        dsimp only at hwake ⊢
        rw [hwake, ok_bind]
  | wakeAll q value =>
    obtain ⟨k', place', heq, h', hleft⟩ := wakeAll_left hcall h rfl
    refine ⟨none, k', place', ?_, h', hasleep.leave hleft⟩
    rw [Kernel.schedulerStep, Kernel.scheduleWakeAll, heq, ok_bind]
  | wakeupSleepers =>
    obtain ⟨woken, k', heq, hwoke, h'⟩ := h.wakeupSleepers
    have hleft : Left k.tick k' := hwoke.left h.sleepNodup
    refine ⟨none, k', _, ?_, h', hasleep.leave ⟨hleft.sleepQueue, hleft.timeout⟩⟩
    rw [Kernel.schedulerStep, heq, ok_bind]

end Placed

/-- Those whose time has come are woken in the order in which they are due. -/
lemma Asleep.wokeUp (h : Asleep asleep k) {now : ℕ} {woken : List ThreadId}
    (hwoke : WokeUp now woken k k') :
    woken = Deadlines.due (fun t => (k.thread t).timeout)
      (asleep.filter fun t => (k.thread t).timeout < now) := by
  have horder : Deadlines.InOrder (fun t => (k.thread t).timeout) (woken ++ k'.sleepQueue) := by
    rw [← hwoke.sleepQueue, h.due]
    exact Deadlines.due_inOrder
  rw [Deadlines.due_filter, ← h.due, hwoke.sleepQueue]
  exact (horder.filter_eq hwoke.expired hwoke.first).1.symm

/-! ### Runs -/

/-- Calls in order, and the threads they return -/
def Kernel.schedulerRun :
    List SchedulerCall → Kernel → Except Panic (List (Option ThreadId) × Kernel)
  | [], k => .ok ([], k)
  | call :: calls, k => do
    let (r, k) ← k.schedulerStep call
    let (rs, k) ← k.schedulerRun calls
    .ok (r :: rs, k)

/-- The same calls on the links -/
def Links.schedulerRun (fuel : ℕ) :
    List SchedulerCall → Links → Except Panic (List (Option ThreadId) × Links)
  | [], s => .ok ([], s)
  | call :: calls, s => do
    let (r, s) ← s.schedulerStep fuel call
    let (rs, s) ← s.schedulerRun fuel calls
    .ok (r :: rs, s)

/-- Every call of the run is admitted where it is made. -/
def AdmittedCalls : List SchedulerCall → Kernel → Prop
  | [], _ => True
  | call :: calls, k => call.Admitted k ∧
    ∀ r k', k.schedulerStep call = .ok (r, k') → AdmittedCalls calls k'

/-- Who sleeps after the run, in the order in which they went to sleep -/
def Kernel.arrivals : List SchedulerCall → Kernel → List ThreadId → List ThreadId
  | [], _, asleep => asleep
  | call :: calls, k, asleep =>
    match k.schedulerStep call with
    | .ok (_, k') => k'.arrivals calls (arrived asleep k'.sleepQueue)
    | .error _ => asleep

/-- Some bound on the lists is enough for a call. -/
lemma Laid.schedulerStep {s : Links} (h : Laid s k) {call : SchedulerCall}
    (hcall : call.Admitted k) {fuel : ℕ} (hsleep : k.sleepQueue.length < fuel)
    (hqueue : ∀ q value, call = .wakeAll q value → (k.queue q).length < fuel) :
    Agree Returns (s.schedulerStep fuel call) (k.schedulerStep call) := by
  have hnone : ∀ {x : Except Panic Links} {y : Except Panic Kernel}, Agree Laid x y →
      Agree Returns (x >>= fun s => .ok ((none : Option ThreadId), s))
        (y >>= fun k => .ok (none, k)) := fun hxy =>
    hxy.bind fun s k h _ => ⟨rfl, h⟩
  cases call with
  | scheduleReady t => exact hnone (h.scheduleReady t)
  | runQueuePop => exact h.runQueuePop
  | pushInto i c t => exact hnone (h.pushInto _ t)
  | popFrom i c => exact h.popFrom _
  | nanosleep t waitNs => exact hnone (h.scheduleNanosleep hsleep t waitNs)
  | queueWithTimeout t n waitNs e => exact hnone (h.scheduleQueueWithTimeout hsleep t _ waitNs e)
  | wakeFirst n value =>
    obtain ⟨⟨r, s'⟩, heq, hr, h'⟩ := (h.pop (.irq n)).exists_ok
    unfold Links.schedulerStep Kernel.schedulerStep
    dsimp only
    rw [heq, ok_bind]
    generalize k.queuePop (.irq n) = p at hr h'
    obtain ⟨r', k'⟩ := p
    obtain rfl : r = r' := hr
    cases r with
    | none => exact ⟨rfl, h'⟩
    | some t => exact (h'.scheduleWake t value).bind fun s k h _ => ⟨rfl, h⟩
  | wakeAll q value =>
    exact hnone (Laid.scheduleWakeAll hcall value h rfl (hqueue q value rfl))
  | wakeupSleepers => exact hnone (h.wakeupSleepers hsleep)

/-- What the lists are after a run, and what the next `wakeup_sleepers` does with them -/
structure Scheduled (asleep : List ThreadId) (k : Kernel) : Prop where
  placed : ∃ place, Placed k place
  order : Asleep asleep k
  wakesUp : ∃ k', k.wakeupSleepers = .ok k' ∧ WokeUp (k.clock 0)
    (Deadlines.due (fun t => (k.thread t).timeout)
      (asleep.filter fun t => (k.thread t).timeout < k.clock 0)) k.tick k'

lemma Placed.schedulerRun {place : ThreadId → Place} {calls : List SchedulerCall}
    (h : Placed k place) (hasleep : Asleep asleep k) (hcalls : AdmittedCalls calls k) :
    ∃ rs k', k.schedulerRun calls = .ok (rs, k') ∧ Scheduled (k.arrivals calls asleep) k' := by
  induction calls generalizing k place asleep with
  | nil =>
    obtain ⟨woken, k', heq, hwoke, -⟩ := h.wakeupSleepers
    have hwoken := Asleep.wokeUp (k := k.tick) ⟨hasleep.nodup, hasleep.due⟩ hwoke
    exact ⟨[], k, rfl, ⟨place, h⟩, hasleep, k', heq, hwoken ▸ hwoke⟩
  | cons call calls ih =>
    obtain ⟨r, k₁, place₁, hstep, h₁, hasleep₁⟩ := h.schedulerStep hasleep hcalls.1
    obtain ⟨rs, k', hrun, hscheduled⟩ := ih h₁ hasleep₁ (hcalls.2 r k₁ hstep)
    refine ⟨r :: rs, k', ?_, ?_⟩
    · rw [Kernel.schedulerRun, hstep, ok_bind]
      dsimp only
      rw [hrun, ok_bind]
    · rw [Kernel.arrivals, hstep]
      exact hscheduled

lemma Laid.schedulerRun {calls : List SchedulerCall} {rs : List (Option ThreadId)}
    (hcalls : AdmittedCalls calls k) (hrun : k.schedulerRun calls = .ok (rs, k')) :
    ∃ bound, ∀ fuel ≥ bound, ∀ s, Laid s k →
      ∃ s', s.schedulerRun fuel calls = .ok (rs, s') ∧ Laid s' k' := by
  induction calls generalizing k rs with
  | nil =>
    cases hrun
    exact ⟨0, fun _ _ s h => ⟨s, rfl, h⟩⟩
  | cons call calls ih =>
    rw [Kernel.schedulerRun] at hrun
    obtain ⟨⟨r, k₁⟩, hstep, hrun⟩ := bind_eq_ok.mp hrun
    obtain ⟨⟨rs', k₂⟩, hrest, hrun⟩ := bind_eq_ok.mp hrun
    cases hrun
    obtain ⟨bound, hbound⟩ := ih (hcalls.2 r k₁ hstep) hrest
    -- the longest list of the first call
    obtain ⟨first, hfirst⟩ : ∃ first, k.sleepQueue.length < first ∧
        ∀ q value, call = .wakeAll q value → (k.queue q).length < first := by
      cases call with
      | wakeAll q value =>
        refine ⟨max k.sleepQueue.length (k.queue q).length + 1, by omega, ?_⟩
        rintro q' value' heq
        cases heq
        omega
      | _ => exact ⟨k.sleepQueue.length + 1, Nat.lt_succ_self _, fun _ _ heq => by cases heq⟩
    refine ⟨max bound first, fun fuel hfuel s h => ?_⟩
    have hagree : Agree Returns (s.schedulerStep fuel call) (k.schedulerStep call) :=
      h.schedulerStep hcalls.1 (by omega)
        fun q value heq => (hfirst.2 q value heq).trans_le (by omega)
    rw [hstep] at hagree
    obtain ⟨⟨r', s₁⟩, heq, hr, h₁⟩ := hagree.exists_ok
    obtain rfl : r' = r := hr
    obtain ⟨s', heq', h'⟩ := hbound fuel (by omega) s₁ h₁
    refine ⟨s', ?_, h'⟩
    rw [Links.schedulerRun, heq, ok_bind]
    dsimp only
    rw [heq', ok_bind]

/-- In every run the links make up the lists of the scheduler, no assertion fails, the sleepers are
in the order of the deadlines and in the order in which they went to sleep, and those whose time
has come are woken in this order. -/
theorem Laid.sleepers_inOrder {s : Links} {place : ThreadId → Place} {calls : List SchedulerCall}
    (h : Laid s k) (hplaced : Placed k place) (hasleep : Asleep asleep k)
    (hcalls : AdmittedCalls calls k) :
    ∃ rs k', k.schedulerRun calls = .ok (rs, k') ∧ Scheduled (k.arrivals calls asleep) k' ∧
      ∃ bound, ∀ fuel ≥ bound, ∃ s', s.schedulerRun fuel calls = .ok (rs, s') ∧ Laid s' k' := by
  obtain ⟨rs, k', hrun, hscheduled⟩ := hplaced.schedulerRun hasleep hcalls
  obtain ⟨bound, hbound⟩ := Laid.schedulerRun hcalls hrun
  exact ⟨rs, k', hrun, hscheduled, bound, fun fuel hfuel => hbound fuel hfuel s h⟩

end

/-- Threads that the kernel holds, and empty lists -/
def Kernel.unscheduled (threadCount : ℕ) (clock : ℕ → ℕ) : Kernel where
  thread _ := ⟨⟨0, 0, 0, 0, 0, 0, 0, 0, 0⟩, .floating, 0, none, none⟩
  threadCount := threadCount
  queue _ := []
  sleepQueue := []
  currentThread := none
  userContext := ⟨0, 0, 0, 0, 0, 0, 0, 0, 0⟩
  irqs _ := ⟨false, false, false⟩
  ipcs _ := none
  ipcCount := 0
  freed := []
  clock := clock
  copies _ := 0

/-- The links of these threads -/
def Links.unscheduled (clock : ℕ → ℕ) : Links where
  ctx _ := ⟨0, 0, 0, 0, 0, 0, 0, 0, 0⟩
  state _ := .floating
  timeout _ := .zero
  queues := .zero
  sleepQueue := none
  clock := clock

lemma unscheduled_laid (threadCount : ℕ) (clock : ℕ → ℕ) :
    Laid (.unscheduled clock) (.unscheduled threadCount clock) where
  ctx _ := rfl
  state _ := rfl
  ns _ := rfl
  root t q := by simp [Kernel.unscheduled]
  queues := represents_zero
  sleepers := ⟨List.nodup_nil, rfl, .nil, fun _ _ => rfl⟩
  clock := rfl

lemma unscheduled_placed (threadCount : ℕ) (clock : ℕ → ℕ) :
    Placed (.unscheduled threadCount clock)
      fun t => if t < threadCount then .floating else .absent where
  state t := by split_ifs <;> rfl
  root t := by split_ifs <;> rfl
  queue q t := by
    simp only [Kernel.unscheduled]
    split_ifs <;> simp
  nodup _ := List.nodup_nil
  current t := by
    simp only [Kernel.unscheduled]
    split_ifs <;> simp
  caller l t := by
    simp only [Kernel.unscheduled]
    split_ifs <;> simp
  sleep t := by
    simp only [Kernel.unscheduled]
    split_ifs <;> simp
  sleepNodup := List.nodup_nil
  absent t := by
    simp only [Kernel.unscheduled]
    split_ifs with ht
    · simp [ht]
    · simpa using ht

/-- The second of three threads is due first, and the others at the same time. -/
theorem Laid.sleepers_inOrder_three : ∃ bound, ∀ fuel ≥ bound, ∃ s',
    (Links.unscheduled fun i => if i = 3 then 10 else i).schedulerRun fuel
      [.nanosleep 0 5, .nanosleep 1 3, .nanosleep 2 3, .wakeupSleepers, .runQueuePop, .runQueuePop,
        .runQueuePop] =
      .ok ([none, none, none, none, some 1, some 0, some 2], s') := by
  have hcalls : AdmittedCalls [.nanosleep 0 5, .nanosleep 1 3, .nanosleep 2 3, .wakeupSleepers,
      .runQueuePop, .runQueuePop, .runQueuePop]
        (.unscheduled 3 fun i => if i = 3 then 10 else i) := by
    refine ⟨⟨⟨by decide, rfl⟩, by decide⟩, fun _ _ h₁ => ?_⟩
    cases h₁
    refine ⟨⟨⟨by decide, rfl⟩, by decide⟩, fun _ _ h₂ => ?_⟩
    cases h₂
    refine ⟨⟨⟨by decide, rfl⟩, by decide⟩, fun _ _ h₃ => ?_⟩
    cases h₃
    exact ⟨trivial, fun _ _ _ => ⟨trivial, fun _ _ _ => ⟨trivial, fun _ _ _ =>
      ⟨trivial, fun _ _ _ => trivial⟩⟩⟩⟩
  have hasleep : Asleep [] (.unscheduled 3 fun i => if i = 3 then 10 else i) :=
    ⟨List.nodup_nil, rfl⟩
  obtain ⟨rs, k', hrun, -, bound, hbound⟩ := Laid.sleepers_inOrder
    (unscheduled_laid 3 _) (unscheduled_placed 3 _) hasleep hcalls
  refine ⟨bound, fun fuel hfuel => ?_⟩
  obtain ⟨s', heq, -⟩ := hbound fuel hfuel
  have hrs : rs = [none, none, none, none, some 1, some 0, some 2] := by
    have hmap := congrArg (Except.map Prod.fst) hrun
    exact (Except.ok.inj hmap).symm
  exact ⟨s', hrs ▸ heq⟩

end Fluke
