import Fluke.User.Schedule.Moves

/-!
# Passing the processor on

`schedule` wakes the threads whose time has come and resumes the first thread that is ready. The
threads that wait in channels or for a response, and the registers of all threads that do not run,
stay as they are.
-/

namespace Fluke

open Outcome

/-- The objects of the kernel are the same. -/
structure ObjectsKept (k k' : Kernel) : Prop where
  threadCount : k'.threadCount = k.threadCount
  irqs : k'.irqs = k.irqs
  ipcs : k'.ipcs = k.ipcs
  ipcCount : k'.ipcCount = k.ipcCount
  freed : k'.freed = k.freed

lemma ObjectsKept.refl (k : Kernel) : ObjectsKept k k := ⟨rfl, rfl, rfl, rfl, rfl⟩

lemma ObjectsKept.trans {k k' k'' : Kernel} (h : ObjectsKept k k') (h' : ObjectsKept k' k'') :
    ObjectsKept k k'' :=
  ⟨h'.threadCount.trans h.threadCount, h'.irqs.trans h.irqs, h'.ipcs.trans h.ipcs,
    h'.ipcCount.trans h.ipcCount, h'.freed.trans h.freed⟩

/-! ### `wakeup_sleepers` -/

/-- A thread whose time has come is ready. -/
def Kernel.wokenUp (k : Kernel) (t : ThreadId) : Kernel :=
  let k' := match (k.thread t).queueRoot with
    | some q => k.setQueue q ((k.queue q).erase t)
    | none => k
  (k'.setQueue .run (k.queue .run ++ [t])).setThread t
    { k.thread t with state := .ready, timeout := 0, queueRoot := some .run }

/-- The threads at the front of the list woke up, and no other. -/
structure WokeUp (now : ℕ) (woken : List ThreadId) (k k' : Kernel) : Prop where
  expired : ∀ t ∈ woken, (k.thread t).timeout < now
  first : ∀ t, k'.sleepQueue.head? = some t → now ≤ (k.thread t).timeout
  sleepQueue : k.sleepQueue = woken ++ k'.sleepQueue
  run : k'.queue .run = k.queue .run ++ woken
  queue : ∀ q, q ≠ .run → k'.queue q = (k.queue q).filter (· ∉ woken)
  readied : ∀ t ∈ woken, k'.thread t =
    { k.thread t with state := .ready, timeout := 0, queueRoot := some .run }
  others : ∀ t, t ∉ woken → k'.thread t = k.thread t
  currentThread : k'.currentThread = k.currentThread
  userContext : k'.userContext = k.userContext
  clock : k'.clock = k.clock
  objects : ObjectsKept k k'

namespace Placed

variable {k : Kernel} {place : ThreadId → Place} {t : ThreadId}

lemma wakeSleeper {next : List ThreadId} (h : Placed (k.setSleepQueue (t :: next)) place) :
    k.wakeSleeper t = .ok (k.wokenUp t) ∧
      Placed ((k.wokenUp t).setSleepQueue next) (Function.update place t (.queued .run)) := by
  have htimed : (place t).Timed := (h.sleep t).mp List.mem_cons_self
  have hstate : (k.thread t).state = (place t).state := h.state t
  have hroot : (k.thread t).queueRoot = (place t).root := h.root t
  constructor
  · unfold Kernel.wakeSleeper
    rcases Place.timed_iff.mp htimed with hplace | ⟨n, hplace⟩
    · rw [hplace] at hstate hroot
      simp [hstate, hroot, Place.state, Place.root, assert, Kernel.setState, Kernel.setTimeoutNs,
        Kernel.scheduleReady, Kernel.queuePush, Kernel.setQueueRoot, Kernel.wokenUp]
    · rw [hplace] at hstate hroot
      simp [hstate, hroot, Place.state, Place.root, assert, Kernel.setState, Kernel.setTimeoutNs,
        Kernel.queueNodeRemove, Kernel.scheduleReady, Kernel.queuePush, Kernel.setQueueRoot,
        Kernel.wokenUp]
  · obtain ⟨hstate, hroot, hqueue, hnodup, hcurrent, hcaller, hsleep, hsleepNodup, habsent⟩ := h
    have hnext : t ∉ next ∧ next.Nodup := List.nodup_cons.mp hsleepNodup
    simp only [Kernel.setSleepQueue_thread, Kernel.setSleepQueue_queue,
      Kernel.setSleepQueue_currentThread, Kernel.setSleepQueue_sleepQueue,
      Kernel.setSleepQueue_threadCount]
      at hstate hroot hqueue hnodup hcurrent hcaller hsleep habsent
    rcases Place.timed_iff.mp htimed with hplace | ⟨n, hplace⟩
    · have hnone : (k.thread t).queueRoot = none := by rw [hroot, hplace]; rfl
      unfold Kernel.wokenUp
      rw [hnone]
      refine ⟨fun m => ?_, fun m => ?_, fun q m => ?_, fun q => ?_, fun m => ?_, fun l m => ?_,
        fun m => ?_, hnext.2, fun m => ?_⟩
      all_goals simp only [Function.update_apply]
      · grind [Place.state]
      · grind [Place.root]
      · grind
      · grind
      · grind
      · grind
      · grind [Place.Timed]
      · grind
    · have hsome : (k.thread t).queueRoot = some (.irq n) := by rw [hroot, hplace]; rfl
      unfold Kernel.wokenUp
      rw [hsome]
      refine ⟨fun m => ?_, fun m => ?_, fun q m => ?_, fun q => ?_, fun m => ?_, fun l m => ?_,
        fun m => ?_, hnext.2, fun m => ?_⟩
      all_goals simp only [Function.update_apply]
      · grind [Place.state]
      · grind [Place.root]
      · grind [List.Nodup.mem_erase_iff]
      · grind [List.Nodup.erase]
      · grind
      · grind
      · grind [Place.Timed]
      · grind

/-- What waking one thread leaves of the queues. -/
lemma wokenUp_queue {next : List ThreadId} (h : Placed (k.setSleepQueue (t :: next)) place)
    (q : QueueId) : (k.wokenUp t).queue q =
      if q = .run then k.queue .run ++ [t] else (k.queue q).erase t := by
  have htimed : (place t).Timed := (h.sleep t).mp List.mem_cons_self
  have hroot : (k.thread t).queueRoot = (place t).root := h.root t
  have hother : ∀ q, place t ≠ .queued q → (k.queue q).erase t = k.queue q := fun q hq =>
    List.erase_of_not_mem fun hm => hq ((h.queue q t).mp hm)
  unfold Kernel.wokenUp
  rcases Place.timed_iff.mp htimed with hplace | ⟨n, hplace⟩
  · have hnone : (k.thread t).queueRoot = none := by rw [hroot, hplace]; rfl
    rw [hnone]
    simp only [Kernel.setThread_queue, Kernel.setQueue_queue]
    rw [hother q (by simp [hplace])]
  · have hsome : (k.thread t).queueRoot = some (.irq n) := by rw [hroot, hplace]; rfl
    rw [hsome]
    simp only [Kernel.setThread_queue, Kernel.setQueue_queue]
    by_cases hq : q = .irq n
    · subst hq
      simp
    · rw [if_neg hq, hother q (by simp [hplace, Ne.symm hq])]

lemma wokenUp_thread (k : Kernel) (t m : ThreadId) : (k.wokenUp t).thread m =
    if m = t then { k.thread t with state := .ready, timeout := 0, queueRoot := some .run }
    else k.thread m := by
  unfold Kernel.wokenUp
  cases (k.thread t).queueRoot <;> simp

lemma wokenUp_objects (k : Kernel) (t : ThreadId) : ObjectsKept k (k.wokenUp t) ∧
    (k.wokenUp t).currentThread = k.currentThread ∧ (k.wokenUp t).userContext = k.userContext ∧
    (k.wokenUp t).clock = k.clock := by
  unfold Kernel.wokenUp
  cases (k.thread t).queueRoot with
  | none => exact ⟨⟨rfl, rfl, rfl, rfl, rfl⟩, rfl, rfl, rfl⟩
  | some q => exact ⟨⟨rfl, rfl, rfl, rfl, rfl⟩, rfl, rfl, rfl⟩

/-- One more thread woke up before the others. -/
lemma wokeUp_cons {now : ℕ} {next woken : List ThreadId} {k' : Kernel}
    (h : Placed (k.setSleepQueue (t :: next)) place) (hlt : (k.thread t).timeout < now)
    (hwoke : WokeUp now woken ((k.wokenUp t).setSleepQueue next) k') :
    WokeUp now (t :: woken) (k.setSleepQueue (t :: next)) k' := by
  have hnodup : (t :: next).Nodup := h.sleepNodup
  have hnext : next = woken ++ k'.sleepQueue := hwoke.sleepQueue
  obtain ⟨ht, hne⟩ := List.nodup_cons.mp hnodup
  rw [hnext, List.mem_append, not_or] at ht
  obtain ⟨hobjects, hcurrent, hcontext, hclock⟩ := wokenUp_objects k t
  have hsame : ∀ m, m ≠ t → (k.wokenUp t).thread m = k.thread m := fun m hm => by
    rw [wokenUp_thread, if_neg hm]
  refine ⟨fun m hm => ?_, fun m hm => ?_, ?_, ?_, fun q hq => ?_, fun m hm => ?_, fun m hm => ?_,
    ?_, ?_, ?_, ?_⟩
  · rcases List.mem_cons.mp hm with rfl | hm
    · exact hlt
    · have hexpired := hwoke.expired m hm
      rwa [Kernel.setSleepQueue_thread, hsame m fun heq => ht.1 (heq ▸ hm)] at hexpired
  · have hfirst := hwoke.first m hm
    rwa [Kernel.setSleepQueue_thread,
      hsame m fun heq => ht.2 (heq ▸ List.mem_of_mem_head? hm)] at hfirst
  · rw [Kernel.setSleepQueue_sleepQueue, hnext]
    rfl
  · rw [hwoke.run, Kernel.setSleepQueue_queue, h.wokenUp_queue, if_pos rfl]
    simp
  · have hq' : (k.queue q).Nodup := h.nodup q
    rw [hwoke.queue q hq, Kernel.setSleepQueue_queue, Kernel.setSleepQueue_queue,
      h.wokenUp_queue, if_neg hq, hq'.erase_eq_filter, List.filter_filter]
    refine List.filter_congr fun m _ => ?_
    by_cases hm : m = t <;> simp [hm]
  · rcases List.mem_cons.mp hm with rfl | hm
    · rw [hwoke.others m ht.1, Kernel.setSleepQueue_thread, wokenUp_thread, if_pos rfl]
      rfl
    · rw [hwoke.readied m hm, Kernel.setSleepQueue_thread, hsame m fun heq => ht.1 (heq ▸ hm)]
      rfl
  · rw [List.mem_cons, not_or] at hm
    rw [hwoke.others m hm.2, Kernel.setSleepQueue_thread, hsame m hm.1]
    rfl
  · exact hwoke.currentThread.trans hcurrent
  · exact hwoke.userContext.trans hcontext
  · exact hwoke.clock.trans hclock
  · exact ⟨hwoke.objects.threadCount.trans hobjects.threadCount,
      hwoke.objects.irqs.trans hobjects.irqs, hwoke.objects.ipcs.trans hobjects.ipcs,
      hwoke.objects.ipcCount.trans hobjects.ipcCount, hwoke.objects.freed.trans hobjects.freed⟩

lemma wakeupSleepersAt {now : ℕ} {queue : List ThreadId}
    (h : Placed (k.setSleepQueue queue) place) :
    ∃ woken k', Kernel.wakeupSleepersAt now queue k = .ok k' ∧
      WokeUp now woken (k.setSleepQueue queue) k' ∧
      Placed k' fun t => if t ∈ woken then .queued .run else place t := by
  induction queue generalizing k place with
  | nil =>
    refine ⟨[], _, rfl, ⟨by simp, by simp, rfl, by simp, fun q _ => (by simp), by simp,
      fun t _ => rfl, rfl, rfl, rfl, .refl _⟩, by simpa using h⟩
  | cons t next ih =>
    unfold Kernel.wakeupSleepersAt
    split_ifs with hlt
    · obtain ⟨heq, hstep⟩ := h.wakeSleeper
      obtain ⟨woken, k', hloop, hwoke, hcoherent⟩ := ih hstep
      refine ⟨t :: woken, k', by rw [heq, ok_bind, hloop], h.wokeUp_cons hlt hwoke, ?_⟩
      have hplace : (fun m => if m ∈ t :: woken then .queued .run else place m) =
          fun m => if m ∈ woken then .queued .run
            else Function.update place t (.queued .run) m := by
        funext m
        by_cases hm : m = t
        · subst hm
          simp
        · simp [hm]
      rwa [hplace]
    · refine ⟨[], _, rfl, ⟨by simp, fun m hm => ?_, rfl, by simp, fun q _ => (by simp), by simp,
        fun t _ => rfl, rfl, rfl, rfl, .refl _⟩, by simpa using h⟩
      obtain rfl : t = m := Option.some_injective _ hm
      exact not_lt.mp hlt

lemma wakeupSleepers (h : Placed k place) :
    ∃ woken k', k.wakeupSleepers = .ok k' ∧ WokeUp (k.clock 0) woken k.tick k' ∧
      Placed k' fun t => if t ∈ woken then .queued .run else place t := by
  have htick : Placed (k.tick.setSleepQueue k.sleepQueue) place :=
    h.congr (fun _ => ⟨rfl, rfl, rfl⟩) rfl rfl rfl rfl
  exact htick.wakeupSleepersAt

end Placed

/-! ### `schedule` -/

/-- What stays when the processor is passed on. -/
structure Passed (k k' : Kernel) : Prop where
  ctx : ∀ t, k.currentThread ≠ some t → (k'.thread t).ctx = (k.thread t).ctx
  ipcCaller : ∀ t, (k'.thread t).ipcCaller = (k.thread t).ipcCaller
  channel : ∀ i c, k'.queue (.channel i c) = k.queue (.channel i c)
  irq : ∀ n, ∃ woken : List ThreadId, (∀ t ∈ woken, (k.thread t).timeout < k.clock 0) ∧
    k'.queue (.irq n) = (k.queue (.irq n)).filter (· ∉ woken)
  sleeping : ∀ t, (k'.thread t).state = .sleeping → (k.thread t).state = .sleeping
  objects : ObjectsKept k k'

lemma WokeUp.passed {woken : List ThreadId} {k k' : Kernel}
    (h : WokeUp (k.clock 0) woken k.tick k')
    (hchannel : ∀ i c, ∀ t ∈ woken, t ∉ k.queue (.channel i c)) : Passed k k' := by
  have hthread : ∀ t, (k'.thread t).ctx = (k.thread t).ctx ∧
      (k'.thread t).ipcCaller = (k.thread t).ipcCaller := by
    intro t
    by_cases ht : t ∈ woken
    · rw [h.readied t ht]
      exact ⟨rfl, rfl⟩
    · rw [h.others t ht]
      exact ⟨rfl, rfl⟩
  refine ⟨fun t _ => (hthread t).1, fun t => (hthread t).2, fun i c => ?_, fun n => ?_,
    fun t hsleeping => ?_, ?_⟩
  · rw [h.queue _ (by simp), Kernel.tick_queue]
    refine List.filter_eq_self.mpr fun t ht => ?_
    simpa using fun hm => hchannel i c t hm ht
  · exact ⟨woken, h.expired, h.queue _ (by simp)⟩
  · by_cases ht : t ∈ woken
    · rw [h.readied t ht] at hsleeping
      cases hsleeping
    · rwa [h.others t ht] at hsleeping
  · exact ⟨h.objects.threadCount, h.objects.irqs, h.objects.ipcs, h.objects.ipcCount,
      h.objects.freed⟩

namespace Placed

variable {k : Kernel} {place : ThreadId → Place} {t : ThreadId}

/-- A thread that runs makes room for the one that the kernel has chosen. -/
lemma preempt (h : Placed k place) (ht : place t = .floating) :
    ∃ k' place', k.preempt = .ok k' ∧ Placed k' place' ∧ k'.currentThread = none ∧
      place' t = .floating ∧ (∀ m, place' m = .floating ↔ place m = .floating) ∧
      (∀ m, k.currentThread ≠ some m → (k'.thread m).ctx = (k.thread m).ctx) ∧
      (∀ m, (k'.thread m).ipcCaller = (k.thread m).ipcCaller) ∧
      (∀ q, q ≠ .run → k'.queue q = k.queue q) ∧
      (∀ m, (k'.thread m).state = .sleeping → (k.thread m).state = .sleeping) ∧
      ObjectsKept k k' := by
  unfold Kernel.preempt
  cases hcurrent : k.currentThread with
  | none =>
    exact ⟨k, place, rfl, h, hcurrent, ht, fun _ => Iff.rfl, fun _ _ => rfl, fun _ => rfl,
      fun _ _ => rfl, fun _ hm => hm, .refl k⟩
  | some r =>
    obtain ⟨hsave, hr⟩ := h.cpuContextSave hcurrent
    have hsaved := h.saved hr
    have hready := hsaved.scheduleReady (Function.update_self _ _ _)
    have hreadied := hsaved.readied (Function.update_self _ _ _)
    rw [Function.update_idem] at hreadied
    have hrt : t ≠ r := fun heq => by
      rw [← heq, ht] at hr
      cases hr
    refine ⟨_, _, ?_, hreadied, rfl, ?_, fun m => ?_, fun m hm => ?_, fun m => ?_,
      fun q hq => ?_, fun m hm => ?_, ⟨rfl, rfl, rfl, rfl, rfl⟩⟩
    · dsimp only
      rw [hsave, ok_bind]
      exact hready
    · rw [Function.update_of_ne hrt, ht]
    · by_cases hm : m = r
      · subst hm
        simp [hr]
      · rw [Function.update_of_ne hm]
    · rw [ne_eq, Option.some.injEq] at hm
      simp [Kernel.readied, Kernel.saved, Ne.symm hm]
    · by_cases hm : m = r
      · subst hm
        simp [Kernel.readied, Kernel.saved]
      · simp [Kernel.readied, Kernel.saved, hm]
    · simp [Kernel.readied, Kernel.saved, hq]
    · by_cases hmr : m = r
      · subst hmr
        simp [Kernel.readied] at hm
      · simpa [Kernel.readied, Kernel.saved, hmr] using hm

lemma schedule (h : Placed k place) :
    ∃ flow k' place', k.schedule = .ok (flow, k') ∧ Placed k' place' ∧ Passed k k' ∧
      (∀ t, place' t = .floating ↔ place t = .floating) ∧
      (flow = .returns () → k'.currentThread = k.currentThread ∧
        k'.userContext = k.userContext) ∧
      (flow = .exits → k'.currentThread.isSome) := by
  obtain ⟨woken, k₁, heq, hwoke, h₁⟩ := h.wakeupSleepers
  have htimed : ∀ t ∈ woken, (place t).Timed := fun t ht => (h.sleep t).mp (by
    have hsleep : k.sleepQueue = woken ++ k₁.sleepQueue := hwoke.sleepQueue
    simp [hsleep, ht])
  have hpassed : Passed k k₁ := hwoke.passed fun i c t ht hm => by
    have hmem := htimed t ht
    rw [(h.queue _ t).mp hm] at hmem
    exact Place.timed_channel i c hmem
  have hfloating : ∀ t, (if t ∈ woken then Place.queued .run else place t) = .floating ↔
      place t = .floating := by
    intro t
    split_ifs with ht
    · have hmem := htimed t ht
      refine ⟨fun hne => (by cases hne), fun hplace => ?_⟩
      rw [hplace] at hmem
      exact absurd hmem Place.timed_floating
    · rfl
  unfold Kernel.schedule
  rw [heq, ok_bind]
  cases hrun : k₁.queue .run with
  | nil =>
    rw [runQueuePop_nil hrun]
    exact ⟨_, _, _, rfl, h₁, hpassed, hfloating,
      fun _ => ⟨hwoke.currentThread, hwoke.userContext⟩, fun hne => (by cases hne)⟩
  | cons t threads =>
    obtain ⟨hpop, hplace⟩ := h₁.runQueuePop hrun
    have h₂ := h₁.popped hplace (by simp)
    obtain ⟨k₃, place₃, hpreempt, h₃, hnone, ht₃, hfloating₃, hctx₃, hcaller₃, hqueue₃,
      hsleeping₃, hobjects₃⟩ := h₂.preempt (Function.update_self _ _ _)
    have h₄ := h₃.restored ht₃ hnone
    rw [hpop, ok_bind]
    dsimp only
    rw [hpreempt, ok_bind, h₃.cpuContextRestoreAndExit ht₃ hnone]
    have hthread : ∀ m, ((k₁.popped t .run).thread m).ctx = (k₁.thread m).ctx ∧
        ((k₁.popped t .run).thread m).ipcCaller = (k₁.thread m).ipcCaller := by
      intro m
      by_cases hm : m = t
      · subst hm
        simp [Kernel.popped]
      · simp [Kernel.popped, hm]
    have hrestored : ∀ m, ((k₃.restored t).thread m).ctx = (k₃.thread m).ctx ∧
        ((k₃.restored t).thread m).ipcCaller = (k₃.thread m).ipcCaller := by
      intro m
      by_cases hm : m = t
      · subst hm
        simp [Kernel.restored]
      · simp [Kernel.restored, hm]
    have hqueue : ∀ q, q ≠ .run → (k₃.restored t).queue q = k₁.queue q := by
      intro q hq
      have hpopped : (k₁.popped t .run).queue q = k₁.queue q := by simp [Kernel.popped, hq]
      rw [← hpopped, ← hqueue₃ q hq]
      simp [Kernel.restored]
    refine ⟨_, _, _, rfl, h₄, ⟨fun m hm => ?_, fun m => ?_, fun i c => ?_, fun n => ?_,
      fun m hm => ?_, ?_⟩, fun m => ?_, fun hne => (by cases hne), fun _ => rfl⟩
    · have hm' : (k₁.popped t .run).currentThread ≠ some m := by
        change k₁.currentThread ≠ some m
        rw [hwoke.currentThread]
        exact hm
      rw [(hrestored m).1, hctx₃ m hm', (hthread m).1, hpassed.ctx m hm]
    · rw [(hrestored m).2, hcaller₃, (hthread m).2, hpassed.ipcCaller]
    · rw [hqueue _ (by simp), hpassed.channel]
    · obtain ⟨woken', hexpired, hfilter⟩ := hpassed.irq n
      exact ⟨woken', hexpired, (hqueue _ (by simp)).trans hfilter⟩
    · have hmt : m ≠ t := by
        rintro rfl
        simp [Kernel.restored] at hm
      have hrest : ((k₃.restored t).thread m).state = (k₃.thread m).state := by
        simp [Kernel.restored, hmt]
      have hpop : ((k₁.popped t .run).thread m).state = (k₁.thread m).state := by
        simp [Kernel.popped, hmt]
      rw [hrest] at hm
      exact hpassed.sleeping m (hpop ▸ hsleeping₃ m hm)
    · have hpopped : ObjectsKept k₁ (k₁.popped t .run) := ⟨rfl, rfl, rfl, rfl, rfl⟩
      have hresumed : ObjectsKept k₃ (k₃.restored t) := ⟨rfl, rfl, rfl, rfl, rfl⟩
      exact hpassed.objects.trans (hpopped.trans (hobjects₃.trans hresumed))
    · by_cases hm : m = t
      · subst hm
        rw [Function.update_self, ← hfloating m, hplace]
        simp
      · rw [Function.update_of_ne hm, hfloating₃, Function.update_of_ne hm, hfloating]

/-- The thread that ran has its place already, and the next one is resumed. -/
lemma scheduleOrExit (h : Placed k place) (hnone : k.currentThread = none) :
    ∃ k' place', k.scheduleOrExit = .ok k' ∧ Placed k' place' ∧ Passed k k' ∧
      ∀ t, place' t = .floating ↔ place t = .floating := by
  obtain ⟨flow, k', place', heq, h', hpassed, hfloating, hreturns, -⟩ := h.schedule
  unfold Kernel.scheduleOrExit
  rw [heq, ok_bind]
  cases flow with
  | exits => exact ⟨k', place', rfl, h', hpassed, hfloating⟩
  | returns u =>
    refine ⟨k', place', ?_, h', hpassed, hfloating⟩
    have hnone' : k'.currentThread = none := (hreturns rfl).1.trans hnone
    simp [Kernel.cpuExitIdle, assert, hnone']

end Placed

end Fluke
