import Fluke.User.Ipc.Exchange

/-!
# What a step does to those that wait for interrupts

A step lets a thread join the queue of an interrupt, passes an interrupt to the first thread of its
queue, closes one, or leaves them alone. In all of these threads may run out of time.
-/

namespace Fluke

open Outcome

/-- The threads that wait for interrupts, and what is remembered, are the same. -/
structure IrqSame (k k' : Kernel) : Prop where
  queue : ∀ n, k'.queue (.irq n) = k.queue (.irq n)
  thread : ∀ n, ∀ t ∈ k.queue (.irq n), (k'.thread t).ctx = (k.thread t).ctx ∧
    (k'.thread t).timeout = (k.thread t).timeout
  clock : ∃ j, k'.clock 0 = k.clock j
  flag : ∀ n, (k'.irqs n).interruptOccurred = (k.irqs n).interruptOccurred

/-- The thread's time has come, at a reading of the clock. -/
def Kernel.Expired (k : Kernel) (t : ThreadId) : Prop := ∃ j, (k.thread t).timeout < k.clock j

/-- Some of the threads that wait for interrupts may have run out of time. -/
structure IrqKept (k k' : Kernel) : Prop where
  queue : ∀ n, ∃ woken : List ThreadId, (∀ t ∈ woken, t ∈ k.queue (.irq n) → k.Expired t) ∧
    k'.queue (.irq n) = (k.queue (.irq n)).filter (· ∉ woken)
  ctx : ∀ n, ∀ t ∈ k.queue (.irq n), (k'.thread t).ctx = (k.thread t).ctx
  flag : ∀ n, (k'.irqs n).interruptOccurred = (k.irqs n).interruptOccurred

/-- The thread waits for the interrupt. -/
structure IrqJoins (k : Kernel) (t : ThreadId) (n : Fin 16) (k' : Kernel) : Prop where
  queue : k'.queue (.irq n) = k.queue (.irq n) ++ [t]
  queues : ∀ m, m ≠ n → k'.queue (.irq m) = k.queue (.irq m)
  self : (k'.thread t).ctx.r0 = ErrorCode.EAGAIN.negated
  thread : ∀ m, m ≠ t → (k'.thread m).ctx = (k.thread m).ctx ∧
    (k'.thread m).timeout = (k.thread m).timeout
  clock : ∃ j, ∀ i, k'.clock i = k.clock (i + j)
  flag : ∀ m, (k'.irqs m).interruptOccurred = (k.irqs m).interruptOccurred

/-- The interrupt is passed to the first thread that waits for it. -/
structure IrqLeaves (k : Kernel) (t : ThreadId) (n : Fin 16) (k' : Kernel) : Prop where
  queue : k.queue (.irq n) = t :: k'.queue (.irq n)
  queues : ∀ m, m ≠ n → k'.queue (.irq m) = k.queue (.irq m)
  thread : ∀ m, m ≠ t → (k'.thread m).ctx = (k.thread m).ctx ∧
    (k'.thread m).timeout = (k.thread m).timeout
  clock : k'.clock = k.clock
  flag : ∀ m, (k'.irqs m).interruptOccurred = (k.irqs m).interruptOccurred

/-- What an entry does to those that wait for interrupts -/
inductive IrqMove (k : Kernel) : Entry → Kernel → Prop
  | kept {entry : Entry} {k' : Kernel} (h : IrqKept k k')
      (hentry : ∀ irq ctx, entry = .interrupt (some irq) ctx → irqIndex irq = none) :
      IrqMove k entry k'
  | joins {t : ThreadId} {ctx : Registers} {s : Surroundings} {n : Fin 16} {k₁ k' : Kernel}
      (hcurrent : k.currentThread = some t)
      (hflag : (k.irqs n).interruptOccurred = false) (hjoins : IrqJoins k t n k₁)
      (h : IrqKept k₁ k') : IrqMove k (.syscall ctx s) k'
  | consumes {ctx : Registers} {s : Surroundings} {n : Fin 16} {k' : Kernel}
      (hflag : (k.irqs n).interruptOccurred = true)
      (hqueue : ∀ m, k'.queue (.irq m) = k.queue (.irq m))
      (hthread : ∀ t, (k'.thread t).ctx = (k.thread t).ctx)
      (hflags : ∀ m, (k'.irqs m).interruptOccurred =
        if m = n then false else (k.irqs m).interruptOccurred) : IrqMove k (.syscall ctx s) k'
  | arrives {irq : ℤ} {ctx : Registers} {n : Fin 16} {t : ThreadId} {k₁ k' : Kernel}
      (hirq : irqIndex irq = some n) (hleaves : IrqLeaves k t n k₁)
      (hvalue : (k'.thread t).ctx.r0 = 1) (h : IrqKept k₁ k') :
      IrqMove k (.interrupt (some irq) ctx) k'
  | remembers {irq : ℤ} {ctx : Registers} {n : Fin 16} {k₁ k' : Kernel}
      (hirq : irqIndex irq = some n) (hqueue : k.queue (.irq n) = [])
      (hqueues : ∀ m, k₁.queue (.irq m) = k.queue (.irq m)) (hthread : k₁.thread = k.thread)
      (hclock : k₁.clock = k.clock)
      (hflags : ∀ m, (k₁.irqs m).interruptOccurred =
        if m = n then true else (k.irqs m).interruptOccurred) (h : IrqKept k₁ k') :
      IrqMove k (.interrupt (some irq) ctx) k'
  | closes {n : Fin 16} {ctx : Registers} {value : ℕ} {k' : Kernel}
      (hqueue : k'.queue (.irq n) = [])
      (hqueues : ∀ m, m ≠ n → k'.queue (.irq m) = k.queue (.irq m))
      (hvalue : ∀ t ∈ k.queue (.irq n), (k'.thread t).ctx.r0 = ErrorCode.EBADF.negated ∧
        t ∈ k'.queue .run)
      (hthread : ∀ t, t ∉ k.queue (.irq n) → (k'.thread t).ctx = (k.thread t).ctx)
      (hflags : ∀ m, (k'.irqs m).interruptOccurred = (k.irqs m).interruptOccurred) :
      IrqMove k (.close (.irq n) ctx value) k'

/-- What holds of the interrupts between entries: what is remembered, nobody waits for, and who
waits returns with `EAGAIN` if nothing else happens. -/
structure IrqsOk (k : Kernel) : Prop where
  flag : ∀ n, (k.irqs n).interruptOccurred = true → k.queue (.irq n) = []
  value : ∀ n, ∀ t ∈ k.queue (.irq n), (k.thread t).ctx.r0 = ErrorCode.EAGAIN.negated

section

variable {k k₁ k' : Kernel} {t : ThreadId} {place : ThreadId → Place} {entry : Entry}
  {s : Surroundings} {r : Flow (Result ℕ) × Kernel}

/-! ### Steps -/

lemma IrqSame.refl (k : Kernel) : IrqSame k k :=
  ⟨fun _ => rfl, fun _ _ _ => ⟨rfl, rfl⟩, ⟨0, rfl⟩, fun _ => rfl⟩

/-- The scheduler, after a part of the step that has left the interrupts alone -/
lemma IrqSame.kept (h : IrqSame k k₁)
    (hirq : ∀ n, ∃ woken : List ThreadId, (∀ t ∈ woken, (k₁.thread t).timeout < k₁.clock 0) ∧
      k'.queue (.irq n) = (k₁.queue (.irq n)).filter (· ∉ woken))
    (hctx : ∀ n, ∀ t ∈ k₁.queue (.irq n), (k'.thread t).ctx = (k₁.thread t).ctx)
    (hirqs : k'.irqs = k₁.irqs) : IrqKept k k' := by
  refine ⟨fun n => ?_, fun n t ht => ?_, fun n => ?_⟩
  · obtain ⟨woken, hexpired, hqueue⟩ := hirq n
    refine ⟨woken, fun t ht hmem => ?_, by rw [hqueue, h.queue]⟩
    obtain ⟨j, hj⟩ := h.clock
    have hlt := hexpired t ht
    rw [(h.thread n t hmem).2, hj] at hlt
    exact ⟨j, hlt⟩
  · rw [hctx n t (by rw [h.queue]; exact ht), (h.thread n t ht).1]
  · rw [hirqs, h.flag]

lemma IrqSame.kept_self (h : IrqSame k k') : IrqKept k k' :=
  h.kept (fun n => ⟨[], by simp, by simp⟩) (fun _ _ _ => rfl) rfl

lemma IrqSame.passed (h : IrqSame k k₁) (hplaced : Placed k₁ place) (hpassed : Passed k₁ k') :
    IrqKept k k' := by
  refine h.kept hpassed.irq (fun n t ht => hpassed.ctx t fun hcurrent => ?_) hpassed.objects.irqs
  have hplace := (hplaced.queue _ t).mp ht
  rw [(hplaced.current t).mp hcurrent] at hplace
  cases hplace

lemma IrqKept.passed (hplaced : Placed k place) (hpassed : Passed k k') : IrqKept k k' :=
  (IrqSame.refl k).passed hplaced hpassed

lemma Placed.ne_of_irq (hplaced : Placed k place) {n : Fin 16} {m : ThreadId}
    (hm : m ∈ k.queue (.irq n)) (hplace : place t ≠ .queued (.irq n)) : m ≠ t := by
  rintro rfl
  exact hplace ((hplaced.queue _ m).mp hm)

lemma Placed.ne_of_irq_current (hplaced : Placed k place) {n : Fin 16} {m : ThreadId}
    (hm : m ∈ k.queue (.irq n)) (hcurrent : k.currentThread = some t) : m ≠ t := by
  refine hplaced.ne_of_irq hm ?_
  rw [(hplaced.current t).mp hcurrent]
  exact fun heq => by cases heq

lemma IrqKept.slept (hplaced : Placed k place) (hcurrent : k.currentThread = some t)
    (h : Slept t k r) : IrqKept k r.2 := by
  cases h with
  | refused => exact (IrqSame.refl k).kept_self
  | sleeps _ hpassed =>
    have hplaced' := hplaced.setUserContext { k.userContext with r0 := 0 }
    have hrunning := (hplaced.current t).mp hcurrent
    have hsame : IrqSame k ((k.setUserContext { k.userContext with r0 := 0 }).sleeps t
        (uaddIsize (k.clock 0) (toIsize k.userContext.a0))) := by
      refine ⟨fun n => rfl, fun n m hm => ?_, ⟨1, rfl⟩, fun n => rfl⟩
      rw [sleeps_thread, if_neg (hplaced.ne_of_irq_current hm hcurrent)]
      exact ⟨rfl, rfl⟩
    exact hsame.passed (hplaced'.sleeps hrunning _) hpassed

lemma IrqKept.added (hplaced : Placed k place) (ctx : Registers) : IrqKept k (k.added ctx) := by
  refine IrqSame.kept_self ⟨fun n => added_queue k ctx (by simp), fun n m hm => ?_, ⟨0, rfl⟩,
    fun n => rfl⟩
  have hne : m ≠ k.threadCount := by
    refine hplaced.ne_of_irq hm ?_
    rw [(hplaced.absent _).mpr le_rfl]
    exact fun heq => by cases heq
  rw [added_thread, if_neg hne]
  exact ⟨rfl, rfl⟩

section

variable {ctx : Registers} {i c : ℕ} {ipc : IpcImpl}

lemma IrqKept.waits {state : ChannelState} (hplaced : Placed k place)
    (hcurrent : k.currentThread = some t) (hpassed : Passed (k.waits t ctx i c ipc state) k') :
    IrqKept k k' := by
  have hsame : IrqSame k (k.waits t ctx i c ipc state) := by
    refine ⟨fun n => ?_, fun n m hm => ?_, ⟨0, rfl⟩, fun n => rfl⟩
    · simp [Kernel.waits, Kernel.pushed, Kernel.setChannelState, Kernel.held, Kernel.saved,
        Kernel.setCtx]
    · have hne := hplaced.ne_of_irq_current hm hcurrent
      simp [Kernel.waits, Kernel.pushed, Kernel.setChannelState, Kernel.held, Kernel.saved,
        Kernel.setCtx, hne]
  refine hsame.kept hpassed.irq (fun n m _ => hpassed.ctx m ?_) hpassed.objects.irqs
  simp [Kernel.waits, Kernel.pushed, Kernel.setChannelState, Kernel.held, Kernel.setCtx,
    Kernel.saved]

lemma IrqKept.met {peer caller listener : ThreadId} {mode : ℕ} (hplaced : Placed k place)
    (hcurrent : k.currentThread = some t) (hroles : caller = t ∧ listener = peer ∨
      caller = peer ∧ listener = t) (hmet : Met k t ctx i c ipc peer caller listener mode k') :
    IrqKept k k' := by
  have hpeer := (hplaced.queue _ peer).mp (List.mem_of_mem_head? hmet.first)
  have hne : ∀ n, ∀ m ∈ k.queue (.irq n), m ≠ t ∧ m ≠ peer := fun n m hm =>
    ⟨hplaced.ne_of_irq_current hm hcurrent,
      hplaced.ne_of_irq hm (by rw [hpeer]; exact fun heq => by cases heq)⟩
  have hsame : IrqSame k (k.meets t ctx i c ipc peer) := by
    refine ⟨fun n => ?_, fun n m hm => ?_, ⟨0, congrFun (meets_objects ..).2.2 0⟩, fun n => ?_⟩
    · rw [meets_queue, if_neg (by simp)]
    · obtain ⟨ht, hp⟩ := hne n m hm
      rw [meets_thread]
      simp [Kernel.popped, Kernel.held, Kernel.setCtx, Kernel.saved, ht, hp]
    · rw [(meets_objects ..).2.1]
  refine hsame.kept hmet.exchanged.irq (fun n m hm => ?_) hmet.exchanged.objects.irqs
  rw [hsame.queue] at hm
  obtain ⟨ht, hp⟩ := hne n m hm
  rcases hroles with ⟨rfl, rfl⟩ | ⟨rfl, rfl⟩
  · exact hmet.exchanged.ctx m ht hp
  · exact hmet.exchanged.ctx m hp ht

lemma IrqKept.responded {caller : ThreadId} (hplaced : Placed k place)
    (hcurrent : k.currentThread = some t) (howed : (k.thread t).ipcCaller = some caller)
    (h : Responded t caller k r) : IrqKept k r.2 := by
  refine (IrqSame.refl k).kept h.irq (fun n m hm => ?_) h.objects.irqs
  refine h.ctx m (hplaced.ne_of_irq_current hm hcurrent) (hplaced.ne_of_irq hm ?_)
  rw [(hplaced.caller t caller).mp howed]
  exact fun heq => by cases heq

lemma IrqKept.shut {listeners callers : ErrorCode} (hplaced : Placed k place)
    (h : Shut i listeners callers ipc k k') : IrqKept k k' := by
  have hqueue : ∀ n, k'.queue (.irq n) = k.queue (.irq n) := fun n =>
    h.queues _ (by simp) (by simp)
  refine IrqSame.kept_self ⟨hqueue, fun n m hm => ?_, ⟨0, congrFun h.clock 0⟩, fun n => by
    rw [h.irqs]⟩
  rw [h.others m fun c hc => ?_]
  · exact ⟨rfl, rfl⟩
  · have hplace := (hplaced.queue _ m).mp hm
    rw [(hplaced.queue _ m).mp hc] at hplace
    cases hplace

end

/-! ### What a thread asks for -/

lemma IrqJoins.irqWaits (k : Kernel) (t : ThreadId) (n : Fin 16) (timeout : ℕ) :
    IrqJoins k t n (k.irqWaits t n timeout) := by
  refine ⟨?_, fun m hm => ?_, ?_, fun m hm => ?_, ⟨1, fun _ => rfl⟩, fun m => rfl⟩
  · rw [irqWaits_queue, if_pos rfl]
  · rw [irqWaits_queue, if_neg (by simpa using hm)]
  · rw [irqWaits_thread, if_pos rfl]
  · rw [irqWaits_thread, if_neg hm]
    exact ⟨rfl, rfl⟩

lemma IrqMove.controlled {n : Fin 16} {op : ℕ} {ctx : Registers} (hplaced : Placed k place)
    (hcurrent : k.currentThread = some t) (h : IrqControlled t n op k r) :
    IrqMove k (.syscall ctx s) r.2 := by
  have hset : ∀ enabled m, ((k.setIrq n { k.irqs n with enabled := enabled }).irqs m
      ).interruptOccurred = (k.irqs m).interruptOccurred := by
    intro enabled m
    rw [Kernel.setIrq_irqs]
    split_ifs with hm
    · rw [hm]
    · rfl
  have hsame : ∀ enabled, IrqSame k (k.setIrq n { k.irqs n with enabled := enabled }) :=
    fun enabled => ⟨fun _ => rfl, fun _ _ _ => ⟨rfl, rfl⟩, ⟨0, rfl⟩, hset enabled⟩
  cases h with
  | invalid => exact .kept (IrqSame.refl k).kept_self (by rintro _ _ ⟨⟩)
  | done _ _ enabled => exact .kept (hsame enabled).kept_self (by rintro _ _ ⟨⟩)
  | waited _ _ enabled hwaited =>
    cases hwaited with
    | pending hoccurred =>
      rw [hset] at hoccurred
      refine .consumes hoccurred (fun _ => rfl) (fun _ => rfl) fun m => ?_
      rw [Kernel.setIrq_irqs]
      split_ifs with hm
      · rfl
      · exact hset enabled m
    | expired => exact .kept (hsame enabled).kept_self (by rintro _ _ ⟨⟩)
    | waits hoccurred _ hpassed =>
      rw [hset] at hoccurred
      have hplaced' := hplaced.setIrq n { k.irqs n with enabled := enabled }
      have hrunning := (hplaced.current t).mp hcurrent
      have hjoins := IrqJoins.irqWaits (k.setIrq n { k.irqs n with enabled := enabled }) t n
        (uaddIsize (k.clock 0) (toIsize k.userContext.a2))
      refine .joins hcurrent hoccurred ⟨hjoins.queue, hjoins.queues, hjoins.self, hjoins.thread,
        hjoins.clock, fun m => (hjoins.flag m).trans (hset enabled m)⟩
        (IrqKept.passed (hplaced'.irqWaits hrunning n _) hpassed)

/-! ### Steps -/

lemma IrqKept.of_eq {k₀ k'' : Kernel} (h : IrqKept k k') (hqueue₀ : k₀.queue = k.queue)
    (hthread₀ : k₀.thread = k.thread) (hclock₀ : k₀.clock = k.clock)
    (hflag₀ : ∀ n, (k₀.irqs n).interruptOccurred = (k.irqs n).interruptOccurred)
    (hqueue : k''.queue = k'.queue) (hthread : k''.thread = k'.thread)
    (hirqs : k''.irqs = k'.irqs) : IrqKept k₀ k'' := by
  refine ⟨fun n => ?_, fun n t ht => ?_, fun n => ?_⟩
  · obtain ⟨woken, hexpired, heq⟩ := h.queue n
    refine ⟨woken, fun t ht hmem => ?_, by rw [hqueue, heq, hqueue₀]⟩
    rw [hqueue₀] at hmem
    obtain ⟨j, hj⟩ := hexpired t ht hmem
    exact ⟨j, by rwa [hthread₀, hclock₀]⟩
  · rw [hqueue₀] at ht
    rw [hthread, h.ctx n t ht, hthread₀]
  · rw [hirqs, h.flag, hflag₀]

lemma IrqMove.of_context {ctx ctx' : Registers}
    (h : IrqMove (k.setUserContext ctx) (.syscall ctx' s) k') : IrqMove k (.syscall ctx' s) k' := by
  cases h with
  | kept h => exact .kept (h.of_eq rfl rfl rfl (fun _ => rfl) rfl rfl rfl) (by rintro _ _ ⟨⟩)
  | joins hcurrent hflag hjoins h =>
    exact .joins hcurrent hflag ⟨hjoins.queue, hjoins.queues, hjoins.self, hjoins.thread,
      hjoins.clock, hjoins.flag⟩ h
  | consumes hflag hqueue hthread hflags => exact .consumes hflag hqueue hthread hflags

lemma IrqMove.returned {ctx : Registers} (h : IrqMove k (.syscall ctx s) k') (value : ℕ) :
    IrqMove k (.syscall ctx s) (k'.returned value) := by
  cases h with
  | kept h => exact .kept (h.of_eq rfl rfl rfl (fun _ => rfl) rfl rfl rfl) (by rintro _ _ ⟨⟩)
  | joins hcurrent hflag hjoins h =>
    exact .joins hcurrent hflag hjoins (h.of_eq rfl rfl rfl (fun _ => rfl) rfl rfl rfl)
  | consumes hflag hqueue hthread hflags => exact .consumes hflag hqueue hthread hflags

lemma IrqKept.mem {n : Fin 16} (h : IrqKept k k') (ht : t ∈ k'.queue (.irq n)) :
    t ∈ k.queue (.irq n) := by
  obtain ⟨woken, -, hqueue⟩ := h.queue n
  rw [hqueue] at ht
  exact List.mem_of_mem_filter ht

lemma IrqsOk.kept (hok : IrqsOk k) (h : IrqKept k k') : IrqsOk k' := by
  refine ⟨fun n hflag => List.eq_nil_iff_forall_not_mem.mpr fun t ht => ?_, fun n t ht => ?_⟩
  · rw [h.flag] at hflag
    have hmem := h.mem ht
    rw [hok.flag n hflag] at hmem
    exact absurd hmem List.not_mem_nil
  · rw [h.ctx n t (h.mem ht)]
    exact hok.value n t (h.mem ht)

lemma IrqsOk.joins {n : Fin 16} (hok : IrqsOk k) (hflag : (k.irqs n).interruptOccurred = false)
    (h : IrqJoins k t n k') : IrqsOk k' := by
  refine ⟨fun m hm => ?_, fun m l hl => ?_⟩
  · rw [h.flag] at hm
    have hne : m ≠ n := by
      rintro rfl
      rw [hflag] at hm
      cases hm
    rw [h.queues m hne, hok.flag m hm]
  · by_cases hlt : l = t
    · rw [hlt]
      exact h.self
    · rw [(h.thread l hlt).1]
      refine hok.value m l ?_
      by_cases hmn : m = n
      · subst hmn
        rw [h.queue, List.mem_append, List.mem_singleton] at hl
        exact hl.resolve_right hlt
      · rwa [h.queues m hmn] at hl

lemma IrqsOk.leaves {n : Fin 16} (hplaced : Placed k place) (hok : IrqsOk k)
    (h : IrqLeaves k t n k') : IrqsOk k' := by
  have hmem : ∀ m, ∀ l ∈ k'.queue (.irq m), l ∈ k.queue (.irq m) ∧ l ≠ t := by
    intro m l hl
    have hnodup := hplaced.nodup (.irq n)
    rw [h.queue, List.nodup_cons] at hnodup
    by_cases hmn : m = n
    · subst hmn
      rw [h.queue]
      refine ⟨List.mem_cons_of_mem _ hl, ?_⟩
      rintro rfl
      exact hnodup.1 hl
    · rw [h.queues m hmn] at hl
      refine ⟨hl, hplaced.ne_of_irq hl ?_⟩
      rw [(hplaced.queue (.irq n) t).mp (by rw [h.queue]; exact List.mem_cons_self)]
      exact fun heq => hmn (by cases heq; rfl)
  refine ⟨fun m hm => List.eq_nil_iff_forall_not_mem.mpr fun l hl => ?_, fun m l hl => ?_⟩
  · rw [h.flag] at hm
    have hl' := (hmem m l hl).1
    rw [hok.flag m hm] at hl'
    exact absurd hl' List.not_mem_nil
  · obtain ⟨hl', hne⟩ := hmem m l hl
    rw [(h.thread l hne).1]
    exact hok.value m l hl'

lemma IrqsOk.step (hplaced : Placed k place) (hok : IrqsOk k) (h : IrqMove k entry k') :
    IrqsOk k' := by
  cases h with
  | kept h => exact hok.kept h
  | joins _ hflag hjoins h => exact (hok.joins hflag hjoins).kept h
  | arrives _ hleaves _ h => exact (hok.leaves hplaced hleaves).kept h
  | consumes hflag hqueue hthread hflags =>
    refine ⟨fun m hm => ?_, fun m l hl => ?_⟩
    · rw [hflags] at hm
      split_ifs at hm
      rw [hqueue]
      exact hok.flag m hm
    · rw [hqueue] at hl
      rw [hthread]
      exact hok.value m l hl
  | @remembers irq ctx n k₁ _ hirq hempty hqueues hthread hclock hflags h =>
    refine IrqsOk.kept ⟨fun m hm => ?_, fun m l hl => ?_⟩ h
    · rw [hqueues]
      rw [hflags] at hm
      split_ifs at hm with hmn
      · rw [hmn, hempty]
      · exact hok.flag m hm
    · rw [hqueues] at hl
      rw [hthread]
      exact hok.value m l hl
  | @closes n ctx value _ hempty hqueues hvalue hthread hflags =>
    refine ⟨fun m hm => ?_, fun m l hl => ?_⟩
    · by_cases hmn : m = n
      · rw [hmn, hempty]
      · rw [hqueues m hmn]
        rw [hflags] at hm
        exact hok.flag m hm
    · by_cases hmn : m = n
      · rw [hmn, hempty] at hl
        exact absurd hl List.not_mem_nil
      · rw [hqueues m hmn] at hl
        rw [hthread l]
        · exact hok.value m l hl
        · intro hl'
          have hplace := (hplaced.queue _ l).mp hl
          rw [(hplaced.queue _ l).mp hl'] at hplace
          cases hplace
          exact hmn rfl

lemma waits_sleeping {l : ThreadId} {ctx : Registers} {i c : ℕ} {ipc : IpcImpl}
    {state : ChannelState} (hne : t ≠ l) (hpassed : Passed (k.waits l ctx i c ipc state) k') :
    k.threadCount ≤ k'.threadCount ∧
      ((k'.thread t).state = .sleeping → (k.thread t).state = .sleeping) := by
  refine ⟨hpassed.objects.threadCount.ge, fun hsleeps => ?_⟩
  have hstate := hpassed.sleeping t hsleeps
  simpa [Kernel.waits, Kernel.pushed, Kernel.setChannelState, Kernel.held, Kernel.saved,
    Kernel.setCtx, hne] using hstate

/-- No thread but the one that runs falls asleep in a system call. -/
lemma SyscallDone.sleeping {l : ThreadId} (h : SyscallDone l s k r)
    (hlt : t < k.threadCount) (hne : t ≠ l) :
    k.threadCount ≤ r.2.threadCount ∧
      ((r.2.thread t).state = .sleeping → (k.thread t).state = .sleeping) := by
  cases h with
  | other => exact ⟨le_rfl, id⟩
  | claims =>
    rcases k.doSyscallClaimIrq_eq s with heq | ⟨n, -, -, heq⟩
    · rw [heq]
      exact ⟨le_rfl, id⟩
    · rw [heq]
      exact ⟨le_rfl, id⟩
  | sleeps _ hslept =>
    cases hslept with
    | refused => exact ⟨le_rfl, id⟩
    | sleeps _ hpassed =>
      refine ⟨hpassed.objects.threadCount.ge, fun hsleeps => ?_⟩
      have hstate := hpassed.sleeping t hsleeps
      rwa [sleeps_thread, if_neg hne] at hstate
  | adds userCtx newCtx value =>
    refine ⟨Nat.le_succ _, fun hsleeps => ?_⟩
    have hold : t ≠ (k.setUserContext userCtx).threadCount := hlt.ne
    rwa [added_thread, if_neg hold] at hsleeps
  | creates => exact ⟨le_rfl, id⟩
  | controls _ _ _ _ hcontrolled =>
    cases hcontrolled with
    | invalid => exact ⟨le_rfl, id⟩
    | done => exact ⟨le_rfl, id⟩
    | waited _ _ _ hwaited =>
      cases hwaited with
      | pending => exact ⟨le_rfl, id⟩
      | expired => exact ⟨le_rfl, id⟩
      | waits _ _ hpassed =>
        refine ⟨hpassed.objects.threadCount.ge, fun hsleeps => ?_⟩
        have hstate := hpassed.sleeping t hsleeps
        rwa [irqWaits_thread, if_neg hne] at hstate
  | calls _ _ _ _ hcall =>
    rcases hcall with ⟨e, rfl⟩ | ⟨_, _, _, _, _, _, _, _, _, _, ⟨-, hpassed⟩ | ⟨-, l, hmet⟩⟩
    · exact ⟨le_rfl, id⟩
    · exact waits_sleeping hne hpassed
    · have hawake := (meets_awake ..).trans hmet.exchanged.awake
      exact ⟨hawake.threadCount.ge, hawake.sleeping t⟩
  | listens _ hlistens =>
    rcases hlistens with ⟨e, rfl⟩ | ⟨_, _, _, _, _, _, _, _, _, _, ⟨-, hpassed⟩ | ⟨-, l, hmet⟩⟩
    · exact ⟨le_rfl, id⟩
    · exact waits_sleeping hne hpassed
    · have hawake := (meets_awake ..).trans hmet.exchanged.awake
      exact ⟨hawake.threadCount.ge, hawake.sleeping t⟩
  | responds _ _ _ hresponded =>
    exact ⟨hresponded.awake.threadCount.ge, hresponded.awake.sleeping t⟩

lemma IrqReceived.sleeping {irq : ℤ} (h : IrqReceived irq k k') :
    k'.threadCount = k.threadCount ∧
      ((k'.thread t).state = .sleeping → (k.thread t).state = .sleeping) := by
  cases h with
  | unknown _ hkept =>
    rw [hkept]
    exact ⟨rfl, id⟩
  | woke n _ m threads _ hwoken =>
    rw [hwoken]
    refine ⟨rfl, fun hsleeps => ?_⟩
    by_cases hm : t = m
    · subst hm
      simp [Kernel.woken] at hsleeps
    · rwa [(woken_thread ..).2.2 hm] at hsleeps
  | remembered n _ _ hoccurred =>
    rw [hoccurred]
    exact ⟨rfl, id⟩

lemma StepDone.sleeping {n : Fin 16} (hok : KernelOk k) (h : StepDone k entry k')
    (ht : t ∈ k.queue (.irq n)) : k.threadCount ≤ k'.threadCount ∧
      (t ∈ k'.queue .run ∨ ((k'.thread t).state = .sleeping → (k.thread t).state = .sleeping)) := by
  obtain ⟨place, hplaced, -⟩ := hok.settled
  have hlt := hok.settled.lt_of_mem ht
  have hpassed : ∀ {k₁ k₂ : Kernel}, k₁.threadCount = k.threadCount →
      ((k₁.thread t).state = .sleeping → (k.thread t).state = .sleeping) → Passed k₁ k₂ →
      k.threadCount ≤ k₂.threadCount ∧
        ((k₂.thread t).state = .sleeping → (k.thread t).state = .sleeping) := by
    intro k₁ k₂ hcount hstate hpassed
    exact ⟨(hpassed.objects.threadCount.trans hcount).ge, fun h => hstate (hpassed.sleeping t h)⟩
  have hshut : ∀ {i ctx ipc listeners callers k₂},
      Shut i listeners callers ipc (k.setUserContext ctx) k₂ →
      k.threadCount ≤ k₂.threadCount ∧
        ((k₂.thread t).state = .sleeping → (k.thread t).state = .sleeping) := by
    intro i ctx ipc listeners callers k₂ hshut
    refine ⟨hshut.threadCount.ge, fun hstate => ?_⟩
    rw [hshut.others t fun c hc => ?_] at hstate
    · exact hstate
    · have hplace := (hplaced.queue _ t).mp ht
      rw [(hplaced.queue _ t).mp hc] at hplace
      cases hplace
  cases h with
  | returns hcurrent hdone =>
    have hsleeping := hdone.sleeping hlt (hplaced.ne_of_irq_current ht hcurrent)
    exact ⟨hsleeping.1, .inr hsleeping.2⟩
  | exits hcurrent hdone =>
    have hsleeping := hdone.sleeping hlt (hplaced.ne_of_irq_current ht hcurrent)
    exact ⟨hsleeping.1, .inr hsleeping.2⟩
  | @tick ctx k'' hp =>
    have hsleeping := @hpassed (k.setUserContext ctx) k' rfl id hp
    exact ⟨hsleeping.1, .inr hsleeping.2⟩
  | @interrupt irq ctx k₀ k₁ k'' hdisabled hreceived hp =>
    obtain ⟨hcount, hstate⟩ := @IrqReceived.sleeping k₀ k₁ t irq hreceived
    have hsame : k₀.threadCount = k.threadCount ∧ k₀.thread = k.thread := by
      rcases hdisabled with rfl | ⟨n, -, rfl⟩
      · exact ⟨rfl, rfl⟩
      · exact ⟨rfl, rfl⟩
    rw [hsame.2] at hstate
    have hsleeping := @hpassed (k₁.setUserContext ctx) k' (hcount.trans hsame.1) hstate hp
    exact ⟨hsleeping.1, .inr hsleeping.2⟩
  | closeIpc _ hclosed => exact ⟨(hshut hclosed).1, .inr (hshut hclosed).2⟩
  | @closeIrq m value ctx k'' hwoke =>
    refine ⟨hwoke.objects.threadCount.ge, ?_⟩
    by_cases hm : t ∈ k.queue (.irq m)
    · refine .inl ?_
      change t ∈ k''.queue .run
      rw [hwoke.run]
      exact List.mem_append_right _ hm
    · refine .inr fun hstate => ?_
      change (k''.thread t).state = .sleeping at hstate
      rwa [hwoke.others t hm] at hstate
  | closeModule => exact ⟨le_rfl, .inr id⟩
  | closeServer _ hclosed => exact ⟨(hshut hclosed).1, .inr (hshut hclosed).2⟩

section

variable {m : ThreadId} {ctx : Registers} {i c : ℕ} {ipc : IpcImpl}

lemma StartsWaiting.not_blocked {state : ChannelState}
    (h : StartsWaiting m ctx i c ipc state k k') (hblocked : ¬ k.Blocked t)
    (hcurrent : k.currentThread ≠ some t) : ¬ k'.Blocked t := by
  rintro (⟨j, d, hq⟩ | ⟨l, hl⟩)
  · by_cases hchannel : j = i ∧ d = c
    · obtain ⟨rfl, rfl⟩ := hchannel
      rw [h.queue, List.mem_append, List.mem_singleton] at hq
      rcases hq with hq | rfl
      · exact hblocked (.inl ⟨j, d, hq⟩)
      · exact hcurrent h.current
    · rw [not_and] at hchannel
      rw [h.queues j d hchannel] at hq
      exact hblocked (.inl ⟨j, d, hq⟩)
  · rw [h.owed] at hl
    exact hblocked (.inr ⟨l, hl⟩)

lemma Meets.not_blocked {peer caller listener : ThreadId} {mode : ℕ} (hplaced : Placed k place)
    (h : Meets m ctx i c ipc peer caller listener mode k k') (hroles : caller = m ∨ caller = peer)
    (hblocked : ¬ k.Blocked t) (hcurrent : k.currentThread ≠ some t) : ¬ k'.Blocked t := by
  rintro (⟨j, d, hq⟩ | ⟨l, hl⟩)
  · exact hblocked (.inl ⟨j, d, ((h.mem_iff hplaced).mp hq).1⟩)
  · by_cases hlistener : l = listener
    · subst hlistener
      rcases h.outcome with hdelivered | hfailed
      · have hcaller := Option.some.inj (hdelivered.owes.symm.trans hl)
        rcases hroles with rfl | rfl
        · exact hcurrent (hcaller ▸ h.current)
        · refine hblocked (.inl ⟨i, c, ?_⟩)
          rw [h.queue, hcaller]
          exact List.mem_cons_self
      · rw [hfailed.idle] at hl
        cases hl
    · rw [h.owed l hlistener] at hl
      exact hblocked (.inr ⟨l, hl⟩)

lemma Shut.not_blocked {listeners callers : ErrorCode} (h : Shut i listeners callers ipc k k')
    (hblocked : ¬ k.Blocked t) : ¬ k'.Blocked t := by
  rintro (⟨j, d, hq⟩ | ⟨l, hl⟩)
  · by_cases hj : j = i
    · rw [hj, h.queue] at hq
      exact absurd hq List.not_mem_nil
    · rw [h.queues _ (by simp) (by simp [hj])] at hq
      exact hblocked (.inl ⟨j, d, hq⟩)
  · rw [h.ipcCaller] at hl
    exact hblocked (.inr ⟨l, hl⟩)

end

/-- A thread that is not blocked, and does not run, is not blocked after a step. -/
lemma IpcStep.not_blocked (h : IpcStep k entry k') (hplaced : Placed k place)
    (hblocked : ¬ k.Blocked t) (hcurrent : k.currentThread ≠ some t) : ¬ k'.Blocked t := by
  cases h with
  | kept hkept =>
    rw [Kernel.Blocked.congr hkept.queue hkept.owed]
    exact hblocked
  | callWaits _ _ _ _ _ _ _ h => exact h.not_blocked hblocked hcurrent
  | callMeets _ _ _ _ _ _ h => exact h.not_blocked hplaced (.inl rfl) hblocked hcurrent
  | listenWaits _ _ _ _ _ _ h => exact h.not_blocked hblocked hcurrent
  | listenMeets _ _ _ _ _ h => exact h.not_blocked hplaced (.inr rfl) hblocked hcurrent
  | responds _ h =>
    rintro (⟨j, d, hq⟩ | ⟨l, hl⟩)
    · rw [h.queue] at hq
      exact hblocked (.inl ⟨j, d, hq⟩)
    · rw [h.owed] at hl
      split_ifs at hl
      exact hblocked (.inr ⟨l, hl⟩)
  | closesCall _ h =>
    have hshut := h.not_blocked hblocked
    exact hshut
  | closesListen _ h =>
    have hshut := h.not_blocked hblocked
    exact hshut

end

end Fluke
