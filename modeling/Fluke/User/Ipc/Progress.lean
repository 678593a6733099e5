import Fluke.User.Steps

/-!
# What a step does to calls

A thread is blocked when it waits in a channel or for a response. A step leaves the blocked threads
alone, or one thread starts to wait, two threads meet, one responds, or an end of an object is
closed.
-/

namespace Fluke

open Outcome

/-- The thread waits in a channel, or for a response. -/
def Kernel.Blocked (k : Kernel) (t : ThreadId) : Prop :=
  (∃ i c, t ∈ k.queue (.channel i c)) ∨ ∃ l, (k.thread l).ipcCaller = some t

/-- The blocked threads stay as they are. -/
structure BlockedKept (k k' : Kernel) : Prop where
  queue : ∀ i c, k'.queue (.channel i c) = k.queue (.channel i c)
  ctx : ∀ t, k.Blocked t → (k'.thread t).ctx = (k.thread t).ctx
  owed : ∀ l, (k'.thread l).ipcCaller = (k.thread l).ipcCaller
  ipcs : ∀ i ipc, k.ipcs i = some ipc → k'.ipcs i = some ipc
  created : ∀ i ipc, k'.ipcs i = some ipc → k.ipcs i = none → k.ipcCount ≤ i ∧
    ipc.closedCall = false ∧ ipc.closedListen = false ∧
    ipc.channels = List.replicate ipc.channelCount .empty
  ipcCount : k.ipcCount ≤ k'.ipcCount
  freed : k'.freed = k.freed

/-- The running thread starts to wait in a channel. -/
structure StartsWaiting (t : ThreadId) (ctx : Registers) (i c : ℕ) (ipc : IpcImpl)
    (state : ChannelState) (k k' : Kernel) : Prop where
  current : k.currentThread = some t
  queue : k'.queue (.channel i c) = k.queue (.channel i c) ++ [t]
  queues : ∀ j d, (j = i → d ≠ c) → k'.queue (.channel j d) = k.queue (.channel j d)
  self : (k'.thread t).ctx = ctx
  others : ∀ m, k.Blocked m → (k'.thread m).ctx = (k.thread m).ctx
  owed : ∀ l, (k'.thread l).ipcCaller = (k.thread l).ipcCaller
  ipcs : ∀ j, k'.ipcs j =
    if j = i then some { ipc with channels := ipc.channels.set c state } else k.ipcs j
  ipcCount : k'.ipcCount = k.ipcCount
  freed : k'.freed = k.freed

/-- The registers of a thread that the running one, `t`, meets, or its own -/
def Kernel.meetingCtx (k : Kernel) (t : ThreadId) (ctx : Registers) (m : ThreadId) : Registers :=
  if m = t then ctx else (k.thread m).ctx

/-- The message of the call is delivered: the listener runs with it. -/
structure MessageDelivered (caller listener : ThreadId) (callerCtx listenerCtx : Registers)
    (transferMode : ℕ) (k' : Kernel) : Prop where
  running : k'.currentThread = some listener
  listenerCtx : (k'.thread listener).ctx = messageCtx callerCtx listenerCtx transferMode
    (messageLenMode callerCtx listenerCtx transferMode).1
    (messageLenMode callerCtx listenerCtx transferMode).2
  callerCtx : (k'.thread caller).ctx = { callerCtx with a3 := waitingMode callerCtx transferMode }
  owes : (k'.thread listener).ipcCaller = some caller

/-- Both threads return with an error. -/
structure MessageFailed (caller listener : ThreadId) (k' : Kernel) : Prop where
  codes : ((k'.thread caller).ctx.r0 = ErrorCode.E2BIG.negated ∨
      (k'.thread caller).ctx.r0 = ErrorCode.EFAULT.negated) ∧
      (k'.thread listener).ctx.r0 = ErrorCode.ipcIo.negated ∨
    (k'.thread caller).ctx.r0 = ErrorCode.ipcIo.negated ∧
      (k'.thread listener).ctx.r0 = ErrorCode.EFAULT.negated
  idle : (k'.thread listener).ipcCaller = none

/-- No thread falls asleep or starts to wait for an interrupt. -/
structure Awake (k k' : Kernel) : Prop where
  sleeping : ∀ m, (k'.thread m).state = .sleeping → (k.thread m).state = .sleeping
  irq : ∀ n, ∀ m ∈ k'.queue (.irq n), m ∈ k.queue (.irq n)
  threadCount : k'.threadCount = k.threadCount

/-- The running thread `t` meets the first one of a channel. -/
structure Meets (t : ThreadId) (ctx : Registers) (i c : ℕ) (ipc : IpcImpl)
    (peer caller listener : ThreadId) (transferMode : ℕ) (k k' : Kernel) : Prop where
  current : k.currentThread = some t
  queue : k.queue (.channel i c) = peer :: k'.queue (.channel i c)
  queues : ∀ j d, (j = i → d ≠ c) → k'.queue (.channel j d) = k.queue (.channel j d)
  others : ∀ m, k.Blocked m → m ≠ peer → (k'.thread m).ctx = (k.thread m).ctx
  idle : (k.thread listener).ipcCaller = none
  owed : ∀ l, l ≠ listener → (k'.thread l).ipcCaller = (k.thread l).ipcCaller
  outcome : MessageDelivered caller listener (k.meetingCtx t ctx caller)
      (k.meetingCtx t ctx listener) transferMode k' ∨ MessageFailed caller listener k'
  ipcs : k'.ipcs = k.ipcs ∨ k'.queue (.channel i c) = [] ∧ ∀ j, k'.ipcs j =
    if j = i then some { ipc with channels := ipc.channels.set c .empty } else k.ipcs j
  awake : Awake k k'
  ipcCount : k'.ipcCount = k.ipcCount
  freed : k'.freed = k.freed

/-- The running thread `t` responds. -/
structure Responds (t caller : ThreadId) (ctx : Registers) (k k' : Kernel) : Prop where
  current : k.currentThread = some t
  owes : (k.thread t).ipcCaller = some caller
  queue : ∀ i c, k'.queue (.channel i c) = k.queue (.channel i c)
  others : ∀ m, k.Blocked m → m ≠ caller → (k'.thread m).ctx = (k.thread m).ctx
  owed : ∀ l, (k'.thread l).ipcCaller = if l = t then none else (k.thread l).ipcCaller
  answer : ∃ flow k'', k''.thread = k'.thread ∧ Answer t caller (k.setUserContext ctx) (flow, k'')
  ipcs : k'.ipcs = k.ipcs
  awake : Awake k k'
  ipcCount : k'.ipcCount = k.ipcCount
  freed : k'.freed = k.freed

/-- What an entry does to calls -/
inductive IpcStep (k : Kernel) : Entry → Kernel → Prop
  | kept {entry : Entry} {k' : Kernel} (h : BlockedKept k k') : IpcStep k entry k'
  | callWaits {t : ThreadId} {ctx : Registers} {s : Surroundings} {i c : ℕ} {ipc : IpcImpl}
      {state : ChannelState} {transferMode : ℕ} {k' : Kernel}
      (hdescriptor : s.descriptor = .ok (.ipc i)) (hi : k.ipcs i = some ipc)
      (hopen : ipc.closedCall = false ∧ ipc.closedListen = false)
      (hmode : ModeOf ctx transferMode) (hmap : ipc.transferMap[transferMode]? = some (c + 1))
      (hs : ipc.channels[c]? = some state) (hstate : state ≠ .listening)
      (h : StartsWaiting t { ctx with a0 := transferMode } i c ipc .calling k k') :
      IpcStep k (.syscall ctx s) k'
  | callMeets {t listener : ThreadId} {ctx : Registers} {s : Surroundings} {i c : ℕ}
      {ipc : IpcImpl} {transferMode : ℕ} {k' : Kernel}
      (hdescriptor : s.descriptor = .ok (.ipc i)) (hi : k.ipcs i = some ipc)
      (hopen : ipc.closedCall = false ∧ ipc.closedListen = false)
      (hmode : ModeOf ctx transferMode) (hmap : ipc.transferMap[transferMode]? = some (c + 1))
      (hs : ipc.channels[c]? = some .listening)
      (h : Meets t { ctx with a0 := transferMode } i c ipc listener t listener transferMode k k') :
      IpcStep k (.syscall ctx s) k'
  | listenWaits {t : ThreadId} {ctx : Registers} {s : Surroundings} {c : ℕ} {ipc : IpcImpl}
      {state : ChannelState} {k' : Kernel} (hnumber : ctx.r0 = syscallIpcListen)
      (hi : k.ipcs ctx.a0 = some ipc)
      (hopen : ipc.closedCall = false ∧ ipc.closedListen = false) (hid : ctx.a3 = c + 1)
      (hs : ipc.channels[c]? = some state) (hstate : state ≠ .calling)
      (h : StartsWaiting t ctx ctx.a0 c ipc .listening k k') : IpcStep k (.syscall ctx s) k'
  | listenMeets {t caller : ThreadId} {ctx : Registers} {s : Surroundings} {c : ℕ}
      {ipc : IpcImpl} {k' : Kernel} (hnumber : ctx.r0 = syscallIpcListen)
      (hi : k.ipcs ctx.a0 = some ipc)
      (hopen : ipc.closedCall = false ∧ ipc.closedListen = false) (hid : ctx.a3 = c + 1)
      (hs : ipc.channels[c]? = some .calling)
      (h : Meets t ctx ctx.a0 c ipc caller caller t (k.thread caller).ctx.a0 k k') :
      IpcStep k (.syscall ctx s) k'
  | responds {t caller : ThreadId} {ctx : Registers} {s : Surroundings} {k' : Kernel}
      (hnumber : ctx.r0 = syscallIpcRespond) (h : Responds t caller ctx k k') :
      IpcStep k (.syscall ctx s) k'
  | closesCall {i value : ℕ} {ctx : Registers} {ipc : IpcImpl} {k' : Kernel}
      (hi : k.ipcs i = some ipc)
      (h : Shut i .EPIPE .EBADF { ipc with closedCall := true } (k.setUserContext ctx) k') :
      IpcStep k (.close (.ipc i) ctx value) (k'.returned value)
  | closesListen {i : ℕ} {ctx : Registers} {ipc : IpcImpl} {k' : Kernel}
      (hi : k.ipcs i = some ipc)
      (h : Shut i .EBADF .EPIPE { ipc with closedListen := true } (k.setUserContext ctx) k') :
      IpcStep k (.closeServer i ctx) (k'.returned 0)

section

variable {k k' : Kernel} {t : ThreadId} {place : ThreadId → Place}

/-- The places of a thread that is blocked -/
lemma Placed.blocked_iff (h : Placed k place) (t : ThreadId) :
    k.Blocked t ↔ (∃ i c, place t = .queued (.channel i c)) ∨ ∃ l, place t = .calling l := by
  unfold Kernel.Blocked
  simp only [h.queue, h.caller]

/-- A thread in another place is not blocked. -/
lemma Placed.not_blocked (h : Placed k place)
    (hplace : (∀ i c, place t ≠ .queued (.channel i c)) ∧ ∀ l, place t ≠ .calling l) :
    ¬ k.Blocked t := by
  rw [h.blocked_iff]
  rintro (⟨i, c, hq⟩ | ⟨l, hl⟩)
  · exact hplace.1 i c hq
  · exact hplace.2 l hl

lemma Placed.ne_of_blocked (h : Placed k place) {m : ThreadId} (hm : k.Blocked m)
    (hplace : (∀ i c, place t ≠ .queued (.channel i c)) ∧ ∀ l, place t ≠ .calling l) : m ≠ t := by
  rintro rfl
  exact h.not_blocked hplace hm

lemma Placed.ne_of_current (h : Placed k place) (ht : k.currentThread = some t) {m : ThreadId}
    (hm : k.Blocked m) : m ≠ t := by
  refine h.ne_of_blocked hm ?_
  rw [(h.current t).mp ht]
  exact ⟨fun i c heq => (by cases heq), fun l heq => (by cases heq)⟩

lemma Awake.trans {k'' : Kernel} (h : Awake k k') (h' : Awake k' k'') : Awake k k'' :=
  ⟨fun m hm => h.sleeping m (h'.sleeping m hm), fun n m hm => h.irq n m (h'.irq n m hm),
    h'.threadCount.trans h.threadCount⟩

lemma Awake.of_eq {k'' : Kernel} (h : Awake k k') (hthread : k''.thread = k'.thread)
    (hqueue : k''.queue = k'.queue) (hcount : k''.threadCount = k'.threadCount) : Awake k k'' :=
  ⟨fun m hm => h.sleeping m (hthread ▸ hm), fun n m hm => h.irq n m (hqueue ▸ hm),
    hcount.trans h.threadCount⟩

lemma Awake.of_context {ctx : Registers} (h : Awake (k.setUserContext ctx) k') : Awake k k' :=
  ⟨h.sleeping, h.irq, h.threadCount⟩

lemma Exchanged.awake {caller listener : ThreadId} (h : Exchanged caller listener k k') :
    Awake k k' := by
  refine ⟨h.sleeping, fun n m hm => ?_, h.objects.threadCount⟩
  obtain ⟨woken, -, hqueue⟩ := h.irq n
  rw [hqueue] at hm
  exact List.mem_of_mem_filter hm

lemma Responded.awake {caller : ThreadId} {r : Flow (Result ℕ) × Kernel}
    (h : Responded t caller k r) : Awake k r.2 := by
  refine ⟨h.sleeping, fun n m hm => ?_, h.objects.threadCount⟩
  obtain ⟨woken, -, hqueue⟩ := h.irq n
  rw [hqueue] at hm
  exact List.mem_of_mem_filter hm

/-- A state with the same channels and the same calls in progress has the same blocked threads. -/
lemma Kernel.Blocked.congr (hqueue : ∀ i c, k'.queue (.channel i c) = k.queue (.channel i c))
    (howed : ∀ l, (k'.thread l).ipcCaller = (k.thread l).ipcCaller) (m : ThreadId) :
    k'.Blocked m ↔ k.Blocked m := by
  unfold Kernel.Blocked
  simp only [hqueue, howed]

lemma BlockedKept.of_eq (hqueue : k'.queue = k.queue) (hthread : k'.thread = k.thread)
    (hipcs : k'.ipcs = k.ipcs) (hcount : k'.ipcCount = k.ipcCount) (hfreed : k'.freed = k.freed) :
    BlockedKept k k' := by
  refine ⟨fun i c => by rw [hqueue], fun t _ => by rw [hthread], fun l => by rw [hthread],
    fun i ipc hi => by rw [hipcs, hi], fun i ipc hi hnone => ?_, hcount.ge, hfreed⟩
  rw [hipcs, hnone] at hi
  cases hi

/-- Whatever happens to threads that are not blocked, and to the processor -/
lemma BlockedKept.passed {k₁ : Kernel} (h : BlockedKept k k₁) (hplaced : Placed k₁ place)
    (hpassed : Passed k₁ k') : BlockedKept k k' := by
  refine ⟨fun i c => (hpassed.channel i c).trans (h.queue i c), fun m hm => ?_,
    fun l => (hpassed.ipcCaller l).trans (h.owed l), fun i ipc hi => ?_, fun i ipc hi => ?_,
    h.ipcCount.trans hpassed.objects.ipcCount.ge, hpassed.objects.freed.trans h.freed⟩
  · have hm₁ : k₁.Blocked m := (Kernel.Blocked.congr h.queue h.owed m).mpr hm
    rw [hpassed.ctx m fun hcurrent => hplaced.ne_of_current hcurrent hm₁ rfl, h.ctx m hm]
  · rw [hpassed.objects.ipcs]
    exact h.ipcs i ipc hi
  · rw [hpassed.objects.ipcs] at hi
    exact h.created i ipc hi

lemma BlockedKept.controlled {n : Fin 16} {op : ℕ} {r : Flow (Result ℕ) × Kernel}
    (hplaced : Placed k place) (hcurrent : k.currentThread = some t)
    (hr : IrqControlled t n op k r) : BlockedKept k r.2 := by
  cases hr with
  | invalid => exact .of_eq rfl rfl rfl rfl rfl
  | done => exact .of_eq rfl rfl rfl rfl rfl
  | waited _ _ enabled hwaited =>
    cases hwaited with
    | pending => exact .of_eq rfl rfl rfl rfl rfl
    | expired => exact .of_eq rfl rfl rfl rfl rfl
    | waits _ _ hpassed =>
      have hplaced' := hplaced.setIrq n { k.irqs n with enabled := enabled }
      have hrunning := (hplaced.current t).mp hcurrent
      refine BlockedKept.passed ?_ (hplaced'.irqWaits hrunning n _) hpassed
      refine ⟨fun i c => ?_, fun m hm => ?_, fun l => ?_, fun i ipc hi => hi,
        fun i ipc hi hnone => ?_, le_rfl, rfl⟩
      · rw [irqWaits_queue, if_neg (by simp)]
        rfl
      · rw [irqWaits_thread, if_neg (hplaced.ne_of_current hcurrent hm)]
        rfl
      · rw [irqWaits_thread]
        split_ifs with hl
        · rw [hl]
          rfl
        · rfl
      · change k.ipcs i = _ at hi
        rw [hnone] at hi
        cases hi

lemma BlockedKept.slept {r : Flow (Result ℕ) × Kernel} (hplaced : Placed k place)
    (hcurrent : k.currentThread = some t) (hr : Slept t k r) : BlockedKept k r.2 := by
  cases hr with
  | refused => exact .of_eq rfl rfl rfl rfl rfl
  | sleeps _ hpassed =>
    have hplaced' := hplaced.setUserContext { k.userContext with r0 := 0 }
    have hrunning := (hplaced.current t).mp hcurrent
    refine BlockedKept.passed ?_ (hplaced'.sleeps hrunning _) hpassed
    refine ⟨fun i c => rfl, fun m hm => ?_, fun l => ?_, fun i ipc hi => hi,
      fun i ipc hi hnone => ?_, le_rfl, rfl⟩
    · rw [sleeps_thread, if_neg (hplaced.ne_of_current hcurrent hm)]
      rfl
    · rw [sleeps_thread]
      split_ifs with hl
      · rw [hl]
        rfl
      · rfl
    · change k.ipcs i = _ at hi
      rw [hnone] at hi
      cases hi

lemma BlockedKept.added (hplaced : Placed k place) (hidle : NewIdle k) (ctx : Registers) :
    BlockedKept k (k.added ctx) := by
  refine ⟨fun i c => added_queue k ctx (by simp), fun m hm => ?_, fun l => ?_,
    fun i ipc hi => hi, fun i ipc hi hnone => ?_, le_rfl, rfl⟩
  · have hne : m ≠ k.threadCount := by
      refine hplaced.ne_of_blocked hm ?_
      rw [(hplaced.absent _).mpr le_rfl]
      exact ⟨fun i c heq => (by cases heq), fun l heq => (by cases heq)⟩
    rw [added_thread, if_neg hne]
  · rw [added_thread]
    split_ifs with hl
    · rw [hl, hidle _ le_rfl]
      rfl
    · rfl
  · change k.ipcs i = _ at hi
    rw [hnone] at hi
    cases hi

lemma BlockedKept.newObject (hipcs : IpcsOk k) {ipc : IpcImpl}
    (hopen : ipc.closedCall = false ∧ ipc.closedListen = false)
    (hempty : ipc.channels = List.replicate ipc.channelCount .empty) :
    BlockedKept k (k.created ipc) := by
  refine ⟨fun i c => rfl, fun m _ => rfl, fun l => rfl, fun i o hi => ?_,
    fun i o hi hnone => ?_, Nat.le_succ _, rfl⟩
  · have hne : i ≠ k.ipcCount := by
      rintro rfl
      rw [hipcs.fresh _ le_rfl] at hi
      cases hi
    rw [Kernel.created, Kernel.setIpc_ipcs, if_neg hne]
    exact hi
  · rw [Kernel.created, Kernel.setIpc_ipcs] at hi
    split_ifs at hi with hnew
    · cases hi
      exact ⟨hnew.ge, hopen.1, hopen.2, hempty⟩
    · change k.ipcs i = _ at hi
      rw [hnone] at hi
      cases hi

section

variable {ctx : Registers} {i c : ℕ} {ipc : IpcImpl} {state : ChannelState}

lemma waits_queues (k : Kernel) (t : ThreadId) (ctx : Registers) (ipc : IpcImpl)
    (state : ChannelState) {j d : ℕ} (hne : j = i → d ≠ c) :
    (k.waits t ctx i c ipc state).queue (.channel j d) = k.queue (.channel j d) := by
  simp only [Kernel.waits, Kernel.pushed, Kernel.setThread_queue, Kernel.setQueue_queue,
    QueueId.channel.injEq]
  rw [if_neg fun heq => hne heq.1 heq.2]
  rfl

lemma StartsWaiting.of_passed (hplaced : Placed k place) (hcurrent : k.currentThread = some t)
    (hpassed : Passed (k.waits t ctx i c ipc state) k') :
    StartsWaiting t ctx i c ipc state k k' := by
  have hctx : ∀ m, (k'.thread m).ctx = if m = t then ctx else (k.thread m).ctx := fun m => by
    rw [hpassed.ctx m (by simp [Kernel.waits, Kernel.pushed, Kernel.setChannelState, Kernel.held,
      Kernel.setCtx, Kernel.saved]), waits_ctx]
  refine ⟨hcurrent, ?_, fun j d hne => ?_, ?_, fun m hm => ?_, fun l => ?_, fun j => ?_,
    hpassed.objects.ipcCount, hpassed.objects.freed⟩
  · rw [hpassed.channel, waits_queue]
  · rw [hpassed.channel, waits_queues k t ctx ipc state hne]
  · rw [hctx, if_pos rfl]
  · rw [hctx, if_neg (hplaced.ne_of_current hcurrent hm)]
  · rw [hpassed.ipcCaller, waits_ipcCaller]
  · rw [hpassed.objects.ipcs]
    simp [Kernel.waits, Kernel.pushed, Kernel.setChannelState, Kernel.held, Kernel.saved,
      Kernel.setCtx]

lemma meets_queue (k : Kernel) (t : ThreadId) (ctx : Registers) (i c : ℕ) (ipc : IpcImpl)
    (peer : ThreadId) (q : QueueId) : (k.meets t ctx i c ipc peer).queue q =
      if q = .channel i c then (k.queue (.channel i c)).erase peer else k.queue q := by
  unfold Kernel.meets
  dsimp only
  split_ifs <;> simp_all [Kernel.popped, Kernel.setChannelState, Kernel.held, Kernel.setCtx,
    Kernel.saved]

lemma meets_ctx (hplaced : Placed k place) (hcurrent : k.currentThread = some t) (ctx : Registers)
    (i c : ℕ) (ipc : IpcImpl) {peer : ThreadId} (hpeer : k.Blocked peer) (m : ThreadId) :
    ((k.meets t ctx i c ipc peer).thread m).ctx = k.meetingCtx t ctx m := by
  have hne := hplaced.ne_of_current hcurrent hpeer
  rw [meets_thread, Kernel.meetingCtx]
  by_cases hm : m = peer
  · subst hm
    simp [Kernel.popped, Kernel.held, Kernel.setCtx, Kernel.saved, hne]
  · by_cases hmt : m = t
    · subst hmt
      simp [Kernel.popped, Kernel.held, Kernel.setCtx, Kernel.saved, hm]
    · simp [Kernel.popped, Kernel.held, Kernel.setCtx, Kernel.saved, hm, hmt]

lemma meets_awake (k : Kernel) (t : ThreadId) (ctx : Registers) (i c : ℕ) (ipc : IpcImpl)
    (peer : ThreadId) : Awake k (k.meets t ctx i c ipc peer) := by
  refine ⟨fun m hm => ?_, fun n m hm => ?_, (meets_objects ..).1⟩
  · rw [meets_thread] at hm
    by_cases hmp : m = peer
    · subst hmp
      simp [Kernel.popped] at hm
    · by_cases hmt : m = t
      · subst hmt
        simp [Kernel.popped, Kernel.held, Kernel.setCtx, Kernel.saved, hmp] at hm
      · simpa [Kernel.popped, Kernel.held, Kernel.setCtx, Kernel.saved, hmp, hmt] using hm
  · rwa [meets_queue, if_neg (by simp)] at hm

lemma meets_ipcs (k : Kernel) (t : ThreadId) (ctx : Registers) (i c : ℕ) (ipc : IpcImpl)
    (peer : ThreadId) : (k.meets t ctx i c ipc peer).ipcs = k.ipcs ∨
      (k.meets t ctx i c ipc peer).queue (.channel i c) = [] ∧
        ∀ j, (k.meets t ctx i c ipc peer).ipcs j =
          if j = i then some { ipc with channels := ipc.channels.set c .empty }
          else k.ipcs j := by
  unfold Kernel.meets
  dsimp only
  split_ifs with hempty
  · refine .inr ⟨hempty, fun j => ?_⟩
    simp [Kernel.setChannelState, Kernel.popped, Kernel.held, Kernel.setCtx, Kernel.saved]
  · exact .inl rfl

/-- Two threads met, of which one runs and the other is the first of the channel. -/
lemma Meets.of_met (hplaced : Placed k place) (hcurrent : k.currentThread = some t)
    {peer caller listener : ThreadId} {transferMode : ℕ}
    (hroles : caller = t ∧ listener = peer ∨ caller = peer ∧ listener = t)
    (hmet : Met k t ctx i c ipc peer caller listener transferMode k') :
    Meets t ctx i c ipc peer caller listener transferMode k k' := by
  obtain ⟨threads, hq⟩ : ∃ threads, k.queue (.channel i c) = peer :: threads := by
    have hfirst := hmet.first
    cases hq : k.queue (.channel i c) with
    | nil =>
      rw [hq] at hfirst
      cases hfirst
    | cons m threads =>
      rw [hq] at hfirst
      exact ⟨threads, by rw [Option.some.inj hfirst]⟩
  have hpeer : k.Blocked peer := .inl ⟨i, c, by rw [hq]; exact List.mem_cons_self⟩
  have hctx := fun m => meets_ctx hplaced hcurrent ctx i c ipc hpeer m
  have hqueue : ∀ j d, k'.queue (.channel j d) = if QueueId.channel j d = .channel i c
      then threads else k.queue (.channel j d) := fun j d => by
    rw [hmet.exchanged.channel, meets_queue, hq, List.erase_cons_head]
  have hother : ∀ m, k.Blocked m → m ≠ peer → m ≠ caller ∧ m ≠ listener := by
    intro m hm hne
    have hmt := hplaced.ne_of_current hcurrent hm
    rcases hroles with ⟨rfl, rfl⟩ | ⟨rfl, rfl⟩
    · exact ⟨hmt, hne⟩
    · exact ⟨hne, hmt⟩
  have hcount : (k.meets t ctx i c ipc peer).ipcCount = k.ipcCount ∧
      (k.meets t ctx i c ipc peer).freed = k.freed := by
    unfold Kernel.meets
    dsimp only
    split_ifs
    · exact ⟨rfl, rfl⟩
    · exact ⟨rfl, rfl⟩
  refine ⟨hcurrent, ?_, fun j d hne => ?_, fun m hm hne => ?_, hmet.idle, fun l hl => ?_, ?_, ?_,
    (meets_awake ..).trans hmet.exchanged.awake,
    hmet.exchanged.objects.ipcCount.trans hcount.1, hmet.exchanged.objects.freed.trans hcount.2⟩
  · rw [hqueue, if_pos rfl, hq]
  · rw [hqueue, if_neg]
    rw [QueueId.channel.injEq]
    exact fun heq => hne heq.1 heq.2
  · rw [hmet.exchanged.ctx m (hother m hm hne).1 (hother m hm hne).2, hctx, Kernel.meetingCtx,
      if_neg (hplaced.ne_of_current hcurrent hm)]
  · rw [hmet.exchanged.ipcCaller l hl, meets_ipcCaller]
  · have hfailed : ∀ {m m' : ThreadId} {shame : ErrorCode},
        Failed shame m m' (k.meets t ctx i c ipc peer) k' →
          (k'.thread listener).ipcCaller = none := fun hfailed => by
      rw [hfailed.ipcCaller, meets_ipcCaller]
      exact hmet.idle
    rcases hmet.outcome with hdelivered | hfail | hfail | hfail
    · refine .inl ⟨hdelivered.running, ?_, ?_, hdelivered.ipcCaller⟩
      · rw [hdelivered.listenerCtx, hctx, hctx]
      · rw [hdelivered.callerCtx, hctx]
    · exact .inr ⟨.inl ⟨.inl hfail.guilty, hfail.innocent⟩, hfailed hfail⟩
    · exact .inr ⟨.inl ⟨.inr hfail.guilty, hfail.innocent⟩, hfailed hfail⟩
    · exact .inr ⟨.inr ⟨hfail.innocent, hfail.guilty⟩, hfailed hfail⟩
  · rw [hmet.exchanged.objects.ipcs, hmet.exchanged.channel]
    exact meets_ipcs k t ctx i c ipc peer

lemma Responds.of_responded {caller : ThreadId} {r : Flow (Result ℕ) × Kernel}
    (hplaced : Placed k place) (hcurrent : k.currentThread = some t)
    (howes : (k.thread t).ipcCaller = some caller)
    (hr : Responded t caller (k.setUserContext ctx) r) (hthread : k'.thread = r.2.thread)
    (hqueue : k'.queue = r.2.queue) (hipcs : k'.ipcs = r.2.ipcs)
    (hcount : k'.ipcCount = r.2.ipcCount) (hfreed : k'.freed = r.2.freed)
    (hthreads : k'.threadCount = r.2.threadCount) : Responds t caller ctx k k' := by
  refine ⟨hcurrent, howes, fun j d => ?_, fun m hm hne => ?_, fun l => ?_,
    ⟨r.1, r.2, hthread.symm, hr.answer⟩, hipcs.trans hr.objects.ipcs,
    hr.awake.of_context.of_eq hthread hqueue hthreads, hcount.trans hr.objects.ipcCount,
    hfreed.trans hr.objects.freed⟩
  · rw [hqueue]
    exact hr.channel j d
  · rw [hthread]
    exact hr.ctx m (hplaced.ne_of_current hcurrent hm) hne
  · rw [hthread]
    exact hr.ipcCaller l

end

/-! ### Steps -/

lemma BlockedKept.of_same (h : BlockedKept k k') {k'' : Kernel} (hqueue : k''.queue = k'.queue)
    (hthread : k''.thread = k'.thread) (hipcs : k''.ipcs = k'.ipcs)
    (hcount : k''.ipcCount = k'.ipcCount) (hfreed : k''.freed = k'.freed) : BlockedKept k k'' :=
  ⟨fun i c => by rw [hqueue, h.queue], fun t ht => by rw [hthread, h.ctx t ht],
    fun l => by rw [hthread, h.owed], fun i ipc hi => by rw [hipcs, h.ipcs i ipc hi],
    fun i ipc hi hnone => h.created i ipc (hipcs ▸ hi) hnone, hcount ▸ h.ipcCount,
    hfreed.trans h.freed⟩

lemma BlockedKept.of_context {ctx : Registers} (h : BlockedKept (k.setUserContext ctx) k') :
    BlockedKept k k' :=
  ⟨h.queue, h.ctx, h.owed, h.ipcs, h.created, h.ipcCount, h.freed⟩

lemma BlockedKept.woken (hplaced : Placed k place) {n : Fin 16} {m : ThreadId}
    (hm : m ∈ k.queue (.irq n)) (value : ℕ) : BlockedKept k (k.woken m (.irq n) value) := by
  refine ⟨fun i c => by simp [Kernel.woken], fun b hb => ?_, fun l => (woken_thread ..).2.1,
    fun i ipc hi => hi, fun i ipc hi hnone => ?_, le_rfl, rfl⟩
  · have hne : b ≠ m := by
      refine hplaced.ne_of_blocked hb ?_
      rw [(hplaced.queue _ m).mp hm]
      exact ⟨fun i c heq => (by cases heq), fun l heq => (by cases heq)⟩
    rw [(woken_thread ..).2.2 hne]
  · change k.ipcs i = _ at hi
    rw [hnone] at hi
    cases hi

lemma BlockedKept.received {irq : ℤ} {k₁ : Kernel} (hplaced : Placed k place)
    (h : IrqReceived irq k k₁) : BlockedKept k k₁ ∧ ∃ place₁, Placed k₁ place₁ := by
  cases h with
  | unknown _ hkept =>
    rw [hkept]
    exact ⟨.of_eq rfl rfl rfl rfl rfl, place, hplaced⟩
  | woke n _ m threads hqueue hwoken =>
    have hm : m ∈ k.queue (.irq n) := by
      rw [hqueue]
      exact List.mem_cons_self
    rw [hwoken]
    exact ⟨.woken hplaced hm 1, _, hplaced.woken ((hplaced.queue _ m).mp hm) (by simp) 1⟩
  | remembered n _ _ hoccurred =>
    rw [hoccurred]
    exact ⟨.of_eq rfl rfl rfl rfl rfl, place, hplaced.setIrq n _⟩

lemma BlockedKept.interrupted {irq : ℤ} {ctx : Registers} {k₁ : Kernel} (hplaced : Placed k place)
    (hreceived : IrqReceived irq k k₁) (hpassed : Passed (k₁.setUserContext ctx) k') :
    BlockedKept k k' := by
  obtain ⟨hkept, place₁, hplaced₁⟩ := BlockedKept.received hplaced hreceived
  have hsame : BlockedKept k (k₁.setUserContext ctx) := hkept.of_same rfl rfl rfl rfl rfl
  exact hsame.passed (hplaced₁.setUserContext ctx) hpassed

/-- The threads that wait for an interrupt are not blocked. -/
lemma BlockedKept.wokeAll {n : Fin 16} {value : ℕ} (hplaced : Placed k place)
    (h : WokeAll (.irq n) value k k') : BlockedKept k k' := by
  refine ⟨fun i c => h.queues _ (by simp) (by simp), fun m hm => ?_, h.ipcCaller,
    fun i ipc hi => by rw [h.objects.ipcs, hi], fun i ipc hi hnone => ?_,
    h.objects.ipcCount.ge, h.objects.freed⟩
  · rw [h.others m fun hmem => ?_]
    refine hplaced.not_blocked ?_ hm
    rw [(hplaced.queue _ m).mp hmem]
    exact ⟨fun i c heq => (by cases heq), fun l heq => (by cases heq)⟩
  · rw [h.objects.ipcs, hnone] at hi
    cases hi

/-- The value that is returned does not matter. -/
lemma IpcStep.returned {ctx : Registers} {s : Surroundings} (h : IpcStep k (.syscall ctx s) k')
    (value : ℕ) : IpcStep k (.syscall ctx s) (k'.returned value) := by
  cases h with
  | kept h => exact .kept (h.of_same rfl rfl rfl rfl rfl)
  | callWaits hdescriptor hi hopen hmode hmap hs hstate h =>
    exact .callWaits hdescriptor hi hopen hmode hmap hs hstate ⟨h.current, h.queue, h.queues,
      h.self, h.others, h.owed, h.ipcs, h.ipcCount, h.freed⟩
  | callMeets hdescriptor hi hopen hmode hmap hs h =>
    exact .callMeets hdescriptor hi hopen hmode hmap hs ⟨h.current, h.queue, h.queues, h.others,
      h.idle, h.owed, h.outcome.imp (fun h => ⟨h.1, h.2, h.3, h.4⟩) fun h => ⟨h.1, h.2⟩, h.ipcs,
      h.awake.of_eq rfl rfl rfl, h.ipcCount, h.freed⟩
  | listenWaits hnumber hi hopen hid hs hstate h =>
    exact .listenWaits hnumber hi hopen hid hs hstate ⟨h.current, h.queue, h.queues, h.self,
      h.others, h.owed, h.ipcs, h.ipcCount, h.freed⟩
  | listenMeets hnumber hi hopen hid hs h =>
    exact .listenMeets hnumber hi hopen hid hs ⟨h.current, h.queue, h.queues, h.others,
      h.idle, h.owed, h.outcome.imp (fun h => ⟨h.1, h.2, h.3, h.4⟩) fun h => ⟨h.1, h.2⟩, h.ipcs,
      h.awake.of_eq rfl rfl rfl, h.ipcCount, h.freed⟩
  | responds hnumber h =>
    exact .responds hnumber ⟨h.current, h.owes, h.queue, h.others, h.owed, h.answer, h.ipcs,
      h.awake.of_eq rfl rfl rfl, h.ipcCount, h.freed⟩

lemma SyscallDone.ipcStep {ctx : Registers} {s : Surroundings} {r : Flow (Result ℕ) × Kernel}
    (hok : KernelOk k) (hcurrent : k.currentThread = some t)
    (h : SyscallDone t s (k.setUserContext ctx) r) : IpcStep k (.syscall ctx s) r.2 := by
  obtain ⟨place, hplaced, -⟩ := hok.settled
  have hplaced' := hplaced.setUserContext ctx
  have hkept : ∀ {k''}, BlockedKept (k.setUserContext ctx) k'' → IpcStep k (.syscall ctx s) k'' :=
    fun h => .kept h.of_context
  cases h with
  | other => exact hkept (.of_eq rfl rfl rfl rfl rfl)
  | claims =>
    rcases (k.setUserContext ctx).doSyscallClaimIrq_eq s with heq | ⟨n, -, -, heq⟩
    · rw [heq]
      exact hkept (.of_eq rfl rfl rfl rfl rfl)
    · rw [heq]
      exact hkept (.of_eq rfl rfl rfl rfl rfl)
  | sleeps _ hslept => exact hkept (.slept hplaced' hcurrent hslept)
  | adds userCtx newCtx value =>
    exact hkept (BlockedKept.added (hplaced'.setUserContext userCtx) hok.idle newCtx).of_context
  | creates ipc hopen hempty userCtx value =>
    have hnew := BlockedKept.newObject (hok.ipcs.setUserContext ctx) hopen hempty
    exact hkept (hnew.of_same rfl rfl rfl rfl rfl)
  | controls _ _ _ _ hcontrolled => exact hkept (.controlled hplaced' hcurrent hcontrolled)
  | calls i transferMode hdescriptor hmode hcall =>
    rcases hcall with ⟨e, rfl⟩ | ⟨ipc, c, state, hi, hcall, hlisten, hmap, hc, hs, -,
      ⟨hstate, hpassed⟩ | ⟨rfl, listener, hmet⟩⟩
    · exact hkept (.of_eq rfl rfl rfl rfl rfl)
    · have h := StartsWaiting.of_passed hplaced' hcurrent hpassed
      exact .callWaits hdescriptor hi ⟨hcall, hlisten⟩ hmode hmap hs hstate ⟨h.current, h.queue,
        h.queues, h.self, h.others, h.owed, h.ipcs, h.ipcCount, h.freed⟩
    · have h := Meets.of_met hplaced' hcurrent (.inl ⟨rfl, rfl⟩) hmet
      exact .callMeets hdescriptor hi ⟨hcall, hlisten⟩ hmode hmap hs ⟨h.current, h.queue,
        h.queues, h.others, h.idle, h.owed, h.outcome, h.ipcs, h.awake.of_context, h.ipcCount,
        h.freed⟩
  | listens hnumber hlistens =>
    rcases hlistens with ⟨e, rfl⟩ | ⟨ipc, c, state, hi, hcall, hlisten, hid, hc, hs, -,
      ⟨hstate, hpassed⟩ | ⟨rfl, caller, hmet⟩⟩
    · exact hkept (.of_eq rfl rfl rfl rfl rfl)
    · have h := StartsWaiting.of_passed hplaced' hcurrent hpassed
      exact .listenWaits hnumber hi ⟨hcall, hlisten⟩ hid hs hstate ⟨h.current, h.queue,
        h.queues, h.self, h.others, h.owed, h.ipcs, h.ipcCount, h.freed⟩
    · have h := Meets.of_met hplaced' hcurrent (.inr ⟨rfl, rfl⟩) hmet
      exact .listenMeets hnumber hi ⟨hcall, hlisten⟩ hid hs ⟨h.current, h.queue,
        h.queues, h.others, h.idle, h.owed, h.outcome, h.ipcs, h.awake.of_context, h.ipcCount,
        h.freed⟩
  | responds hnumber caller howed hresponded =>
    exact .responds hnumber
      (.of_responded hplaced hcurrent howed hresponded rfl rfl rfl rfl rfl rfl)

/-- What an entry does to calls, from what it does -/
lemma StepDone.ipcStep {entry : Entry} (hok : KernelOk k) (h : StepDone k entry k') :
    IpcStep k entry k' := by
  obtain ⟨place, hplaced, hno⟩ := hok.settled
  cases h with
  | returns hcurrent hdone => exact (hdone.ipcStep hok hcurrent).returned _
  | exits hcurrent hdone => exact hdone.ipcStep hok hcurrent
  | @tick ctx k' hpassed =>
    have hsame : BlockedKept k (k.setUserContext ctx) := .of_eq rfl rfl rfl rfl rfl
    exact .kept (hsame.passed (hplaced.setUserContext ctx) hpassed)
  | interrupt hdisabled hreceived hpassed =>
    rcases hdisabled with rfl | ⟨n, -, rfl⟩
    · exact .kept (.interrupted hplaced hreceived hpassed)
    · have h := BlockedKept.interrupted (hplaced.setIrq n _) hreceived hpassed
      exact .kept ⟨h.queue, h.ctx, h.owed, h.ipcs, h.created, h.ipcCount, h.freed⟩
  | closeIpc hi hshut => exact .closesCall hi hshut
  | @closeIrq n value ctx k'' hwoke =>
    have hplaced' := (hplaced.setUserContext ctx).setIrq n { k.irqs n with isClaimed := false }
    have h := BlockedKept.wokeAll hplaced' hwoke
    exact .kept ⟨h.queue, h.ctx, h.owed, h.ipcs, h.created, h.ipcCount, h.freed⟩
  | closeModule => exact .kept (.of_eq rfl rfl rfl rfl rfl)
  | closeServer hi hshut => exact .closesListen hi hshut

end

end Fluke
