import Fluke.User.Entries

/-!
# Steps of the kernel

The kernel goes from one entry to the next. Between entries every thread is in one place, and the
channels of the IPC objects are true to their queues. A step that does not stop keeps this; what
can stop one is listed as well.
-/

namespace Fluke

open Outcome

/-- A system call comes from a thread that runs. -/
def Entry.Admitted (entry : Entry) (k : Kernel) : Prop :=
  match entry with
  | .syscall _ s => k.currentThread.isSome ∧ s.Valid
  | .interrupt _ _ => True
  | .close _ _ _ => k.currentThread.isSome
  | .closeServer _ _ => k.currentThread.isSome

/-- What holds between entries -/
structure KernelOk (k : Kernel) : Prop where
  settled : Settled k
  ipcs : IpcsOk k
  idle : NewIdle k

/-- The value that a system call returns -/
def resultValue : Result ℕ → ℕ
  | .ok value => value
  | .error e => e.negated

/-- The thread goes on with the value. -/
def Kernel.returned (k : Kernel) (value : ℕ) : Kernel :=
  k.setUserContext { k.userContext with r0 := value }

/-- What an entry does -/
inductive StepDone (k : Kernel) : Entry → Kernel → Prop
  | returns {t : ThreadId} {ctx : Registers} {s : Surroundings} {result : Result ℕ} {k' : Kernel}
      (hcurrent : k.currentThread = some t)
      (hdone : SyscallDone t s (k.setUserContext ctx) (.returns result, k')) :
      StepDone k (.syscall ctx s) (k'.returned (resultValue result))
  | exits {t : ThreadId} {ctx : Registers} {s : Surroundings} {k' : Kernel}
      (hcurrent : k.currentThread = some t)
      (hdone : SyscallDone t s (k.setUserContext ctx) (.exits, k')) :
      StepDone k (.syscall ctx s) k'
  | tick {ctx : Registers} {k' : Kernel} (hpassed : Passed (k.setUserContext ctx) k') :
      StepDone k (.interrupt none ctx) k'
  | interrupt {irq : ℤ} {ctx : Registers} {k₀ k₁ k' : Kernel}
      (hdisabled : k₀ = k ∨ ∃ n, irqIndex irq = some n ∧
        k₀ = k.setIrq n { k.irqs n with enabled := false })
      (hreceived : IrqReceived irq k₀ k₁) (hpassed : Passed (k₁.setUserContext ctx) k') :
      StepDone k (.interrupt (some irq) ctx) k'
  | closeIpc {i value : ℕ} {ctx : Registers} {ipc : IpcImpl} {k' : Kernel}
      (hipc : k.ipcs i = some ipc)
      (hshut : Shut i .EPIPE .EBADF { ipc with closedCall := true } (k.setUserContext ctx) k') :
      StepDone k (.close (.ipc i) ctx value) (k'.returned value)
  | closeIrq {n : Fin 16} {value : ℕ} {ctx : Registers} {k' : Kernel}
      (hwoke : WokeAll (.irq n) ErrorCode.EBADF.negated
        ((k.setUserContext ctx).setIrq n { k.irqs n with isClaimed := false }) k') :
      StepDone k (.close (.irq n) ctx value) (k'.returned value)
  | closeModule {n value : ℕ} {ctx : Registers} :
      StepDone k (.close (.module n) ctx value) ((k.setUserContext ctx).returned value)
  | closeServer {i : ℕ} {ctx : Registers} {ipc : IpcImpl} {k' : Kernel}
      (hipc : k.ipcs i = some ipc)
      (hshut : Shut i .EBADF .EPIPE { ipc with closedListen := true } (k.setUserContext ctx) k') :
      StepDone k (.closeServer i ctx) (k'.returned 0)

/-- Why an entry stops the kernel -/
inductive StepStop (k : Kernel) (e : Panic) : Entry → Prop
  | syscall {t : ThreadId} {ctx : Registers} {s : Surroundings}
      (hcurrent : k.currentThread = some t) (hstop : SyscallStop t s (k.setUserContext ctx) e) :
      StepStop k e (.syscall ctx s)
  | interrupt {irq : ℤ} {ctx : Registers} (hirq : irq < 0) (hstop : e = .unhandledInterrupt) :
      StepStop k e (.interrupt (some irq) ctx)
  | close {i value : ℕ} {ctx : Registers} (hstop : CloseStop k i e) :
      StepStop k e (.close (.ipc i) ctx value)
  | closeServer {i : ℕ} {ctx : Registers} (hstop : CloseStop k i e) :
      StepStop k e (.closeServer i ctx)

section

variable {k : Kernel} {t : ThreadId} {s : Surroundings} {r : Flow (Result ℕ) × Kernel}

/-! ### Threads that run -/

/-- A thread that has returned still runs. -/
lemma SyscallDone.currentThread (h : SyscallDone t s k r) (hr : r.1 ≠ .exits) :
    r.2.currentThread = k.currentThread := by
  cases h with
  | other => rfl
  | claims =>
    rcases k.doSyscallClaimIrq_eq s with heq | ⟨n, -, -, heq⟩
    · rw [heq]
    · rw [heq]
      rfl
  | sleeps _ hslept =>
    cases hslept with
    | refused => rfl
    | sleeps => exact absurd rfl hr
  | adds => rfl
  | creates => rfl
  | controls _ _ _ _ hcontrolled =>
    cases hcontrolled with
    | invalid => rfl
    | done => rfl
    | waited _ _ _ hwaited =>
      cases hwaited with
      | pending => rfl
      | expired => rfl
      | waits => exact absurd rfl hr
  | calls _ _ _ _ hcall =>
    rcases hcall with ⟨e, rfl⟩ | ⟨_, _, _, _, _, _, _, _, _, hexits, -⟩
    · rfl
    · exact absurd hexits hr
  | listens _ hlisten =>
    rcases hlisten with ⟨e, rfl⟩ | ⟨_, _, _, _, _, _, _, _, _, hexits, -⟩
    · rfl
    · exact absurd hexits hr
  | responds _ _ _ hresponded => exact hresponded.returns hr

lemma Settled.lt_of_current (h : Settled k) (ht : k.currentThread = some t) :
    t < k.threadCount := by
  obtain ⟨place, h, -⟩ := h
  by_contra hge
  have hplace := (h.current t).mp ht
  rw [(h.absent t).mpr (not_lt.mp hge)] at hplace
  cases hplace

lemma Settled.lt_of_mem (h : Settled k) {q : QueueId} (ht : t ∈ k.queue q) : t < k.threadCount := by
  obtain ⟨place, h, -⟩ := h
  by_contra hge
  have hplace := (h.queue q t).mp ht
  rw [(h.absent t).mpr (not_lt.mp hge)] at hplace
  cases hplace

/-! ### New threads owe nothing -/

lemma NewIdle.congr {k' : Kernel} (h : NewIdle k) (hcount : k.threadCount ≤ k'.threadCount)
    (hcaller : ∀ l, k.threadCount ≤ l → (k'.thread l).ipcCaller = (k.thread l).ipcCaller) :
    NewIdle k' := by
  intro l hl
  rw [hcaller l (hcount.trans hl)]
  exact h l (hcount.trans hl)

lemma NewIdle.passed {k' : Kernel} (h : NewIdle k) (hpassed : Passed k k') : NewIdle k' :=
  h.congr hpassed.objects.threadCount.ge fun l _ => hpassed.ipcCaller l

lemma waits_ipcCaller (k : Kernel) (t m : ThreadId) (ctx : Registers) (i c : ℕ) (ipc : IpcImpl)
    (state : ChannelState) :
    ((k.waits t ctx i c ipc state).thread m).ipcCaller = (k.thread m).ipcCaller := by
  rw [← held_ipcCaller k t m ctx]
  by_cases hm : m = t
  · subst hm
    simp [Kernel.waits, Kernel.pushed, Kernel.setChannelState]
  · simp [Kernel.waits, Kernel.pushed, Kernel.setChannelState, hm]

lemma meets_objects (k : Kernel) (t : ThreadId) (ctx : Registers) (i c : ℕ) (ipc : IpcImpl)
    (peer : ThreadId) : (k.meets t ctx i c ipc peer).threadCount = k.threadCount ∧
      (k.meets t ctx i c ipc peer).irqs = k.irqs ∧
      (k.meets t ctx i c ipc peer).clock = k.clock := by
  unfold Kernel.meets
  dsimp only
  split_ifs
  · exact ⟨rfl, rfl, rfl⟩
  · exact ⟨rfl, rfl, rfl⟩

lemma NewIdle.waited {ctx : Registers} {i c : ℕ} {ipc : IpcImpl} {state : ChannelState}
    {k' : Kernel} (h : NewIdle k) (hpassed : Passed (k.waits t ctx i c ipc state) k') :
    NewIdle k' := by
  refine NewIdle.passed ?_ hpassed
  exact h.congr le_rfl fun l _ => waits_ipcCaller ..

lemma NewIdle.met {ctx : Registers} {i c : ℕ} {ipc : IpcImpl} {peer caller listener : ThreadId}
    {transferMode : ℕ} {k' : Kernel} (h : NewIdle k) (hlistener : listener < k.threadCount)
    (hmet : Met k t ctx i c ipc peer caller listener transferMode k') : NewIdle k' := by
  have hcount : k'.threadCount = k.threadCount :=
    hmet.exchanged.objects.threadCount.trans (meets_objects ..).1
  refine h.congr hcount.ge fun l hl => ?_
  rw [hmet.exchanged.ipcCaller l fun heq => absurd hlistener (not_lt.mpr (heq ▸ hl)),
    meets_ipcCaller]

lemma NewIdle.controlled {n : Fin 16} {op : ℕ} (h : NewIdle k)
    (hr : IrqControlled t n op k r) : NewIdle r.2 := by
  cases hr with
  | invalid => exact h
  | done => exact h
  | waited _ _ enabled hwaited =>
    cases hwaited with
    | pending => exact h
    | expired => exact h
    | waits _ _ hpassed =>
      refine NewIdle.passed ?_ hpassed
      refine h.congr le_rfl fun l _ => ?_
      rw [irqWaits_thread]
      split_ifs with hl
      · rw [hl]
        rfl
      · rfl

lemma NewIdle.syscallDone (h : NewIdle k) (hsettled : Settled k)
    (hcurrent : k.currentThread = some t) (hdone : SyscallDone t s k r) : NewIdle r.2 := by
  have ht := hsettled.lt_of_current hcurrent
  cases hdone with
  | other => exact h
  | claims =>
    rcases k.doSyscallClaimIrq_eq s with heq | ⟨n, -, -, heq⟩
    · rw [heq]
      exact h
    · rw [heq]
      exact h
  | sleeps _ hslept =>
    cases hslept with
    | refused => exact h
    | sleeps _ hpassed =>
      refine NewIdle.passed ?_ hpassed
      refine h.congr le_rfl fun l _ => ?_
      rw [sleeps_thread]
      split_ifs with hl
      · rw [hl]
        rfl
      · rfl
  | adds userCtx ctx value =>
    refine h.congr (Nat.le_succ _) fun l hl => ?_
    rw [added_thread]
    split_ifs with hnew
    · rw [h l hl]
      rfl
    · rfl
  | creates => exact h
  | controls _ _ _ _ hcontrolled => exact h.controlled hcontrolled
  | calls i _ _ _ hcall =>
    rcases hcall with ⟨e, rfl⟩ | ⟨ipc, c, state, _, _, _, _, _, _, _, ⟨-, hpassed⟩ |
      ⟨-, listener, hmet⟩⟩
    · exact h
    · exact h.waited hpassed
    · exact h.met (hsettled.lt_of_mem (List.mem_of_mem_head? hmet.first)) hmet
  | listens _ hlisten =>
    rcases hlisten with ⟨e, rfl⟩ | ⟨ipc, c, state, _, _, _, _, _, _, _, ⟨-, hpassed⟩ |
      ⟨-, caller, hmet⟩⟩
    · exact h
    · exact h.waited hpassed
    · exact h.met ht hmet
  | responds _ caller _ hresponded =>
    refine h.congr hresponded.objects.threadCount.ge fun l hl => ?_
    rw [hresponded.ipcCaller, if_neg]
    rintro rfl
    exact absurd ht (not_lt.mpr hl)

/-! ### One step -/

lemma KernelOk.setUserContext (h : KernelOk k) (ctx : Registers) :
    KernelOk (k.setUserContext ctx) :=
  ⟨h.settled.setUserContext ctx, h.ipcs.setUserContext ctx, h.idle⟩

lemma KernelOk.syscallDone (h : KernelOk k) (hcurrent : k.currentThread = some t)
    (hok : SyscallOk t s k r) : KernelOk r.2 :=
  ⟨hok.settled, hok.ipcs, h.idle.syscallDone h.settled hcurrent hok.done⟩

/-- The end of a system call, while a thread runs -/
lemma Kernel.syscallReturn_eq {result : Result ℕ} (hcurrent : k.currentThread = some t) :
    k.syscallReturn result = .ok (k.returned (resultValue result)) := by
  have hsome : k.currentThread.isSome := by
    rw [hcurrent]
    rfl
  cases result with
  | ok value =>
    unfold Kernel.syscallReturn
    dsimp only
    rw [assert, if_pos (by simpa using hsome), ok_bind]
    rfl
  | error e =>
    unfold Kernel.syscallReturn
    dsimp only
    rw [assert, if_pos (by simpa using hsome), ok_bind]
    rfl

lemma Kernel.syscallEntry_spec (h : KernelOk k) (hcurrent : k.currentThread = some t)
    (hvalid : s.Valid) (ctx : Registers) :
    Ensures (fun e => StepStop k e (.syscall ctx s))
      (fun k' => KernelOk k' ∧ StepDone k (.syscall ctx s) k') (k.syscallEntry ctx s) := by
  have h' := h.setUserContext ctx
  unfold Kernel.syscallEntry
  refine Ensures.bind ((Kernel.syscall_spec h'.settled h'.ipcs hcurrent h'.idle hvalid).mono
    (fun e he => .syscall hcurrent he) fun r hr => hr) fun r hr => ?_
  obtain ⟨flow, k'⟩ := r
  have hok := h'.syscallDone hcurrent hr
  cases flow with
  | exits => exact ⟨hok, .exits hcurrent hr.done⟩
  | returns result =>
    have hcurrent' : k'.currentThread = some t :=
      (hr.done.currentThread (by simp)).trans hcurrent
    dsimp only
    rw [Kernel.syscallReturn_eq hcurrent']
    exact ⟨hok.setUserContext _, .returns hcurrent hr.done⟩

/-- The scheduler at the end of an interrupt -/
lemma Placed.schedule_interrupt {place : ThreadId → Place} (h : Placed k place)
    (hno : ∀ t, place t ≠ .floating) (hipcs : IpcsOk k) (hidle : NewIdle k) (ctx : Registers) :
    ∃ flow k', (k.setUserContext ctx).schedule = .ok (flow, k') ∧ KernelOk k' ∧
      Passed (k.setUserContext ctx) k' := by
  have h' := h.setUserContext ctx
  have hidle' : NewIdle (k.setUserContext ctx) := hidle
  obtain ⟨flow, k', place', heq, hplaced, hpassed, hfloating, -, -⟩ := h'.schedule
  refine ⟨flow, k', heq, ⟨⟨place', hplaced, fun t ht => ?_⟩,
    (hipcs.setUserContext ctx).passed h' hpassed, hidle'.passed hpassed⟩, hpassed⟩
  rw [hfloating] at ht
  exact hno t ht

lemma IrqReceived.kernelOk {irq : ℤ} {k' : Kernel} (h : KernelOk k)
    (hr : IrqReceived irq k k') : IpcsOk k' ∧ NewIdle k' := by
  cases hr with
  | unknown _ hkept =>
    rw [hkept]
    exact ⟨h.ipcs, h.idle⟩
  | remembered n _ _ hoccurred =>
    rw [hoccurred]
    exact ⟨h.ipcs.setIrq n _, h.idle⟩
  | woke n _ t threads hqueue hwoken =>
    rw [hwoken]
    obtain ⟨place, hplaced, -⟩ := h.settled
    have hplace := (hplaced.queue (.irq n) t).mp (by simp [hqueue])
    refine ⟨h.ipcs.congr rfl le_rfl (fun i c => ?_) fun i c m hm => ?_,
      h.idle.congr le_rfl fun l _ => (woken_thread ..).2.1⟩
    · simp [Kernel.woken]
    · have hne : m ≠ t := by
        rintro rfl
        rw [(hplaced.queue _ m).mp hm] at hplace
        cases hplace
      rw [(woken_thread ..).2.2 hne]

/-- The interrupt is passed to those who wait for it, and the processor on. -/
lemma Kernel.interrupt_received (h : KernelOk k) (irq : ℤ) (ctx : Registers) :
    Ensures (fun _ => False)
      (fun k' => KernelOk k' ∧ ∃ k₁, IrqReceived irq k k₁ ∧ Passed (k₁.setUserContext ctx) k')
      (do
        let k ← k.userOnIrqReceive irq
        let (_, k) ← (k.setUserContext ctx).schedule
        .ok k) := by
  obtain ⟨place, hplaced, hno⟩ := h.settled
  obtain ⟨k₁, place₁, heq₁, hplaced₁, hno₁, hreceived⟩ := hplaced.userOnIrqReceive hno irq
  obtain ⟨hipcs₁, hidle₁⟩ := hreceived.kernelOk h
  obtain ⟨flow, k', heq, hok, hpassed⟩ := hplaced₁.schedule_interrupt hno₁ hipcs₁ hidle₁ ctx
  rw [heq₁, ok_bind, heq, ok_bind]
  exact ⟨hok, k₁, hreceived, hpassed⟩

lemma Kernel.interruptEntry_spec (h : KernelOk k) (irq : Option ℤ) (ctx : Registers) :
    Ensures (fun e => StepStop k e (.interrupt irq ctx))
      (fun k' => KernelOk k' ∧ StepDone k (.interrupt irq ctx) k') (k.interruptEntry irq ctx) := by
  unfold Kernel.interruptEntry
  cases irq with
  | none =>
    obtain ⟨place, hplaced, hno⟩ := h.settled
    obtain ⟨flow, k', heq, hok, hpassed⟩ := hplaced.schedule_interrupt hno h.ipcs h.idle ctx
    dsimp only
    rw [ok_bind, heq, ok_bind]
    exact ⟨hok, .tick hpassed⟩
  | some irq =>
    dsimp only
    split_ifs with hirq
    · exact .interrupt hirq rfl
    · -- the interrupt is disabled until a thread enables it again
      cases hn : irqIndex irq with
      | none =>
        refine (Kernel.interrupt_received h irq ctx).mono (fun e he => he.elim) fun k' hk' => ?_
        obtain ⟨hok, k₁, hreceived, hpassed⟩ := hk'
        exact ⟨hok, .interrupt (.inl rfl) hreceived hpassed⟩
      | some n =>
        have h' : KernelOk (k.setIrq n { k.irqs n with enabled := false }) :=
          ⟨h.settled.setIrq n _, h.ipcs.setIrq n _, h.idle⟩
        refine (Kernel.interrupt_received h' irq ctx).mono (fun e he => he.elim) fun k' hk' => ?_
        obtain ⟨hok, k₁, hreceived, hpassed⟩ := hk'
        exact ⟨hok, .interrupt (.inr ⟨n, hn, rfl⟩) hreceived hpassed⟩

lemma KernelOk.shut {i : ℕ} {listeners callers : ErrorCode} {ipc : IpcImpl} {k' : Kernel}
    (h : KernelOk k) (hsettled : Settled k') (hipcs : IpcsOk k')
    (hshut : Shut i listeners callers ipc k k') : KernelOk k' :=
  ⟨hsettled, hipcs, h.idle.congr hshut.threadCount.ge fun l _ => hshut.ipcCaller l⟩

/-- One entry into the kernel -/
theorem Kernel.step_spec (h : KernelOk k) {entry : Entry} (hadmitted : entry.Admitted k) :
    Ensures (fun e => StepStop k e entry) (fun k' => KernelOk k' ∧ StepDone k entry k')
      (k.step entry) := by
  cases entry with
  | syscall ctx s =>
    obtain ⟨t, ht⟩ := Option.isSome_iff_exists.mp hadmitted.1
    exact Kernel.syscallEntry_spec h ht hadmitted.2 ctx
  | interrupt irq ctx => exact Kernel.interruptEntry_spec h irq ctx
  | close handle ctx value =>
    obtain ⟨t, ht⟩ := Option.isSome_iff_exists.mp hadmitted
    have h' := h.setUserContext ctx
    unfold Kernel.step
    cases handle with
    | ipc i =>
      refine Ensures.bind ((Kernel.ipcHandleClose_spec h'.settled h'.ipcs i).mono
        (fun e he => .close he) fun k' hk' => hk') fun k' hk' => ?_
      obtain ⟨hsettled, hipcs, ipc, hipc, hshut⟩ := hk'
      rw [Kernel.syscallReturn_eq (hshut.currentThread.trans ht)]
      exact ⟨(h'.shut hsettled hipcs hshut).setUserContext _, .closeIpc hipc hshut⟩
    | irq n =>
      obtain ⟨k', heq, hsettled, hwoke⟩ := Kernel.irqClose_spec h'.settled n
      obtain ⟨place, hplaced, -⟩ := h.settled
      change Ensures _ _ ((k.setUserContext ctx).irqClose n >>= _)
      rw [heq, ok_bind, Kernel.syscallReturn_eq (hwoke.currentThread.trans ht)]
      refine ⟨KernelOk.setUserContext ⟨hsettled, ?_, ?_⟩ _, .closeIrq hwoke⟩
      · refine h.ipcs.congr hwoke.objects.ipcs hwoke.objects.ipcCount.ge
          (fun i c => hwoke.queues _ (by simp) (by simp)) fun i c m hm => ?_
        rw [hwoke.others m fun hm' => ?_]
        · rfl
        · have hplace := (hplaced.queue _ m).mp hm
          rw [(hplaced.queue (.irq n) m).mp hm'] at hplace
          cases hplace
      · exact h.idle.congr hwoke.objects.threadCount.ge fun l _ => hwoke.ipcCaller l
    | module n =>
      change Ensures _ _ ((k.setUserContext ctx).syscallReturn (.ok value))
      rw [@Kernel.syscallReturn_eq (k.setUserContext ctx) t (.ok value) ht]
      exact ⟨h'.setUserContext _, .closeModule⟩
  | closeServer i ctx =>
    obtain ⟨t, ht⟩ := Option.isSome_iff_exists.mp hadmitted
    have h' := h.setUserContext ctx
    unfold Kernel.step
    refine Ensures.bind ((Kernel.ipcClose_spec h'.settled h'.ipcs i).mono
      (fun e he => .closeServer he) fun k' hk' => hk') fun k' hk' => ?_
    obtain ⟨hsettled, hipcs, ipc, hipc, hshut⟩ := hk'
    rw [Kernel.syscallReturn_eq (hshut.currentThread.trans ht)]
    exact ⟨(h'.shut hsettled hipcs hshut).setUserContext _, .closeServer hipc hshut⟩

end

end Fluke
