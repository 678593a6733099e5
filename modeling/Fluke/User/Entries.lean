import Fluke.User.Ipc.Calls
import Fluke.User.Ipc.Close
import Fluke.User.Ipc.Respond
import Fluke.User.Irq.Waits

/-!
# What an entry does

Each entry into the kernel keeps the threads in their places and the channels true to their queues.
What else it does is described here by the kind of the entry, together with the reasons why it stops
the kernel.
-/

namespace Fluke

open Outcome

/-! ### Sleeping -/

/-- The thread sleeps until the time. -/
def Kernel.sleeps (k : Kernel) (t : ThreadId) (timeout : ℕ) : Kernel :=
  (k.saved t).tick.slept t timeout .sleeping

/-- What `nsleep` does -/
inductive Slept (t : ThreadId) (k : Kernel) : Flow (Result ℕ) × Kernel → Prop
  | refused (hduration : toIsize k.userContext.a0 ≤ 0) :
      Slept t k (.returns (.error .EINVAL), k)
  | sleeps (hduration : 0 < toIsize k.userContext.a0) {k' : Kernel}
      (hpassed : Passed ((k.setUserContext { k.userContext with r0 := 0 }).sleeps t
        (uaddIsize (k.clock 0) (toIsize k.userContext.a0))) k') :
      Slept t k (.exits, k')

section

variable {k : Kernel} {place : ThreadId → Place} {t : ThreadId}

lemma sleeps_thread (k : Kernel) (t m : ThreadId) (timeout : ℕ) :
    (k.sleeps t timeout).thread m = if m = t then
      { k.thread t with ctx := k.userContext, state := .sleeping, timeout := timeout }
      else k.thread m := by
  by_cases hm : m = t
  · subst hm
    simp [Kernel.sleeps, Kernel.slept, Kernel.saved]
  · simp [Kernel.sleeps, Kernel.slept, Kernel.saved, hm]

lemma Placed.setUserContext (h : Placed k place) (ctx : Registers) :
    Placed (k.setUserContext ctx) place :=
  h.congr (fun _ => ⟨rfl, rfl, rfl⟩) rfl rfl rfl rfl

lemma Settled.setUserContext (h : Settled k) (ctx : Registers) :
    Settled (k.setUserContext ctx) := by
  obtain ⟨place, h, hno⟩ := h
  exact ⟨place, h.setUserContext ctx, hno⟩

lemma IpcsOk.setUserContext (h : IpcsOk k) (ctx : Registers) :
    IpcsOk (k.setUserContext ctx) :=
  h.congr rfl le_rfl (fun _ _ => rfl) fun _ _ _ _ => rfl

lemma Placed.sleeps (h : Placed k place) (hplace : place t = .running) (timeout : ℕ) :
    Placed (k.sleeps t timeout) (Function.update place t .sleeping) := by
  have hsaved : Placed (k.saved t).tick (Function.update place t .floating) :=
    (h.saved hplace).congr (fun _ => ⟨rfl, rfl, rfl⟩) rfl rfl rfl rfl
  have hslept := hsaved.slept (Function.update_self _ _ _) timeout
  rwa [Function.update_idem] at hslept

lemma Kernel.doSyscallNsleep_spec (hsettled : Settled k) (hcurrent : k.currentThread = some t) :
    ∃ r, k.doSyscallNsleep k.userContext = .ok r ∧ Settled r.2 ∧ Slept t k r := by
  unfold Kernel.doSyscallNsleep
  dsimp only
  split_ifs with hduration
  · exact ⟨_, rfl, hsettled, .refused hduration⟩
  · obtain ⟨place, h, hno⟩ := hsettled.setUserContext { k.userContext with r0 := 0 }
    obtain ⟨hsave, hplace⟩ := h.cpuContextSave hcurrent
    have hsleep := @Placed.scheduleNanosleep _ _ t (h.saved hplace) (Function.update_self _ _ _)
      _ (not_le.mp hduration)
    obtain ⟨k', place', heq, h', hpassed, hfloating⟩ :=
      (h.sleeps hplace (uaddIsize (k.clock 0) (toIsize k.userContext.a0))).scheduleOrExit rfl
    refine ⟨(.exits, k'), ?_, ⟨place', h', fun m hm => ?_⟩, .sleeps (not_le.mp hduration) hpassed⟩
    · rw [hsave, ok_bind]
      dsimp only
      rw [hsleep, ok_bind]
      change (Kernel.scheduleOrExit ((k.setUserContext { k.userContext with r0 := 0 }).sleeps t
        (uaddIsize (k.clock 0) (toIsize k.userContext.a0))) >>= _) = _
      rw [heq, ok_bind]
    · rw [hfloating, Function.update_apply] at hm
      split_ifs at hm
      exact hno m hm

end

/-! ### New threads -/

/-- The thread that is added, with its registers -/
def newThread (ctx : Registers) : Thread :=
  { ctx := ctx, state := .floating, timeout := 0, queueRoot := none, ipcCaller := none }

/-- A thread is there and ready. -/
def Kernel.added (k : Kernel) (ctx : Registers) : Kernel :=
  ({ k with threadCount := k.threadCount + 1 }.setThread k.threadCount (newThread ctx)).readied
    k.threadCount

/-- A thread that is not there yet owes no response. -/
def NewIdle (k : Kernel) : Prop := ∀ l, k.threadCount ≤ l → (k.thread l).ipcCaller = none

section

variable {k : Kernel} {place : ThreadId → Place} {t : ThreadId}

lemma added_thread (k : Kernel) (ctx : Registers) (m : ThreadId) :
    (k.added ctx).thread m = if m = k.threadCount then
      { newThread ctx with state := .ready, queueRoot := some .run } else k.thread m := by
  by_cases hm : m = k.threadCount
  · subst hm
    simp [Kernel.added, Kernel.readied]
  · simp [Kernel.added, Kernel.readied, hm]

lemma added_queue (k : Kernel) (ctx : Registers) {q : QueueId} (hq : q ≠ .run) :
    (k.added ctx).queue q = k.queue q := by
  simp [Kernel.added, Kernel.readied, hq]

lemma Placed.addThread (h : Placed k place) (hidle : NewIdle k) (ctx : Registers) :
    k.addThread ctx = .ok (k.added ctx) ∧
      Placed (k.added ctx) (Function.update place k.threadCount (.queued .run)) := by
  have habsent : place k.threadCount = .absent := (h.absent _).mpr le_rfl
  have hnew : Placed ({ k with threadCount := k.threadCount + 1 }.setThread k.threadCount
      (newThread ctx)) (Function.update place k.threadCount .floating) := by
    have hipcCaller := hidle k.threadCount le_rfl
    obtain ⟨hstate, hroot, hqueue, hnodup, hcurrent, hcaller, hsleep, hsleepNodup, hcount⟩ := h
    refine ⟨fun m => ?_, fun m => ?_, fun q m => ?_, hnodup, fun m => ?_, fun l m => ?_,
      fun m => ?_, hsleepNodup, fun m => ?_⟩
    all_goals simp only [Function.update_apply, Kernel.setThread_thread]
    · split_ifs with hm
      · rfl
      · exact hstate m
    · split_ifs with hm
      · rfl
      · exact hroot m
    · change m ∈ k.queue q ↔ _
      rw [hqueue]
      split_ifs with hm
      · simp [hm, habsent]
      · rfl
    · change k.currentThread = _ ↔ _
      rw [hcurrent]
      split_ifs with hm
      · simp [hm, habsent]
      · rfl
    · have hl : (if l = k.threadCount then newThread ctx else k.thread l).ipcCaller =
          (k.thread l).ipcCaller := by
        split_ifs with hl
        · rw [hl, hipcCaller]
          rfl
        · rfl
      change (if l = k.threadCount then newThread ctx else k.thread l).ipcCaller = _ ↔ _
      rw [hl, hcaller]
      split_ifs with hm
      · simp [hm, habsent]
      · rfl
    · change m ∈ k.sleepQueue ↔ _
      rw [hsleep]
      split_ifs with hm
      · simp [hm, habsent]
      · rfl
    · change _ ↔ k.threadCount + 1 ≤ m
      split_ifs with hm
      · simp [hm]
      · rw [hcount]
        exact ⟨fun hle => lt_of_le_of_ne hle (Ne.symm hm), Nat.le_of_succ_le⟩
  have hready := hnew.readied (Function.update_self _ _ _)
  rw [Function.update_idem] at hready
  exact ⟨hnew.scheduleReady (Function.update_self _ _ _), hready⟩

lemma Settled.added (h : Settled k) (hidle : NewIdle k) (ctx : Registers) :
    k.addThread ctx = .ok (k.added ctx) ∧ Settled (k.added ctx) := by
  obtain ⟨place, h, hno⟩ := h
  obtain ⟨heq, h'⟩ := h.addThread hidle ctx
  refine ⟨heq, _, h', fun m hm => ?_⟩
  rw [Function.update_apply] at hm
  split_ifs at hm
  exact hno m hm

/-- A thread that waits in a channel is not the new one. -/
lemma IpcsOk.added (h : IpcsOk k) (hsettled : Settled k) (ctx : Registers) :
    IpcsOk (k.added ctx) := by
  obtain ⟨place, hplaced, -⟩ := hsettled
  refine h.congr rfl le_rfl (fun i c => added_queue k ctx (by simp)) fun i c m hm => ?_
  have hne : m ≠ k.threadCount := by
    rintro rfl
    have hplace := (hplaced.queue _ _).mp hm
    rw [(hplaced.absent _).mpr le_rfl] at hplace
    cases hplace
  rw [added_thread, if_neg hne]

end

/-! ### New objects -/

section

variable {k : Kernel}

/-- The map that is made of the transfers, and its largest channel -/
lemma ipcTransfers_spec {transfers : List ℕ} :
    ∀ {maxChannel : ℕ} {transferMap : List ℕ}, maxChannel ≤ transferMax →
      (∀ channel ∈ transferMap, channel ≤ maxChannel) →
      ∀ r, ipcTransfers transfers maxChannel transferMap = .ok r →
        r.1 = transferMap ++ transfers ∧ maxChannel ≤ r.2 ∧ r.2 ≤ transferMax ∧
          ∀ channel ∈ r.1, channel ≤ r.2 := by
  induction transfers with
  | nil =>
    intro maxChannel transferMap hmax hmap r hr
    cases hr
    exact ⟨(List.append_nil _).symm, le_rfl, hmax, hmap⟩
  | cons channel transfers ih =>
    intro maxChannel transferMap hmax hmap r hr
    have hmap' : ∀ {max' : ℕ}, maxChannel ≤ max' → channel ≤ max' →
        ∀ c ∈ transferMap ++ [channel], c ≤ max' := by
      intro max' hle hchannel c hc
      rcases List.mem_append.mp hc with hc | hc
      · exact (hmap c hc).trans hle
      · rwa [List.mem_singleton.mp hc]
    have happend : transferMap ++ [channel] ++ transfers = transferMap ++ channel :: transfers := by
      simp
    unfold ipcTransfers at hr
    split_ifs at hr with hzero hlarge hgreater
    · subst hzero
      have hr' := ih hmax (hmap' le_rfl (Nat.zero_le _)) r hr
      rwa [happend] at hr'
    · obtain ⟨h1, h2, h3⟩ := ih (not_lt.mp hlarge) (hmap' hgreater.le le_rfl) r hr
      exact ⟨h1.trans happend, hgreater.le.trans h2, h3⟩
    · have hr' := ih hmax (hmap' le_rfl (not_lt.mp hgreater)) r hr
      rwa [happend] at hr'

/-- A new object; no thread waits in its channels. -/
lemma ipcCreate_spec {transfers : List ℕ} (hlength : transfers.length = transferMax)
    {allocated : Bool} {ipc : IpcImpl} (h : ipcCreate transfers allocated = .ok ipc) :
    ipc.closedCall = false ∧ ipc.closedListen = false ∧
      ipc.channels = List.replicate ipc.channelCount .empty ∧
      ∀ (k : Kernel) (i : ℕ), (∀ c, k.queue (.channel i c) = []) → IpcOk k i ipc := by
  unfold ipcCreate at h
  obtain ⟨⟨transferMap, maxChannel⟩, htransfers, h⟩ := bind_eq_ok.mp h
  obtain ⟨hmap, -, hmax, hle⟩ :=
    ipcTransfers_spec (Nat.zero_le _) (by simp) _ htransfers
  rw [List.nil_append] at hmap
  dsimp only at h hmap hmax hle
  split_ifs at h
  cases h
  refine ⟨rfl, rfl, rfl, fun k i hempty => ⟨?_, fun m channel hm => ?_, hmax, ?_,
    fun c _ => hempty c, fun _ c => hempty c, fun _ _ c state hc => ?_⟩⟩
  · rw [hmap, hlength]
  · exact hle channel (List.mem_of_getElem? hm)
  · simp
  · obtain rfl : state = .empty := List.eq_of_mem_replicate (List.mem_of_getElem? hc)
    exact hempty c

/-- The object is there, under a number of its own. -/
def Kernel.created (k : Kernel) (ipc : IpcImpl) : Kernel :=
  { k with ipcCount := k.ipcCount + 1 }.setIpc k.ipcCount (some ipc)

lemma Settled.created (h : Settled k) (ipc : IpcImpl) : Settled (k.created ipc) := by
  obtain ⟨place, h, hno⟩ := h
  exact ⟨place, h.congr (fun _ => ⟨rfl, rfl, rfl⟩) rfl rfl rfl rfl, hno⟩

lemma IpcsOk.created (h : IpcsOk k) {ipc : IpcImpl}
    (hipc : ∀ (k : Kernel) (i : ℕ), (∀ c, k.queue (.channel i c) = []) → IpcOk k i ipc) :
    IpcsOk (k.created ipc) := by
  refine ⟨fun j o hj => ?_, fun j hj c => ?_, fun j hj => ?_⟩
  · rw [Kernel.created, Kernel.setIpc_ipcs] at hj
    split_ifs at hj with hji
    · obtain rfl : ipc = o := Option.some_injective _ hj
      exact hipc _ _ fun c => h.gone j (h.fresh j hji.ge) c
    · exact (h.live j o hj).congr (fun _ => rfl) fun _ _ _ => rfl
  · rw [Kernel.created, Kernel.setIpc_ipcs] at hj
    split_ifs at hj
    exact h.gone j hj c
  · have hlt : k.ipcCount + 1 ≤ j := hj
    rw [Kernel.created, Kernel.setIpc_ipcs, if_neg (by omega)]
    exact h.fresh j (by omega)

end

/-! ### System calls -/

/-- The transfers of `ipc_create` are copied into an array of this length. -/
def Surroundings.Valid (s : Surroundings) : Prop :=
  ∀ transfers, s.transfers = .ok transfers → transfers.length = transferMax

/-- The call that is behind a transfer mode -/
def ModeOf (ctx : Registers) (transferMode : ℕ) : Prop :=
  ctx.r0 = syscallRead ∧ transferMode = ipcTransferRead ∨
  ctx.r0 = syscallWrite ∧ transferMode = ipcTransferWrite ∨
  ctx.r0 = syscallIpcCall ∧ callTransferMode ctx = .ok transferMode

lemma callTransferMode_le {ctx : Registers} {transferMode : ℕ}
    (h : callTransferMode ctx = .ok transferMode) : transferMode ≤ ipcTransferLargestr := by
  unfold callTransferMode at h
  dsimp only at h
  split_ifs at h with hclass htxstr hsmall
  · obtain ⟨u, -, h⟩ := bind_eq_ok.mp h
    cases h
    decide
  · obtain ⟨u, -, h⟩ := bind_eq_ok.mp h
    cases h
    decide
  · cases h
    decide

lemma ModeOf.lt {ctx : Registers} {transferMode : ℕ} (h : ModeOf ctx transferMode) :
    transferMode < transferMax := by
  rcases h with ⟨-, rfl⟩ | ⟨-, rfl⟩ | ⟨-, h⟩
  · decide
  · decide
  · have hle := callTransferMode_le h
    simp only [ipcTransferLargestr, transferMax] at *
    omega

lemma ModeOf.number {ctx : Registers} {transferMode : ℕ} (h : ModeOf ctx transferMode) :
    ctx.r0 = syscallIpcCall ∨ ctx.r0 = syscallRead ∨ ctx.r0 = syscallWrite := by
  rcases h with ⟨h, -⟩ | ⟨h, -⟩ | ⟨h, -⟩
  · exact .inr (.inl h)
  · exact .inr (.inr h)
  · exact .inl h

/-- Why a system call stops the kernel -/
inductive SyscallStop (t : ThreadId) (s : Surroundings) (k : Kernel) (e : Panic) : Prop
  | call (i transferMode : ℕ) (hdescriptor : s.descriptor = .ok (.ipc i))
      (hmode : ModeOf k.userContext transferMode) (hstop : CallStop k i e)
  | listen (hnumber : k.userContext.r0 = syscallIpcListen)
      (hstop : ListenStop k t k.userContext.a0 k.userContext.a3 e)
  | irq (n : Fin 16) (hdescriptor : s.descriptor = .ok (.irq n))
      (hclaimed : (k.irqs n).isClaimed = false) (hstop : e = .assertion .irqClaimed)

/-- What a system call of the thread does -/
inductive SyscallDone (t : ThreadId) (s : Surroundings) (k : Kernel) :
    Flow (Result ℕ) × Kernel → Prop
  | other (result : Result ℕ) : SyscallDone t s k (.returns result, k)
  | claims (hnumber : k.userContext.r0 = syscallClaimIrq) :
      SyscallDone t s k
        (.returns (k.doSyscallClaimIrq k.userContext s).1, (k.doSyscallClaimIrq k.userContext s).2)
  | sleeps (hnumber : k.userContext.r0 = syscallNsleep) {r : Flow (Result ℕ) × Kernel}
      (hslept : Slept t k r) : SyscallDone t s k r
  | adds (userCtx ctx : Registers) (value : ℕ) :
      SyscallDone t s k (.returns (.ok value), (k.setUserContext userCtx).added ctx)
  | creates (ipc : IpcImpl) (hopen : ipc.closedCall = false ∧ ipc.closedListen = false)
      (hempty : ipc.channels = List.replicate ipc.channelCount .empty) (userCtx : Registers)
      (value : ℕ) :
      SyscallDone t s k (.returns (.ok value), (k.created ipc).setUserContext userCtx)
  | controls (n : Fin 16) (hnumber : k.userContext.r0 = syscallObjctl)
      (hdescriptor : s.descriptor = .ok (.irq n)) (hclaimed : (k.irqs n).isClaimed = true)
      {r : Flow (Result ℕ) × Kernel}
      (hcontrolled : IrqControlled t n (toInt32 k.userContext.a1) k r) : SyscallDone t s k r
  | calls (i transferMode : ℕ) (hdescriptor : s.descriptor = .ok (.ipc i))
      (hmode : ModeOf k.userContext transferMode) {r : Flow (Result ℕ) × Kernel}
      (hcall : CallDone k t i transferMode r) : SyscallDone t s k r
  | listens (hnumber : k.userContext.r0 = syscallIpcListen) {r : Flow (Result ℕ) × Kernel}
      (hlisten : ListenDone k t k.userContext.a0 k.userContext.a3 r) : SyscallDone t s k r
  | responds (hnumber : k.userContext.r0 = syscallIpcRespond) (caller : ThreadId)
      (howed : (k.thread t).ipcCaller = some caller) {r : Flow (Result ℕ) × Kernel}
      (hresponded : Responded t caller k r) : SyscallDone t s k r

/-- The system call is done, and the threads and the channels are in order. -/
structure SyscallOk (t : ThreadId) (s : Surroundings) (k : Kernel) (r : Flow (Result ℕ) × Kernel) :
    Prop where
  settled : Settled r.2
  ipcs : IpcsOk r.2
  done : SyscallDone t s k r

section

variable {k : Kernel} {t : ThreadId} {s : Surroundings}

/-- The claims of the interrupts matter neither to the threads nor to the objects. -/
lemma Kernel.doSyscallClaimIrq_eq (k : Kernel) (s : Surroundings) :
    (k.doSyscallClaimIrq k.userContext s).2 = k ∨ ∃ n, irqIndex (toInt k.userContext.a0) = some n ∧
      (k.irqs n).isClaimed = false ∧ (k.doSyscallClaimIrq k.userContext s).2 =
        k.setIrq n { k.irqs n with isClaimed := true } := by
  unfold Kernel.doSyscallClaimIrq Kernel.irqClaim
  cases s.newDescriptor with
  | error e => exact .inl rfl
  | ok fd =>
    dsimp only
    cases hn : irqIndex (toInt k.userContext.a0) with
    | none => exact .inl rfl
    | some n =>
      dsimp only
      cases hclaimed : (k.irqs n).isClaimed with
      | true => exact .inl rfl
      | false => exact .inr ⟨n, rfl, hclaimed, rfl⟩

lemma Settled.setIrq (h : Settled k) (n : Fin 16) (irq : IrqHandle) :
    Settled (k.setIrq n irq) := by
  obtain ⟨place, h, hno⟩ := h
  exact ⟨place, h.setIrq n irq, hno⟩

lemma IpcsOk.setIrq (h : IpcsOk k) (n : Fin 16) (irq : IrqHandle) : IpcsOk (k.setIrq n irq) :=
  h.congr rfl le_rfl (fun _ _ => rfl) fun _ _ _ _ => rfl

/-- Nothing that a thread does with an interrupt concerns the channels. -/
lemma IpcsOk.controlled {n : Fin 16} {op : ℕ} {r : Flow (Result ℕ) × Kernel} (h : IpcsOk k)
    (hsettled : Settled k) (hcurrent : k.currentThread = some t)
    (hr : IrqControlled t n op k r) : IpcsOk r.2 := by
  cases hr with
  | invalid => exact h
  | done hop hwait enabled => exact h.setIrq n _
  | waited hop hwait enabled hwaited =>
    have h' := h.setIrq n { k.irqs n with enabled := enabled }
    cases hwaited with
    | pending hoccurred => exact h'.setIrq n _
    | expired hoccurred htimeout => exact h'
    | waits hoccurred htimeout hpassed =>
      obtain ⟨place, hplaced, -⟩ := hsettled
      have hrunning := (hplaced.current t).mp hcurrent
      have hplaced' := hplaced.setIrq n { k.irqs n with enabled := enabled }
      refine IpcsOk.passed ?_ (hplaced'.irqWaits hrunning n _) hpassed
      refine h'.congr rfl le_rfl (fun i c => ?_) fun i c m hm => ?_
      · rw [irqWaits_queue, if_neg (by simp)]
      · have hne : m ≠ t := by
          rintro rfl
          rw [(hplaced'.queue _ m).mp hm] at hrunning
          cases hrunning
        rw [irqWaits_thread, if_neg hne]

lemma IpcsOk.slept {r : Flow (Result ℕ) × Kernel} (h : IpcsOk k) (hsettled : Settled k)
    (hcurrent : k.currentThread = some t) (hr : Slept t k r) : IpcsOk r.2 := by
  cases hr with
  | refused hduration => exact h
  | sleeps hduration hpassed =>
    obtain ⟨place, hplaced, -⟩ := hsettled
    have hrunning := (hplaced.current t).mp hcurrent
    have hplaced' := hplaced.setUserContext { k.userContext with r0 := 0 }
    refine IpcsOk.passed ?_ (hplaced'.sleeps hrunning _) hpassed
    refine h.congr rfl le_rfl (fun i c => rfl) fun i c m hm => ?_
    have hne : m ≠ t := by
      rintro rfl
      rw [(hplaced.queue _ m).mp hm] at hrunning
      cases hrunning
    rw [sleeps_thread, if_neg hne]
    rfl

section

variable (hsettled : Settled k) (hipcs : IpcsOk k)

include hsettled hipcs

lemma SyscallOk.other (result : Result ℕ) : SyscallOk t s k (.returns result, k) :=
  ⟨hsettled, hipcs, .other result⟩

lemma Kernel.doSyscallClaimIrq_done (hnumber : k.userContext.r0 = syscallClaimIrq) :
    SyscallOk t s k
      (.returns (k.doSyscallClaimIrq k.userContext s).1,
        (k.doSyscallClaimIrq k.userContext s).2) := by
  have hdone := @SyscallDone.claims t s k hnumber
  rcases k.doSyscallClaimIrq_eq s with heq | ⟨n, -, -, heq⟩
  · refine ⟨?_, ?_, hdone⟩
    · rw [heq]
      exact hsettled
    · rw [heq]
      exact hipcs
  · refine ⟨?_, ?_, hdone⟩
    · rw [heq]
      exact hsettled.setIrq n _
    · rw [heq]
      exact hipcs.setIrq n _

lemma SyscallOk.adds (hidle : NewIdle k) (userCtx ctx : Registers) (value : ℕ) :
    (k.setUserContext userCtx).addThread ctx = .ok ((k.setUserContext userCtx).added ctx) ∧
      SyscallOk t s k (.returns (.ok value), (k.setUserContext userCtx).added ctx) := by
  have hsettled' := hsettled.setUserContext userCtx
  obtain ⟨heq, hsettled''⟩ := hsettled'.added hidle ctx
  exact ⟨heq, hsettled'', (hipcs.setUserContext userCtx).added hsettled' ctx,
    .adds userCtx ctx value⟩

lemma Kernel.doSyscallFork_done (hidle : NewIdle k) (hcurrent : k.currentThread = some t) :
    Ensures (SyscallStop t s k) (SyscallOk t s k) (k.doSyscallFork s) := by
  have hstate : (k.thread t).state = .running := by
    obtain ⟨place, h, -⟩ := hsettled
    rw [h.state, (h.current t).mp hcurrent, Place.state]
  unfold Kernel.doSyscallFork
  rw [hcurrent]
  cases s.allocated with
  | error e => exact .other hsettled hipcs _
  | ok u =>
    obtain ⟨heq, hok⟩ := @SyscallOk.adds k t s hsettled hipcs hidle k.userContext
      { k.userContext with r0 := 0 } 1
    dsimp only
    rw [assert, if_pos (decide_eq_true hstate), ok_bind]
    change Ensures _ _
      ((k.setUserContext k.userContext).addThread { k.userContext with r0 := 0 } >>= _)
    rw [heq, ok_bind]
    exact hok

lemma Kernel.doSyscallThreadSpawn_done (hidle : NewIdle k) :
    Ensures (SyscallStop t s k) (SyscallOk t s k) (k.doSyscallThreadSpawn k.userContext s) := by
  unfold Kernel.doSyscallThreadSpawn Kernel.setUserR1
  cases s.allocated with
  | error e => exact .other hsettled hipcs _
  | ok u =>
    dsimp only
    rw [(@SyscallOk.adds k t s hsettled hipcs hidle _ _ 0).1, ok_bind]
    exact (SyscallOk.adds hsettled hipcs hidle _ _ 0).2

lemma Kernel.doSyscallIpcCreate_done (hvalid : s.Valid) :
    SyscallOk t s k
      (.returns (k.doSyscallIpcCreate k.userContext s).1,
        (k.doSyscallIpcCreate k.userContext s).2) := by
  unfold Kernel.doSyscallIpcCreate
  split_ifs with hlarge
  · exact .other hsettled hipcs _
  cases htransfers : s.transfers with
  | error e => exact .other hsettled hipcs _
  | ok transfers =>
    cases s.newDescriptor with
    | error e => exact .other hsettled hipcs _
    | ok fd =>
      dsimp only
      generalize hcreate : ipcCreate transfers _ = created
      cases created with
      | error e => exact .other hsettled hipcs _
      | ok ipc =>
        obtain ⟨hcall, hlisten, hempty, hipc⟩ :=
          ipcCreate_spec (hvalid transfers htransfers) hcreate
        exact ⟨(hsettled.created ipc).setUserContext _, (hipcs.created hipc).setUserContext _,
          .creates ipc ⟨hcall, hlisten⟩ hempty _ fd⟩

variable (hcurrent : k.currentThread = some t)

include hcurrent

/-- The call behind `read`, `write` and `ipc_call` -/
lemma Kernel.ipcCallMode_done {i transferMode : ℕ} (hdescriptor : s.descriptor = .ok (.ipc i))
    (hmode : ModeOf k.userContext transferMode) :
    Ensures (SyscallStop t s k) (SyscallOk t s k) (k.ipcCallMode i transferMode) := by
  refine (Kernel.ipcCallMode_spec hsettled hipcs hcurrent hmode.number hmode.lt).mono
    (fun e he => .call i transferMode hdescriptor hmode he) fun r hr => ?_
  exact ⟨hr.1, hr.2.1, .calls i transferMode hdescriptor hmode hr.2.2⟩

lemma Kernel.doSyscallRead_done (hnumber : k.userContext.r0 = syscallRead) :
    Ensures (SyscallStop t s k) (SyscallOk t s k) (k.doSyscallRead k.userContext s) := by
  have hother := @SyscallOk.other k t s hsettled hipcs
  unfold Kernel.doSyscallRead
  cases hdescriptor : s.descriptor with
  | error e => exact hother _
  | ok handle =>
    cases checkUserRange k.userContext.a1 (min k.userContext.a2 (2 ^ 63 - 1) : ℕ) with
    | error e => exact hother _
    | ok u =>
      cases handle with
      | ipc i =>
        exact Kernel.ipcCallMode_done hsettled hipcs hcurrent hdescriptor (.inl ⟨hnumber, rfl⟩)
      | irq n => exact hother _
      | module n => exact hother _

lemma Kernel.doSyscallWrite_done (hnumber : k.userContext.r0 = syscallWrite) :
    Ensures (SyscallStop t s k) (SyscallOk t s k) (k.doSyscallWrite k.userContext s) := by
  have hother := @SyscallOk.other k t s hsettled hipcs
  unfold Kernel.doSyscallWrite
  cases hdescriptor : s.descriptor with
  | error e => exact hother _
  | ok handle =>
    cases checkUserRange k.userContext.a1 (min k.userContext.a2 (2 ^ 63 - 1) : ℕ) with
    | error e => exact hother _
    | ok u =>
      cases handle with
      | ipc i =>
        exact Kernel.ipcCallMode_done hsettled hipcs hcurrent hdescriptor
          (.inr (.inl ⟨hnumber, rfl⟩))
      | irq n => exact hother _
      | module n => exact hother _

lemma Kernel.doSyscallObjctl_done (hnumber : k.userContext.r0 = syscallObjctl) :
    Ensures (SyscallStop t s k) (SyscallOk t s k) (k.doSyscallObjctl k.userContext s) := by
  have hother := @SyscallOk.other k t s hsettled hipcs
  unfold Kernel.doSyscallObjctl
  cases hdescriptor : s.descriptor with
  | error e => exact hother _
  | ok handle =>
    cases handle with
    | ipc i => exact hother _
    | module n => exact hother _
    | irq n =>
      refine (Kernel.irqCtl_spec hsettled hcurrent n (toInt32 k.userContext.a1)).mono
        (fun e he => .irq n hdescriptor he.1 he.2) fun r hr => ?_
      obtain ⟨hclaimed, hsettled', hcontrolled⟩ := hr
      exact ⟨hsettled', hipcs.controlled hsettled hcurrent hcontrolled,
        .controls n hnumber hdescriptor hclaimed hcontrolled⟩

lemma Kernel.doSyscallIpcCall_done (hnumber : k.userContext.r0 = syscallIpcCall) :
    Ensures (SyscallStop t s k) (SyscallOk t s k) (k.doSyscallIpcCall k.userContext s) := by
  have hother := @SyscallOk.other k t s hsettled hipcs
  unfold Kernel.doSyscallIpcCall
  cases hdescriptor : s.descriptor with
  | error e => exact hother _
  | ok handle =>
    cases handle with
    | irq n => exact hother _
    | module n => exact hother _
    | ipc i =>
      dsimp only
      unfold Kernel.ipcCall
      cases hmode : callTransferMode k.userContext with
      | error e => exact hother _
      | ok transferMode =>
        exact Kernel.ipcCallMode_done hsettled hipcs hcurrent hdescriptor
          (.inr (.inr ⟨hnumber, hmode⟩))

lemma Kernel.ipcListen_done (hnumber : k.userContext.r0 = syscallIpcListen) :
    Ensures (SyscallStop t s k) (SyscallOk t s k)
      (k.ipcListen k.userContext.a0 k.userContext) := by
  refine (Kernel.ipcListen_spec hsettled hipcs hcurrent hnumber rfl).mono
    (fun e he => .listen hnumber he) fun r hr => ?_
  exact ⟨hr.1, hr.2.1, .listens hnumber hr.2.2⟩

lemma Kernel.ipcRespond_done (hnumber : k.userContext.r0 = syscallIpcRespond) :
    Ensures (SyscallStop t s k) (SyscallOk t s k) (k.ipcRespond k.userContext) := by
  obtain ⟨r, heq, hsettled', hr⟩ := Kernel.ipcRespond_spec hsettled hcurrent
  rw [heq]
  rcases hr with ⟨-, rfl⟩ | ⟨caller, howed, hresponded⟩
  · exact .other hsettled hipcs _
  · exact ⟨hsettled', hipcs.responded hsettled hcurrent howed hresponded,
      .responds hnumber caller howed hresponded⟩

/-- A system call of the thread that runs -/
lemma Kernel.syscall_spec (hidle : NewIdle k) (hvalid : s.Valid) :
    Ensures (SyscallStop t s k) (SyscallOk t s k) (k.syscall k.userContext s) := by
  unfold Kernel.syscall
  dsimp only
  by_cases h1 : k.userContext.r0 = syscallNsleep
  · obtain ⟨r, heq, hsettled', hslept⟩ := Kernel.doSyscallNsleep_spec hsettled hcurrent
    rw [if_pos h1, heq]
    exact ⟨hsettled', hipcs.slept hsettled hcurrent hslept, .sleeps h1 hslept⟩
  rw [if_neg h1]
  by_cases h2 : k.userContext.r0 = syscallClaimIrq
  · rw [if_pos h2]
    exact Kernel.doSyscallClaimIrq_done hsettled hipcs h2
  rw [if_neg h2]
  by_cases h3 : k.userContext.r0 = syscallFork
  · rw [if_pos h3]
    exact Kernel.doSyscallFork_done hsettled hipcs hidle hcurrent
  rw [if_neg h3]
  by_cases h4 : k.userContext.r0 = syscallRead
  · rw [if_pos h4]
    exact Kernel.doSyscallRead_done hsettled hipcs hcurrent h4
  rw [if_neg h4]
  by_cases h5 : k.userContext.r0 = syscallWrite
  · rw [if_pos h5]
    exact Kernel.doSyscallWrite_done hsettled hipcs hcurrent h5
  rw [if_neg h5]
  by_cases h6 : k.userContext.r0 = syscallObjctl
  · rw [if_pos h6]
    exact Kernel.doSyscallObjctl_done hsettled hipcs hcurrent h6
  rw [if_neg h6]
  by_cases h7 : k.userContext.r0 = syscallThreadSpawn
  · rw [if_pos h7]
    exact Kernel.doSyscallThreadSpawn_done hsettled hipcs hidle
  rw [if_neg h7]
  by_cases h8 : k.userContext.r0 = syscallIpcCreate
  · rw [if_pos h8]
    exact Kernel.doSyscallIpcCreate_done hsettled hipcs hvalid
  rw [if_neg h8]
  by_cases h9 : k.userContext.r0 = syscallIpcCall
  · rw [if_pos h9]
    exact Kernel.doSyscallIpcCall_done hsettled hipcs hcurrent h9
  rw [if_neg h9]
  by_cases h10 : k.userContext.r0 = syscallIpcListen
  · rw [if_pos h10]
    exact Kernel.ipcListen_done hsettled hipcs hcurrent h10
  rw [if_neg h10]
  by_cases h11 : k.userContext.r0 = syscallIpcRespond
  · rw [if_pos h11]
    exact Kernel.ipcRespond_done hsettled hipcs hcurrent h11
  · rw [if_neg h11]
    exact .other hsettled hipcs _

end

end

end Fluke
