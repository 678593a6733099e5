import Fluke.User.Ipc.Transfer
import Fluke.User.Syscall

/-!
# Callers and listeners meet

A thread that calls or listens either waits in the channel or takes the first thread that waits on
the other side. Both functions of the source do the same to the channel, mirrored.
-/

namespace Fluke

open Outcome

namespace Kernel

variable (k : Kernel)

/-- The running thread is in the hands of the kernel, with these registers. -/
def held (t : ThreadId) (ctx : Registers) : Kernel := (k.saved t).setCtx t ctx

/-- The thread waits in the channel, whose state is set. -/
def waits (t : ThreadId) (ctx : Registers) (i c : ℕ) (ipc : IpcImpl) (state : ChannelState) :
    Kernel :=
  ((k.held t ctx).setChannelState i c ipc state).pushed t (.channel i c)

/-- The thread has taken the first one that waits in the channel. -/
def meets (t : ThreadId) (ctx : Registers) (i c : ℕ) (ipc : IpcImpl) (peer : ThreadId) : Kernel :=
  let k := (k.held t ctx).popped peer (.channel i c)
  if k.queue (.channel i c) = [] then k.setChannelState i c ipc .empty else k

lemma setChannelState_self {i c : ℕ} {ipc : IpcImpl} {state : ChannelState}
    (hi : k.ipcs i = some ipc) (hc : ipc.channels[c]? = some state) :
    k.setChannelState i c ipc state = k := by
  have hset : ipc.channels.set c state = ipc.channels := by
    obtain ⟨hlt, heq⟩ := List.getElem?_eq_some_iff.mp hc
    rw [← heq, List.set_getElem_self]
  unfold setChannelState setIpc
  rw [hset, ← hi, Function.update_eq_self]

end Kernel

namespace Placed

variable {k : Kernel} {place : ThreadId → Place} {t : ThreadId} {i c : ℕ} {ipc : IpcImpl}

lemma held (h : Placed k place) (ht : place t = .running) (ctx : Registers) :
    Placed (k.held t ctx) (Function.update place t .floating) := (h.saved ht).setCtx t ctx

/-- The thread waits, and another one goes on. -/
lemma block (h : Placed k place) (hno : ∀ t, place t ≠ .floating) (ht : place t = .running)
    (ctx : Registers) (state : ChannelState) :
    ∃ k', (do
        let k ← ((k.held t ctx).setChannelState i c ipc state).pushInto (.channel i c) t
        k.scheduleOrExit) = .ok k' ∧ Settled k' ∧ Passed (k.waits t ctx i c ipc state) k' := by
  have h₁ : Placed ((k.held t ctx).setChannelState i c ipc state)
      (Function.update place t .floating) := (h.held ht ctx).setIpc _ _
  have h₂ := @Placed.pushed _ _ t h₁ (Function.update_self _ _ _) i c
  rw [Function.update_idem] at h₂
  obtain ⟨k', place', heq, h', hpassed, hfloating⟩ := h₂.scheduleOrExit rfl
  refine ⟨k', by rw [h₁.pushInto (Function.update_self _ _ _), ok_bind, heq],
    ⟨place', h', fun m hm => ?_⟩, hpassed⟩
  rw [hfloating, Function.update_apply] at hm
  split_ifs at hm
  exact hno m hm

/-- The thread takes the first one of the channel. -/
lemma meet (h : Placed k place) (hno : ∀ t, place t ≠ .floating) (ht : place t = .running)
    (ctx : Registers) {peer : ThreadId} {threads : List ThreadId}
    (hq : k.queue (.channel i c) = peer :: threads) :
    (k.held t ctx).popFrom (.channel i c) =
        .ok (some peer, (k.held t ctx).popped peer (.channel i c)) ∧
      peer ≠ t ∧ ∃ place', Placed (k.meets t ctx i c ipc peer) place' ∧
        ∀ m, place' m = .floating ↔ m = t ∨ m = peer := by
  have h₁ := h.held ht ctx
  obtain ⟨hpop, hplace⟩ := h₁.popFrom hq
  have hne : peer ≠ t := by
    rintro rfl
    rw [Function.update_self] at hplace
    cases hplace
  have h₂ := h₁.popped hplace (by simp)
  refine ⟨hpop, hne, Function.update (Function.update place t .floating) peer .floating, ?_,
    fun m => ?_⟩
  · unfold Kernel.meets
    dsimp only
    split_ifs
    · exact h₂.setIpc _ _
    · exact h₂
  · rw [Function.update_apply, Function.update_apply]
    split_ifs with h1 h2
    · simp [h1]
    · simp [h2]
    · simp [h1, h2, hno m]

/-- The transfer between the two. -/
lemma meet_transfer {caller listener : ThreadId} (h : Placed k place) (hne : caller ≠ listener)
    (hfloating : ∀ t, place t = .floating ↔ t = caller ∨ t = listener)
    (hnone : k.currentThread = none) {transferMode : ℕ} (hmode : transferMode < transferMax) :
    ((k.thread listener).ipcCaller ≠ none ∧ k.callTransfer caller listener transferMode =
        .error (.assertion .listenerIdle)) ∨
      ((k.thread listener).ipcCaller = none ∧
        ∃ k', k.callTransfer caller listener transferMode = .ok k' ∧ Settled k' ∧
          Exchanged caller listener k k' ∧
          (Delivered caller listener transferMode k k' ∨ TransferFailed caller listener k k')) := by
  by_cases hidle : (k.thread listener).ipcCaller = none
  · exact .inr ⟨hidle, h.callTransfer hne hfloating hnone hidle hmode⟩
  · exact .inl ⟨hidle, h.callTransfer_busy hfloating hidle transferMode⟩

end Placed

/-! ### The channels of an object -/

/-- The thread waits for a call on the channel. -/
def Kernel.Listens (k : Kernel) (i c : ℕ) (t : ThreadId) : Prop :=
  (k.thread t).ctx.r0 = syscallIpcListen ∧ (k.thread t).ctx.a0 = i ∧ (k.thread t).ctx.a3 = c + 1

/-- The thread waits with a call that is meant for the channel. -/
def Kernel.Calls (k : Kernel) (ipc : IpcImpl) (c : ℕ) (t : ThreadId) : Prop :=
  ((k.thread t).ctx.r0 = syscallIpcCall ∨ (k.thread t).ctx.r0 = syscallRead ∨
    (k.thread t).ctx.r0 = syscallWrite) ∧
  (k.thread t).ctx.a0 < transferMax ∧ ipc.transferMap[(k.thread t).ctx.a0]? = some (c + 1)

/-- The state of a channel says who waits in it. -/
def ChannelOk (k : Kernel) (i : ℕ) (ipc : IpcImpl) (c : ℕ) : ChannelState → Prop
  | .empty => k.queue (.channel i c) = []
  | .listening => k.queue (.channel i c) ≠ [] ∧ ∀ t ∈ k.queue (.channel i c), k.Listens i c t
  | .calling => k.queue (.channel i c) ≠ [] ∧ ∀ t ∈ k.queue (.channel i c), k.Calls ipc c t

/-- A live IPC object -/
structure IpcOk (k : Kernel) (i : ℕ) (ipc : IpcImpl) : Prop where
  transferLength : ipc.transferMap.length = transferMax
  transfers : ∀ m channel : ℕ, ipc.transferMap[m]? = some channel → channel ≤ ipc.channelCount
  count : ipc.channelCount ≤ transferMax
  channels : ipc.channels.length = ipc.channelCount
  beyond : ∀ c, ipc.channelCount ≤ c → k.queue (.channel i c) = []
  closed : ipc.closedCall = true ∨ ipc.closedListen = true → ∀ c, k.queue (.channel i c) = []
  notClosed : ipc.closedCall = false → ipc.closedListen = false →
    ∀ (c : ℕ) (state : ChannelState), ipc.channels[c]? = some state → ChannelOk k i ipc c state

/-- The IPC objects -/
structure IpcsOk (k : Kernel) : Prop where
  live : ∀ i ipc, k.ipcs i = some ipc → IpcOk k i ipc
  gone : ∀ i, k.ipcs i = none → ∀ c, k.queue (.channel i c) = []
  fresh : ∀ i, k.ipcCount ≤ i → k.ipcs i = none

section

variable {k k' : Kernel} {i : ℕ} {ipc : IpcImpl} {c : ℕ}

lemma ChannelOk.congr {state : ChannelState} (h : ChannelOk k i ipc c state)
    (hqueue : k'.queue (.channel i c) = k.queue (.channel i c))
    (hctx : ∀ t ∈ k.queue (.channel i c), (k'.thread t).ctx = (k.thread t).ctx) :
    ChannelOk k' i ipc c state := by
  cases state with
  | empty => exact hqueue.trans h
  | listening =>
    rw [ChannelOk, hqueue]
    refine ⟨h.1, fun t ht => ?_⟩
    rw [Kernel.Listens, hctx t ht]
    exact h.2 t ht
  | calling =>
    rw [ChannelOk, hqueue]
    refine ⟨h.1, fun t ht => ?_⟩
    rw [Kernel.Calls, hctx t ht]
    exact h.2 t ht

lemma IpcOk.congr (h : IpcOk k i ipc)
    (hqueue : ∀ c, k'.queue (.channel i c) = k.queue (.channel i c))
    (hctx : ∀ c, ∀ t ∈ k.queue (.channel i c), (k'.thread t).ctx = (k.thread t).ctx) :
    IpcOk k' i ipc :=
  ⟨h.transferLength, h.transfers, h.count, h.channels, fun c hc => (hqueue c).trans (h.beyond c hc),
    fun hclosed c => (hqueue c).trans (h.closed hclosed c),
    fun h1 h2 c state hc => (h.notClosed h1 h2 c state hc).congr (hqueue c) (hctx c)⟩

/-- Nothing else matters. -/
lemma IpcsOk.congr (h : IpcsOk k) (hipcs : k'.ipcs = k.ipcs) (hcount : k.ipcCount ≤ k'.ipcCount)
    (hqueue : ∀ i c, k'.queue (.channel i c) = k.queue (.channel i c))
    (hctx : ∀ i c, ∀ t ∈ k.queue (.channel i c), (k'.thread t).ctx = (k.thread t).ctx) :
    IpcsOk k' :=
  ⟨fun i ipc hi => (h.live i ipc (hipcs ▸ hi)).congr (hqueue i) (hctx i),
    fun i hi c => (hqueue i c).trans (h.gone i (hipcs ▸ hi) c),
    fun i hi => hipcs ▸ h.fresh i (hcount.trans hi)⟩

/-- A thread that runs waits in no channel. -/
lemma IpcsOk.passed (h : IpcsOk k) {place : ThreadId → Place} (hcoherent : Placed k place)
    (hpassed : Passed k k') : IpcsOk k' := by
  refine h.congr hpassed.objects.ipcs hpassed.objects.ipcCount.ge hpassed.channel
    fun i c t ht => hpassed.ctx t fun hcurrent => ?_
  have hplace := (hcoherent.queue _ t).mp ht
  rw [(hcoherent.current t).mp hcurrent] at hplace
  cases hplace

lemma IpcsOk.exchanged (h : IpcsOk k) {place : ThreadId → Place} (hcoherent : Placed k place)
    {caller listener : ThreadId} (hcaller : place caller = .floating)
    (hlistener : place listener = .floating) (hexchanged : Exchanged caller listener k k') :
    IpcsOk k' := by
  have hne : ∀ i c t, t ∈ k.queue (.channel i c) → place t ≠ .floating := by
    intro i c t ht hfloating
    rw [(hcoherent.queue _ t).mp ht] at hfloating
    cases hfloating
  exact h.congr hexchanged.objects.ipcs hexchanged.objects.ipcCount.ge hexchanged.channel
    fun i c t ht => hexchanged.ctx t (fun heq => hne i c t ht (heq ▸ hcaller))
      fun heq => hne i c t ht (heq ▸ hlistener)

/-- One channel of an open object changes. -/
lemma IpcsOk.update (h : IpcsOk k) (hi : k.ipcs i = some ipc) (hc : c < ipc.channelCount)
    (hcall : ipc.closedCall = false) (hlisten : ipc.closedListen = false) {state : ChannelState}
    (hipcs : ∀ j, k'.ipcs j =
      if j = i then some { ipc with channels := ipc.channels.set c state } else k.ipcs j)
    (hcount : k'.ipcCount = k.ipcCount)
    (hqueue : ∀ j d, (j = i → d ≠ c) → k'.queue (.channel j d) = k.queue (.channel j d))
    (hctx : ∀ j d, (j = i → d ≠ c) →
      ∀ t ∈ k.queue (.channel j d), (k'.thread t).ctx = (k.thread t).ctx)
    (hok : ChannelOk k' i ipc c state) : IpcsOk k' := by
  have hold := h.live i ipc hi
  refine ⟨fun j o hj => ?_, fun j hj d => ?_, fun j hj => ?_⟩
  · rw [hipcs] at hj
    split_ifs at hj with hji
    · subst hji
      rw [Option.some.injEq] at hj
      subst hj
      refine ⟨hold.transferLength, hold.transfers, hold.count, ?_, fun d hd => ?_,
        fun hclosed => ?_, fun _ _ d s hd => ?_⟩
      · rw [List.length_set, hold.channels]
      · have hdc : d ≠ c := by
          rintro rfl
          exact absurd hc (not_lt.mpr hd)
        rw [hqueue j d fun _ => hdc]
        exact hold.beyond d hd
      · rw [hcall, hlisten] at hclosed
        simp at hclosed
      · rw [List.getElem?_set] at hd
        split_ifs at hd with h1 h2
        · subst h1
          rw [Option.some.injEq] at hd
          subst hd
          cases state <;> exact hok
        · have hdc : d ≠ c := Ne.symm h1
          have hchannel := (hold.notClosed hcall hlisten d s hd).congr (hqueue j d fun _ => hdc)
            (hctx j d fun _ => hdc)
          cases s <;> exact hchannel
    · refine (h.live j o hj).congr (fun d => hqueue j d fun heq => absurd heq hji) fun d => ?_
      exact hctx j d fun heq => absurd heq hji
  · rw [hipcs] at hj
    split_ifs at hj with hji
    rw [hqueue j d fun heq => absurd heq hji]
    exact h.gone j hj d
  · have hji : j ≠ i := by
      rintro rfl
      rw [h.fresh j (hcount ▸ hj)] at hi
      cases hi
    rw [hipcs, if_neg hji]
    exact h.fresh j (hcount ▸ hj)

end

section

variable {k : Kernel} {place : ThreadId → Place} {t : ThreadId} {i c : ℕ} {ipc : IpcImpl}

/-- The registers of a thread that runs are not those of one that waits. -/
lemma Placed.held_ctx (h : Placed k place) (ht : place t = .running) (ctx : Registers)
    {q : QueueId} {m : ThreadId} (hm : m ∈ k.queue q) :
    ((k.held t ctx).thread m).ctx = (k.thread m).ctx := by
  have hne : m ≠ t := by
    rintro rfl
    rw [(h.queue q m).mp hm] at ht
    cases ht
  simp [Kernel.held, Kernel.saved, Kernel.setCtx, hne]

lemma IpcsOk.waits (h : IpcsOk k) (hcoherent : Placed k place) (ht : place t = .running)
    (hi : k.ipcs i = some ipc) (hc : c < ipc.channelCount) (hcall : ipc.closedCall = false)
    (hlisten : ipc.closedListen = false) {ctx : Registers} {state : ChannelState}
    (hok : ChannelOk (k.waits t ctx i c ipc state) i ipc c state) :
    IpcsOk (k.waits t ctx i c ipc state) := by
  refine h.update hi hc hcall hlisten (fun j => ?_) rfl (fun j d hne => ?_)
    (fun j d hne m hm => ?_) hok
  · simp [Kernel.waits, Kernel.pushed, Kernel.setChannelState, Kernel.held, Kernel.saved,
      Kernel.setCtx]
  · simp only [Kernel.waits, Kernel.pushed, Kernel.setThread_queue, Kernel.setQueue_queue,
      QueueId.channel.injEq]
    rw [if_neg fun heq => hne heq.1 heq.2]
    rfl
  · have hne' : m ≠ t := by
      rintro rfl
      rw [(hcoherent.queue _ m).mp hm] at ht
      cases ht
    simp [Kernel.waits, Kernel.pushed, Kernel.setChannelState, Kernel.held, Kernel.saved,
      Kernel.setCtx, hne']

lemma IpcsOk.meets (h : IpcsOk k) (hcoherent : Placed k place) (ht : place t = .running)
    (hi : k.ipcs i = some ipc) (hcall : ipc.closedCall = false)
    (hlisten : ipc.closedListen = false) (ctx : Registers) {state : ChannelState}
    (hs : ipc.channels[c]? = some state) {peer : ThreadId} {threads : List ThreadId}
    (hq : k.queue (.channel i c) = peer :: threads) : IpcsOk (k.meets t ctx i c ipc peer) := by
  have hold := (h.live i ipc hi).notClosed hcall hlisten c state hs
  have hc : c < ipc.channelCount := by
    rw [← (h.live i ipc hi).channels]
    exact (List.getElem?_eq_some_iff.mp hs).1
  have hqueue : ((k.held t ctx).popped peer (.channel i c)).queue (.channel i c) = threads := by
    simp [Kernel.popped, Kernel.held, Kernel.saved, Kernel.setCtx, hq]
  have hqueues : ∀ j d, (j = i → d ≠ c) →
      ((k.held t ctx).popped peer (.channel i c)).queue (.channel j d) =
        k.queue (.channel j d) := by
    intro j d hne
    simp only [Kernel.popped, Kernel.setThread_queue, Kernel.setQueue_queue,
      QueueId.channel.injEq]
    rw [if_neg fun heq => hne heq.1 heq.2]
    rfl
  have hctx : ∀ q, ∀ m ∈ k.queue q,
      (((k.held t ctx).popped peer (.channel i c)).thread m).ctx = (k.thread m).ctx := by
    intro q m hm
    rw [← hcoherent.held_ctx ht ctx hm]
    simp only [Kernel.popped, Kernel.setThread_thread, Kernel.setQueue_thread]
    split_ifs with heq
    · rw [heq]
    · rfl
  unfold Kernel.meets
  dsimp only
  rw [hqueue]
  split_ifs with hempty
  · refine @IpcsOk.update k _ i ipc c h hi hc hcall hlisten .empty (fun j => ?_) rfl hqueues
      (fun j d _ => hctx _) (hqueue.trans hempty)
    simp [Kernel.setChannelState, Kernel.popped, Kernel.held, Kernel.saved, Kernel.setCtx]
  · have hchannels : ipc.channels.set c state = ipc.channels := by
      obtain ⟨hlt, heq⟩ := List.getElem?_eq_some_iff.mp hs
      rw [← heq, List.set_getElem_self]
    have hrest : ∀ m ∈ threads, m ∈ k.queue (.channel i c) := fun m hm => by simp [hq, hm]
    refine @IpcsOk.update k _ i ipc c h hi hc hcall hlisten state (fun j => ?_) rfl hqueues
      (fun j d _ => hctx _) ?_
    · rw [hchannels]
      split_ifs with hji
      · rw [hji]
        exact hi
      · rfl
    · cases state with
      | empty => simp [ChannelOk, hq] at hold
      | listening =>
        rw [ChannelOk, hqueue]
        refine ⟨hempty, fun m hm => ?_⟩
        rw [Kernel.Listens, hctx _ m (hrest m hm)]
        exact hold.2 m (hrest m hm)
      | calling =>
        rw [ChannelOk, hqueue]
        refine ⟨hempty, fun m hm => ?_⟩
        rw [Kernel.Calls, hctx _ m (hrest m hm)]
        exact hold.2 m (hrest m hm)

end

end Fluke
