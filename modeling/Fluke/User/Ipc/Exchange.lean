import Fluke.User.Ipc.Shutdown

/-!
# Calls from their start to their end

Channels are queues: who waits longest is met first. A call that waits keeps its registers, is
delivered to one listener, and ends once, with the answer of this listener, with an error of the
transfer, or with the code of a close.
-/

namespace Fluke

open Outcome

/-- Where a call is: in a channel, or with the listener that has got it -/
inductive CallPlace where
  | waiting (i c : ℕ)
  | owed (listener : ThreadId)

/-- The thread waits there. -/
def Kernel.CallAt (k : Kernel) (t : ThreadId) : CallPlace → Prop
  | .waiting i c => t ∈ k.queue (.channel i c)
  | .owed l => (k.thread l).ipcCaller = some t

/-- The thread goes on, and waits for no call. -/
def Kernel.Resumed (k : Kernel) (t : ThreadId) : Prop :=
  ((k.thread t).state = .ready ∨ (k.thread t).state = .running) ∧ ∀ p, ¬ k.CallAt t p

/-- `-EIPCIO`, `-EFAULT` or `-E2BIG` -/
def TransferCode (r0 : ℕ) : Prop :=
  r0 = ErrorCode.ipcIo.negated ∨ r0 = ErrorCode.EFAULT.negated ∨ r0 = ErrorCode.E2BIG.negated

/-- The listener, which has owed nothing, runs with the message of the call, and owes a response. -/
structure GetsMessage (ctx : Registers) (mode : ℕ) (t l : ThreadId) (k k' : Kernel) : Prop where
  idle : (k.thread l).ipcCaller = none
  running : k'.currentThread = some l
  owes : (k'.thread l).ipcCaller = some t
  registers : mode = ipcTransferRegister → (k'.thread l).ctx.a1 = ctx.a1 ∧
    (k'.thread l).ctx.a2 = ctx.a2 ∧ (k'.thread l).ctx.a3 = ctx.a3
  values : (k'.thread l).ctx.a4 = ctx.a4 ∧ (k'.thread l).ctx.a5 = ctx.a5
  fromKernel : (k'.thread l).ctx.a3 &&& ipcClassMask = 0 →
    ctx.r0 = syscallRead ∨ ctx.r0 = syscallWrite

/-- What a step does to a call that waits -/
inductive CallStep (t : ThreadId) (ctx : Registers) (mode : ℕ) (k : Kernel) :
    CallPlace → Entry → Kernel → Prop
  | stays {p : CallPlace} {entry : Entry} {k' : Kernel} (hp : k'.CallAt t p)
      (hctx : (k'.thread t).ctx = (k.thread t).ctx) : CallStep t ctx mode k p entry k'
  | delivered {i c : ℕ} {l : ThreadId} {lctx : Registers} {s : Surroundings} {k' : Kernel}
      (hlistens : lctx.r0 = syscallIpcListen ∧ lctx.a0 = i ∧ lctx.a3 = c + 1)
      (hlistener : k.currentThread = some l)
      (hfirst : (k.queue (.channel i c)).head? = some t)
      (hmessage : GetsMessage ctx mode t l k k') :
      CallStep t ctx mode k (.waiting i c) (.syscall lctx s) k'
  | failed {i c : ℕ} {l : ThreadId} {lctx : Registers} {s : Surroundings} {k' : Kernel}
      (hlistens : lctx.r0 = syscallIpcListen ∧ lctx.a0 = i ∧ lctx.a3 = c + 1)
      (hlistener : k.currentThread = some l)
      (hfirst : (k.queue (.channel i c)).head? = some t)
      (hcode : TransferCode (k'.thread t).ctx.r0) (hresumed : k'.Resumed t) :
      CallStep t ctx mode k (.waiting i c) (.syscall lctx s) k'
  | answered {l : ThreadId} {rctx : Registers} {s : Surroundings} {k' : Kernel}
      (hresponds : rctx.r0 = syscallIpcRespond) (hlistener : k.currentThread = some l)
      (hcode : (k'.thread t).ctx.r0 = rctx.a0 ∨ TransferCode (k'.thread t).ctx.r0)
      (hresumed : k'.Resumed t) : CallStep t ctx mode k (.owed l) (.syscall rctx s) k'
  | handleClosed {i c : ℕ} {cctx : Registers} {value : ℕ} {k' : Kernel}
      (hcode : (k'.thread t).ctx.r0 = ErrorCode.EBADF.negated) (hresumed : k'.Resumed t) :
      CallStep t ctx mode k (.waiting i c) (.close (.ipc i) cctx value) k'
  | serverClosed {i c : ℕ} {cctx : Registers} {k' : Kernel}
      (hcode : (k'.thread t).ctx.r0 = ErrorCode.EPIPE.negated) (hresumed : k'.Resumed t) :
      CallStep t ctx mode k (.waiting i c) (.closeServer i cctx) k'

/-- What is known of a call that waits: the registers are those of the call, with the mode. -/
structure CallOk (t : ThreadId) (ctx : Registers) (mode : ℕ) (p : CallPlace) (k : Kernel) :
    Prop where
  running : k.Running
  place : k.CallAt t p
  modeOf : ModeOf ctx mode
  waiting : ∀ i c, p = .waiting i c → (k.thread t).ctx = { ctx with a0 := mode }

section

variable {k k' : Kernel} {t l m : ThreadId} {ctx : Registers} {mode i c : ℕ} {p : CallPlace}
  {place : ThreadId → Place} {entry : Entry}

/-! ### Modes -/

lemma ModeOf.unique {mode' : ℕ} (h : ModeOf ctx mode) (h' : ModeOf ctx mode') : mode = mode' := by
  rcases h with ⟨h0, hm⟩ | ⟨h0, hm⟩ | ⟨h0, hm⟩ <;>
    rcases h' with ⟨h0', hm'⟩ | ⟨h0', hm'⟩ | ⟨h0', hm'⟩ <;> rw [h0] at h0' <;>
    first | exact absurd h0' (by decide) | skip
  · rw [hm, hm']
  · rw [hm, hm']
  · rw [hm] at hm'
    exact Except.ok.inj hm'

lemma and_ipcClassMask (a : ℕ) : toInt32 a &&& ipcClassMask = a &&& ipcClassMask := by
  have hmask : ipcClassMask % 2 ^ 32 = ipcClassMask := by decide
  have hmod := Nat.and_mod_two_pow (a := a) (b := ipcClassMask) (n := 32)
  rw [hmask] at hmod
  rw [toInt32, ← hmod]
  exact Nat.mod_eq_of_lt (Nat.and_le_right.trans_lt (by decide))

/-- A call has class bits. -/
lemma ModeOf.class (h : ModeOf ctx mode) (hnumber : ctx.r0 = syscallIpcCall) :
    ctx.a3 &&& ipcClassMask ≠ 0 := by
  rcases h with ⟨h0, -⟩ | ⟨h0, -⟩ | ⟨-, hm⟩
  · rw [hnumber] at h0
    exact absurd h0 (by decide)
  · rw [hnumber] at h0
    exact absurd h0 (by decide)
  · intro hclass
    unfold callTransferMode at hm
    dsimp only at hm
    rw [and_ipcClassMask, if_pos hclass] at hm
    cases hm

/-- The mode that a listener gets has no class bits only if the kernel has made the message. -/
lemma ModeOf.fromKernel (h : ModeOf ctx mode) {lctx : Registers}
    (hclass : (messageLenMode { ctx with a0 := mode } lctx mode).2 &&& ipcClassMask = 0) :
    ctx.r0 = syscallRead ∨ ctx.r0 = syscallWrite := by
  rcases h.number with hcall | hread | hwrite
  · have hle : mode ≤ ipcTransferLargestr := by
      rcases h with ⟨h0, -⟩ | ⟨h0, -⟩ | ⟨-, hm⟩
      · rw [hcall] at h0
        exact absurd h0 (by decide)
      · rw [hcall] at h0
        exact absurd h0 (by decide)
      · exact callTransferMode_le hm
    have hmode : (messageLenMode { ctx with a0 := mode } lctx mode).2 = ctx.a3 := by
      simp only [ipcTransferLargestr] at hle
      unfold messageLenMode
      rw [apply_ite Prod.snd, if_neg (show mode ≠ ipcTransferWrite by
        simp only [ipcTransferWrite]; omega), if_neg (show mode ≠ ipcTransferRead by
        simp only [ipcTransferRead]; omega)]
      exact ite_id _
    rw [hmode] at hclass
    exact absurd hclass (h.class hcall)
  · exact .inl hread
  · exact .inr hwrite

/-! ### Threads that go on -/

lemma Kernel.callAt_iff (h : Placed k place) : k.CallAt t p ↔ place t = match p with
    | .waiting i c => .queued (.channel i c)
    | .owed l => .calling l := by
  cases p with
  | waiting i c => exact h.queue _ t
  | owed l => exact h.caller l t

lemma Kernel.CallAt.unique {p' : CallPlace} (hplaced : Placed k place) (h : k.CallAt t p)
    (h' : k.CallAt t p') : p = p' := by
  rw [Kernel.callAt_iff hplaced] at h h'
  rw [h] at h'
  cases p with
  | waiting i c =>
    cases p' with
    | waiting i' c' =>
      cases h'
      rfl
    | owed l' => cases h'
  | owed l =>
    cases p' with
    | waiting i' c' => cases h'
    | owed l' =>
      cases h'
      rfl

lemma Kernel.CallAt.blocked (h : k.CallAt t p) : k.Blocked t := by
  cases p with
  | waiting i c => exact .inl ⟨i, c, h⟩
  | owed l => exact .inr ⟨l, h⟩

/-- A thread that was blocked, or ran, and is not blocked any more -/
lemma Awake.resumed (hawake : Awake k k') (hplaced : Placed k place) (hsettled : Settled k')
    (hplace : k.Blocked t ∨ place t = .running) (hno : ∀ p, ¬ k'.CallAt t p) : k'.Resumed t := by
  refine ⟨?_, hno⟩
  obtain ⟨place', hplaced', hfloating⟩ := hsettled
  rw [hplaced.blocked_iff] at hplace
  rw [hplaced'.state]
  cases hp : place' t with
  | absent =>
    exfalso
    have hge := (hplaced'.absent t).mp hp
    rw [hawake.threadCount, ← hplaced.absent] at hge
    rcases hplace with (⟨i, c, hq⟩ | ⟨l, hq⟩) | hq
    · rw [hge] at hq
      cases hq
    · rw [hge] at hq
      cases hq
    · rw [hge] at hq
      cases hq
  | floating => exact absurd hp (hfloating t)
  | running => exact .inr rfl
  | sleeping =>
    exfalso
    have hstate := hawake.sleeping t (by rw [hplaced'.state, hp, Place.state])
    rw [hplaced.state] at hstate
    rcases hplace with (⟨i, c, hq⟩ | ⟨l, hq⟩) | hq
    · rw [hq] at hstate
      cases hstate
    · rw [hq] at hstate
      cases hstate
    · rw [hq] at hstate
      cases hstate
  | calling l => exact absurd ((hplaced'.caller l t).mpr hp) (hno (.owed l))
  | queued q =>
    cases q with
    | run => exact .inl rfl
    | channel i c => exact absurd ((hplaced'.queue _ t).mpr hp) (hno (.waiting i c))
    | irq n =>
      exfalso
      have hmem := hawake.irq n t ((hplaced'.queue _ t).mpr hp)
      have hq' := (hplaced.queue _ t).mp hmem
      rcases hplace with (⟨i, c, hq⟩ | ⟨l, hq⟩) | hq
      · rw [hq'] at hq
        cases hq
      · rw [hq'] at hq
        cases hq
      · rw [hq'] at hq
        cases hq

/-! ### Bystanders -/

section

variable {ipc : IpcImpl} {state : ChannelState} {ctx' : Registers}

lemma BlockedKept.callAt (hkept : BlockedKept k k') (h : k.CallAt t p) :
    k'.CallAt t p ∧ (k'.thread t).ctx = (k.thread t).ctx := by
  refine ⟨?_, hkept.ctx t h.blocked⟩
  cases p with
  | waiting i c => exact (congrArg (t ∈ ·) (hkept.queue i c)).mpr h
  | owed l => exact (hkept.owed l).trans h

lemma StartsWaiting.callAt (hwaits : StartsWaiting m ctx' i c ipc state k k')
    (h : k.CallAt t p) : k'.CallAt t p ∧ (k'.thread t).ctx = (k.thread t).ctx := by
  refine ⟨?_, hwaits.others t h.blocked⟩
  cases p with
  | waiting j d =>
    change t ∈ k'.queue (.channel j d)
    by_cases hchannel : j = i ∧ d = c
    · obtain ⟨rfl, rfl⟩ := hchannel
      rw [hwaits.queue]
      exact List.mem_append_left _ h
    · rw [not_and] at hchannel
      rw [hwaits.queues j d hchannel]
      exact h
  | owed l => exact (hwaits.owed l).trans h

lemma Meets.callAt {peer caller listener : ThreadId} {transferMode : ℕ} (hplaced : Placed k place)
    (hmeets : Meets m ctx' i c ipc peer caller listener transferMode k k') (h : k.CallAt t p)
    (hne : t ≠ peer) : k'.CallAt t p ∧ (k'.thread t).ctx = (k.thread t).ctx := by
  refine ⟨?_, hmeets.others t h.blocked hne⟩
  cases p with
  | waiting j d => exact (hmeets.mem_iff hplaced).mpr ⟨h, hne⟩
  | owed l =>
    refine (hmeets.owed l ?_).trans h
    rintro rfl
    have hidle := hmeets.idle
    rw [show (k.thread l).ipcCaller = some t from h] at hidle
    cases hidle

lemma Responds.callAt {caller : ThreadId} (hresponds : Responds m caller ctx' k k')
    (h : k.CallAt t p) (hne : t ≠ caller) :
    k'.CallAt t p ∧ (k'.thread t).ctx = (k.thread t).ctx := by
  refine ⟨?_, hresponds.others t h.blocked hne⟩
  cases p with
  | waiting j d => exact (congrArg (t ∈ ·) (hresponds.queue j d)).mpr h
  | owed l =>
    change (k'.thread l).ipcCaller = some t
    rw [hresponds.owed, if_neg]
    · exact h
    · rintro rfl
      have howes := hresponds.owes
      rw [show (k.thread l).ipcCaller = some t from h] at howes
      exact hne (Option.some.inj howes)

lemma Shut.callAt {listeners callers : ErrorCode} (hplaced : Placed k place)
    (hshut : Shut i listeners callers ipc k k') (h : k.CallAt t p) (hne : ∀ c, p ≠ .waiting i c) :
    k'.CallAt t p ∧ k'.thread t = k.thread t := by
  have hthread : k'.thread t = k.thread t := by
    refine hshut.others t fun c hc => ?_
    exact hne c (Kernel.CallAt.unique hplaced h (show k.CallAt t (.waiting i c) from hc))
  refine ⟨?_, hthread⟩
  cases p with
  | waiting j d =>
    change t ∈ k'.queue (.channel j d)
    rw [hshut.queues _ (by simp) fun c heq => ?_]
    · exact h
    · rw [QueueId.channel.injEq] at heq
      exact hne c (by rw [heq.1, heq.2])
  | owed l => exact (hshut.ipcCaller l).trans h

/-! ### Transfers and answers -/

/-- A caller whose transfer has failed goes on. -/
lemma Meets.resumed {peer caller listener : ThreadId} {transferMode : ℕ} (hplaced : Placed k place)
    (hsettled : Settled k') (hmeets : Meets m ctx' i c ipc peer caller listener transferMode k k')
    (hcaller : caller = peer ∨ caller = m) (hidle : (k'.thread listener).ipcCaller = none) :
    k'.Resumed caller := by
  have hpeer : peer ∈ k.queue (.channel i c) := by
    rw [hmeets.queue]
    exact List.mem_cons_self
  have hplace : place caller = .queued (.channel i c) ∨ place caller = .running := by
    rcases hcaller with rfl | rfl
    · exact .inl ((hplaced.queue _ _).mp hpeer)
    · exact .inr ((hplaced.current _).mp hmeets.current)
  refine hmeets.awake.resumed hplaced hsettled ?_ fun p hp => ?_
  · refine hplace.imp_left fun hq => (hplaced.blocked_iff caller).mpr (.inl ⟨i, c, hq⟩)
  · cases p with
    | waiting j d =>
      obtain ⟨hmem, hne⟩ := (hmeets.mem_iff hplaced).mp hp
      rcases hcaller with rfl | rfl
      · exact hne rfl
      · exact hplaced.ne_of_current hmeets.current (.inl ⟨j, d, hmem⟩) rfl
    | owed l =>
      by_cases hl : l = listener
      · rw [hl] at hp
        rw [show (k'.thread listener).ipcCaller = some caller from hp] at hidle
        cases hidle
      · have howed := (hmeets.owed l hl).symm.trans hp
        rw [(hplaced.caller l caller).mp howed] at hplace
        rcases hplace with h | h <;> cases h

/-- A caller that has got its answer goes on. -/
lemma Responds.resumed {caller : ThreadId} (hplaced : Placed k place) (hsettled : Settled k')
    (hresponds : Responds m caller ctx' k k') : k'.Resumed caller := by
  have hplace := (hplaced.caller m caller).mp hresponds.owes
  refine hresponds.awake.resumed hplaced hsettled (.inl (.inr ⟨m, hresponds.owes⟩)) fun p hp => ?_
  cases p with
  | waiting j d =>
    have hmem : caller ∈ k.queue (.channel j d) := hresponds.queue j d ▸ hp
    rw [(hplaced.queue _ caller).mp hmem] at hplace
    cases hplace
  | owed l =>
    have howed := hresponds.owed l
    rw [show (k'.thread l).ipcCaller = some caller from hp] at howed
    split_ifs at howed with hl
    have hother := (hplaced.caller l caller).mp howed.symm
    rw [hplace] at hother
    cases hother
    exact hl rfl

lemma MessageFailed.code {caller listener : ThreadId} (h : MessageFailed caller listener k') :
    TransferCode (k'.thread caller).ctx.r0 := by
  rcases h.codes with ⟨hbig | hfault, -⟩ | ⟨hio, -⟩
  · exact .inr (.inr hbig)
  · exact .inr (.inl hfault)
  · exact .inl hio

lemma MessageDelivered.getsMessage {lctx : Registers} (hmode : ModeOf ctx mode)
    (hidle : (k.thread l).ipcCaller = none)
    (h : MessageDelivered t l { ctx with a0 := mode } lctx mode k') :
    GetsMessage ctx mode t l k k' := by
  have hctx := h.listenerCtx
  refine ⟨hidle, h.running, h.owes, fun hregister => ?_, ?_, fun hclass => ?_⟩
  · rw [hctx, messageCtx, if_pos hregister, messageLenMode, if_pos hregister]
    exact ⟨rfl, rfl, rfl⟩
  · rw [hctx, messageCtx]
    exact ⟨rfl, rfl⟩
  · rw [hctx] at hclass
    exact hmode.fromKernel hclass

lemma Responds.code {caller : ThreadId} (hresponds : Responds m caller ctx' k k') :
    (k'.thread caller).ctx.r0 = ctx'.a0 ∨ TransferCode (k'.thread caller).ctx.r0 := by
  obtain ⟨flow, k'', hthread, hanswer⟩ := hresponds.answer
  rw [← hthread]
  cases hanswer with
  | registers _ hcaller =>
    rw [hcaller]
    exact .inl rfl
  | unexpected _ _ hcaller =>
    rw [hcaller]
    exact .inr (.inl rfl)
  | large _ _ _ hcaller =>
    rw [hcaller]
    exact .inr (.inl rfl)
  | string _ _ _ hcaller _ =>
    rw [hcaller]
    exact .inl rfl
  | failed _ _ _ hcaller =>
    rcases hcaller with ⟨hio, -⟩ | ⟨hfault, -⟩
    · exact .inr (.inl hio)
    · exact .inr (.inr (.inl hfault))

/-- A thread in the run queue waits for no call. -/
lemma Settled.resumed (hsettled : Settled k) (ht : t ∈ k.queue .run) : k.Resumed t := by
  obtain ⟨place, hplaced, -⟩ := hsettled
  have hplace := (hplaced.queue _ t).mp ht
  refine ⟨.inl (by rw [hplaced.state, hplace, Place.state]), fun p hp => ?_⟩
  rw [Kernel.callAt_iff hplaced, hplace] at hp
  cases p with
  | waiting i c => cases hp
  | owed l => cases hp

lemma EndClosed.resumed {listeners callers : ErrorCode} (hsettled : Settled k')
    (hclosed : EndClosed i listeners callers k k') (ht : t ∈ k.queue (.channel i c)) :
    k'.Resumed t := by
  refine hsettled.resumed (List.count_pos_iff.mp ?_)
  rw [(hclosed.woken c t ht).2]
  exact Nat.one_pos

end

/-! ### A step of a call -/

lemma CallStep.of_kept (h : k'.CallAt t p ∧ (k'.thread t).ctx = (k.thread t).ctx) :
    CallStep t ctx mode k p entry k' := .stays h.1 h.2

/-- A listener arrives at the channel where the call is the first one. -/
lemma CallOk.listenMeets {lctx : Registers} {s : Surroundings} {ipc : IpcImpl} {caller : ThreadId}
    (h : CallOk t ctx mode p k) (hplaced : Placed k place) (hsettled : Settled k')
    (hnumber : lctx.r0 = syscallIpcListen) (hid : lctx.a3 = c + 1)
    (hmeets : Meets l lctx lctx.a0 c ipc caller caller l (k.thread caller).ctx.a0 k k') :
    CallStep t ctx mode k p (.syscall lctx s) k' := by
  by_cases hcaller : t = caller
  · subst hcaller
    have hfirst : (k.queue (.channel lctx.a0 c)).head? = some t := by
      rw [hmeets.queue]
      rfl
    have hwaits : k.CallAt t (.waiting lctx.a0 c) := List.mem_of_mem_head? hfirst
    obtain rfl := h.place.unique hplaced hwaits
    have hctx := h.waiting _ _ rfl
    have hne : t ≠ l := hplaced.ne_of_current hmeets.current h.place.blocked
    rcases hmeets.outcome with hdelivered | hfailed
    · refine .delivered ⟨hnumber, rfl, hid⟩ hmeets.current hfirst ?_
      rw [Kernel.meetingCtx, if_neg hne, Kernel.meetingCtx, if_pos rfl, hctx] at hdelivered
      exact hdelivered.getsMessage h.modeOf hmeets.idle
    · exact .failed ⟨hnumber, rfl, hid⟩ hmeets.current hfirst hfailed.code
        (hmeets.resumed hplaced hsettled (.inl rfl) hfailed.idle)
  · exact .of_kept (hmeets.callAt hplaced h.place hcaller)

/-- An end of an object is closed. -/
lemma CallOk.shut {cctx : Registers} {ipc old : IpcImpl} {listeners callers : ErrorCode}
    {value : ℕ} (h : CallOk t ctx mode p k) (hplaced : Placed k place)
    (hshut : Shut i listeners callers ipc (k.setUserContext cctx) k')
    (hi : k.ipcs i = some old) (hchannels : ipc.channels = old.channels) (hsettled : Settled k')
    (hclosed : ∀ c, p = .waiting i c → (k'.thread t).ctx.r0 = callers.negated → k'.Resumed t →
      CallStep t ctx mode k (.waiting i c) entry (k'.returned value)) :
    CallStep t ctx mode k p entry (k'.returned value) := by
  have hok := h.running.kernelOk.ipcs.setUserContext cctx
  have hend := hshut.endClosed (hok.live i old hi) hchannels hsettled
  by_cases hp : ∃ c, p = .waiting i c
  · obtain ⟨c, rfl⟩ := hp
    have hr0 : (k.thread t).ctx.r0 ≠ syscallIpcListen := by
      rw [h.waiting i c rfl]
      exact h.modeOf.not_listen
    exact hclosed c rfl (hend.caller c t h.place hr0) (hend.resumed hsettled h.place)
  · have hkept := hshut.callAt (hplaced.setUserContext cctx) h.place fun c hc => hp ⟨c, hc⟩
    refine .stays ?_ ?_
    · cases p with
      | waiting j d => exact hkept.1
      | owed l => exact hkept.1
    · exact congrArg Thread.ctx hkept.2

/-- What a step does to a call, by what it does to all calls -/
lemma CallOk.step (h : CallOk t ctx mode p k) (hsettled : Settled k')
    (hdone : StepDone k entry k') :
    CallStep t ctx mode k p entry k' := by
  have hok := h.running.kernelOk
  obtain ⟨place, hplaced, -⟩ := hok.settled
  have hstep := hdone.ipcStep hok
  cases hstep with
  | kept hkept => exact .of_kept (hkept.callAt h.place)
  | callWaits _ _ _ _ _ _ _ hwaits => exact .of_kept (hwaits.callAt h.place)
  | listenWaits _ _ _ _ _ _ hwaits => exact .of_kept (hwaits.callAt h.place)
  | @callMeets m listener ctx' s i c ipc mode' _ _ hi hopen _ _ hs hmeets =>
    refine .of_kept (hmeets.callAt hplaced h.place ?_)
    rintro rfl
    have hmem : t ∈ k.queue (.channel i c) := by
      rw [hmeets.queue]
      exact List.mem_cons_self
    have hwaits : k.CallAt t (.waiting i c) := hmem
    have hp : p = .waiting i c := h.place.unique hplaced hwaits
    have hlistens := (((hok.ipcs.live i ipc hi).notClosed hopen.1 hopen.2 c _ hs).2 t hmem).1
    rw [h.waiting i c hp] at hlistens
    exact h.modeOf.not_listen hlistens
  | listenMeets hnumber _ _ hid _ hmeets =>
    exact h.listenMeets hplaced hsettled hnumber hid hmeets
  | @responds l caller rctx s _ hnumber hresponds =>
    by_cases hcaller : t = caller
    · subst hcaller
      have howed : k.CallAt t (.owed l) := hresponds.owes
      obtain rfl := h.place.unique hplaced howed
      exact .answered hnumber hresponds.current hresponds.code
        (hresponds.resumed hplaced hsettled)
    · exact .of_kept (hresponds.callAt h.place hcaller)
  | @closesCall i value cctx ipc k'' hi hshut =>
    exact h.shut hplaced hshut hi rfl hsettled.of_returned fun c hp hcode hresumed =>
      .handleClosed hcode hresumed
  | @closesListen i cctx ipc k'' hi hshut =>
    exact h.shut hplaced hshut hi rfl hsettled.of_returned fun c hp hcode hresumed =>
      .serverClosed hcode hresumed

/-! ### Arrivals -/

section

variable {s : Surroundings}

lemma Kernel.syscall_respond (k : Kernel) (s : Surroundings)
    (hnumber : ctx.r0 = syscallIpcRespond) : k.syscall ctx s = k.ipcRespond ctx := by
  unfold Kernel.syscall
  rw [hnumber]
  rfl

/-- A listener that owes a response gives it. -/
lemma Kernel.Running.responds (h : k.Running) (hadmitted : (Entry.syscall ctx s).Admitted k)
    (hcurrent : k.currentThread = some l) (hnumber : ctx.r0 = syscallIpcRespond)
    (howes : (k.thread l).ipcCaller = some t) (hstep : k.step (.syscall ctx s) = .ok k') :
    (k'.thread l).ipcCaller = none ∧ k'.Resumed t ∧
      ((k'.thread t).ctx.r0 = ctx.a0 ∨ TransferCode (k'.thread t).ctx.r0) := by
  have hok := h.kernelOk
  have hok' := ((Kernel.step_spec hok hadmitted).of_eq_ok hstep).1
  obtain ⟨place, hplaced, -⟩ := hok.settled
  obtain ⟨r, hr, -, ⟨hnone, -⟩ | ⟨caller, howes', hresponded⟩⟩ :=
    @Kernel.ipcRespond_spec (k.setUserContext ctx) l (hok.settled.setUserContext ctx) hcurrent
  · rw [show (k.thread l).ipcCaller = none from hnone] at howes
    cases howes
  · have hcaller : caller = t := Option.some.inj (howes'.symm.trans howes)
    subst hcaller
    have heq := ((k.setUserContext ctx).syscall_respond s hnumber).trans hr
    have hresponds : Responds l caller ctx k k' := by
      obtain ⟨flow, k''⟩ := r
      change k.syscallEntry ctx s = .ok k' at hstep
      unfold Kernel.syscallEntry at hstep
      rw [heq, ok_bind] at hstep
      cases flow with
      | exits =>
        obtain rfl := Except.ok.inj hstep
        exact .of_responded hplaced hcurrent howes hresponded rfl rfl rfl rfl rfl rfl
      | returns result =>
        have hcurrent' : k''.currentThread = some l :=
          (hresponded.returns (by simp)).trans hcurrent
        dsimp only at hstep
        rw [Kernel.syscallReturn_eq hcurrent'] at hstep
        obtain rfl := Except.ok.inj hstep
        exact .of_responded hplaced hcurrent howes hresponded rfl rfl rfl rfl rfl rfl
    refine ⟨?_, hresponds.resumed hplaced hok'.settled, hresponds.code⟩
    rw [hresponds.owed, if_pos rfl]

/-! ### Runs -/

/-- The call as it is after the step in which it was made -/
lemma CallOk.calls (h : k.Running) (hcurrent : k.currentThread = some t)
    (hadmitted : (Entry.syscall ctx s).Admitted k) (hmode : ModeOf ctx mode)
    (hstep : k.step (.syscall ctx s) = .ok k') (hp : k'.CallAt t p) :
    CallOk t ctx mode p k' := by
  have hok := h.kernelOk
  obtain ⟨place, hplaced, -⟩ := hok.settled
  have hfree : ∀ p, ¬ k.CallAt t p := fun p hp =>
    hplaced.ne_of_current hcurrent hp.blocked rfl
  refine ⟨.step _ h hadmitted hstep, hp, hmode, fun i c hwaiting => ?_⟩
  subst hwaiting
  have hdone := ((Kernel.step_spec hok hadmitted).of_eq_ok hstep).2.ipcStep hok
  cases hdone with
  | kept hkept =>
    exact absurd ((congrArg (t ∈ ·) (hkept.queue i c)).mp hp) (hfree (.waiting i c))
  | callWaits _ _ _ hmode' _ _ _ hwaits =>
    obtain rfl := Option.some.inj (hcurrent.symm.trans hwaits.current)
    rw [hwaits.self, hmode.unique hmode']
  | callMeets _ _ _ _ _ _ hmeets =>
    exact absurd ((hmeets.mem_iff hplaced).mp hp).1 (hfree (.waiting i c))
  | listenWaits hnumber => exact absurd hnumber hmode.not_listen
  | listenMeets hnumber => exact absurd hnumber hmode.not_listen
  | responds hnumber =>
    rcases hmode.number with h' | h' | h'
    · exact absurd (hnumber.symm.trans h') (by decide)
    · exact absurd (hnumber.symm.trans h') (by decide)
    · exact absurd (hnumber.symm.trans h') (by decide)

end

end

section

variable {k k' : Kernel} {t m : ThreadId} {ctx : Registers} {entry : Entry} {ipc : IpcImpl}
  {i c j d : ℕ}

end

end Fluke
