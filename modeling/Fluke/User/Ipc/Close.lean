import Fluke.User.Ipc.Meeting
import Fluke.User.Schedule.Waking

/-!
# Closing an IPC object

Each end of an object is closed once. A close wakes the threads that wait in the channels, but
leaves the states of the channels as they are. The close of the second end relies on them.
-/

namespace Fluke

open Outcome

/-- What the threads of a channel are woken with -/
def closeCode (listeners callers : ErrorCode) : ChannelState → ErrorCode
  | .calling => callers
  | _ => listeners

/-- The threads in the channels from `c` on were woken, and nothing else happened. -/
structure WokeChannels (i c : ℕ) (listeners callers : ErrorCode) (states : List ChannelState)
    (k k' : Kernel) : Prop where
  queue : ∀ d < states.length, k'.queue (.channel i (c + d)) = []
  run : k'.queue .run = k.queue .run ++
    (List.range states.length).flatMap fun d => k.queue (.channel i (c + d))
  queues : ∀ q, q ≠ .run → (∀ d < states.length, q ≠ .channel i (c + d)) →
    k'.queue q = k.queue q
  woken : ∀ (d : ℕ) (state : ChannelState), states[d]? = some state →
    ∀ t ∈ k.queue (.channel i (c + d)), (k'.thread t).ctx =
      { (k.thread t).ctx with r0 := (closeCode listeners callers state).negated }
  others : ∀ t, (∀ d < states.length, t ∉ k.queue (.channel i (c + d))) →
    k'.thread t = k.thread t
  ipcCaller : ∀ t, (k'.thread t).ipcCaller = (k.thread t).ipcCaller
  currentThread : k'.currentThread = k.currentThread
  userContext : k'.userContext = k.userContext
  clock : k'.clock = k.clock
  objects : ObjectsKept k k'

section

variable {k : Kernel} {place : ThreadId → Place} {i c : ℕ} {listeners callers : ErrorCode}

lemma WokeChannels.nil : WokeChannels i c listeners callers [] k k := by
  refine ⟨fun d hd => absurd hd (by simp), by simp, fun _ _ _ => rfl, fun d state hd => ?_,
    fun _ _ => rfl, fun _ => rfl, rfl, rfl, rfl, .refl k⟩
  simp at hd

/-- One channel comes before the others. -/
lemma WokeChannels.cons {state : ChannelState} {states : List ChannelState} {k₁ k' : Kernel}
    (hplaced : Placed k place)
    (hfirst : WokeAll (.channel i c) (closeCode listeners callers state).negated k k₁)
    (h : WokeChannels i (c + 1) listeners callers states k₁ k') :
    WokeChannels i c listeners callers (state :: states) k k' := by
  have hshift : ∀ d, c + 1 + d = c + (d + 1) := fun d => by omega
  have hqueue : ∀ d, k₁.queue (.channel i (c + 1 + d)) = k.queue (.channel i (c + (d + 1))) := by
    intro d
    rw [hshift d]
    exact hfirst.queues _ (by simp) (by simp)
  -- a thread waits in one channel
  have hone : ∀ t ∈ k.queue (.channel i c), ∀ d, t ∉ k.queue (.channel i (c + (d + 1))) := by
    intro t ht d ht'
    have hplace := (hplaced.queue _ t).mp ht
    rw [(hplaced.queue _ t).mp ht'] at hplace
    simp at hplace
  refine ⟨fun d hd => ?_, ?_, fun q hq hne => ?_, fun d s hd t ht => ?_, fun t ht => ?_,
    fun t => ?_, h.currentThread.trans hfirst.currentThread,
    h.userContext.trans hfirst.userContext, h.clock.trans hfirst.clock,
    hfirst.objects.trans h.objects⟩
  · cases d with
    | zero =>
      rw [h.queues _ (by simp) fun d' _ => by simp [hshift], Nat.add_zero]
      exact hfirst.queue
    | succ d =>
      rw [← hshift]
      exact h.queue d (Nat.lt_of_succ_lt_succ hd)
  · rw [h.run, hfirst.run, List.length_cons, List.range_succ_eq_map, List.flatMap_cons,
      List.flatMap_map, List.append_assoc, Nat.add_zero]
    congr 2
    exact List.flatMap_congr fun d _ => hqueue d
  · rw [h.queues q hq fun d hd => ?_, hfirst.queues q ?_ hq]
    · exact hne 0 (Nat.succ_pos _)
    · rw [hshift]
      exact hne (d + 1) (Nat.succ_lt_succ hd)
  · cases d with
    | zero =>
      obtain rfl : state = s := Option.some_injective _ hd
      rw [h.others t fun d _ => ?_, hfirst.woken t ht]
      rw [hqueue]
      exact hone t ht d
    | succ d =>
      have hne : t ∉ k.queue (.channel i c) := fun hmem => hone t hmem d ht
      rw [h.woken d s hd t (by rwa [hqueue]), hfirst.others t hne]
  · rw [h.others t fun d hd => ?_, hfirst.others t (ht 0 (Nat.succ_pos _))]
    rw [hqueue]
    exact ht (d + 1) (Nat.succ_lt_succ hd)
  · rw [h.ipcCaller, hfirst.ipcCaller]

/-- A channel whose state is true to its queue -/
lemma Placed.closeChannel {state : ChannelState} (h : Placed k place)
    (hstate : state = .empty ↔ k.queue (.channel i c) = []) :
    ∃ k', k.closeChannel i c listeners callers state = .ok k' ∧
      WokeAll (.channel i c) (closeCode listeners callers state).negated k k' ∧
      Placed k' fun t => if t ∈ k.queue (.channel i c) then .queued .run else place t := by
  cases state with
  | empty =>
    have hempty := hstate.mp rfl
    refine ⟨k, ?_, .nil hempty, by simpa [hempty] using h⟩
    rw [Kernel.closeChannel, assert, if_pos (decide_eq_true hempty), ok_bind]
  | listening =>
    have hfull : k.queue (.channel i c) ≠ [] := fun hq => by cases hstate.mpr hq
    rw [Kernel.closeChannel, assert, if_pos (decide_eq_true hfull), ok_bind]
    exact h.scheduleWakeAll (by simp) _
  | calling =>
    have hfull : k.queue (.channel i c) ≠ [] := fun hq => by cases hstate.mpr hq
    rw [Kernel.closeChannel, assert, if_pos (decide_eq_true hfull), ok_bind]
    exact h.scheduleWakeAll (by simp) _

lemma Placed.closeChannels {states : List ChannelState} :
    ∀ {k : Kernel} {place : ThreadId → Place} {c : ℕ}, Placed k place →
      (∀ t, place t ≠ .floating) →
      (∀ (d : ℕ) (state : ChannelState), states[d]? = some state →
        (state = .empty ↔ k.queue (.channel i (c + d)) = [])) →
      ∃ k' place', Kernel.closeChannels i listeners callers c states k = .ok k' ∧
        WokeChannels i c listeners callers states k k' ∧ Placed k' place' ∧
        ∀ t, place' t ≠ .floating := by
  induction states with
  | nil => exact fun h hno _ => ⟨_, _, rfl, .nil, h, hno⟩
  | cons state states ih =>
    intro k place c h hno hstates
    obtain ⟨k₁, heq, hwoke, h₁⟩ :=
      @Placed.closeChannel k place i c listeners callers state h (hstates 0 state rfl)
    have hno₁ : ∀ t, (if t ∈ k.queue (.channel i c) then Place.queued .run else place t) ≠
        .floating := by
      intro t ht
      split_ifs at ht
      exact hno t ht
    obtain ⟨k', place', heq', hwoke', h', hno'⟩ := @ih k₁ _ (c + 1) h₁ hno₁ fun d s hd => by
      rw [hwoke.queues _ (by simp; omega) (by simp), show c + 1 + d = c + (d + 1) by omega]
      exact hstates (d + 1) s hd
    exact ⟨k', place', by rw [Kernel.closeChannels, heq, ok_bind, heq'], .cons h hwoke hwoke', h',
      hno'⟩

/-- When no thread is left in the channels, the states that the first close has left decide. -/
lemma closeChannels_stale {states : List ChannelState} :
    ∀ {c : ℕ}, (∀ d < states.length, k.queue (.channel i (c + d)) = []) →
      Kernel.closeChannels i listeners callers c states k =
        if ∀ state ∈ states, state = .empty then .ok k
        else .error (.assertion .channelQueue) := by
  induction states with
  | nil =>
    intro c _
    rw [if_pos (by simp)]
    rfl
  | cons state states ih =>
    intro c hempty
    have hfirst : k.queue (.channel i c) = [] := hempty 0 (Nat.succ_pos _)
    have hrest := @ih (c + 1) fun d hd => by
      rw [show c + 1 + d = c + (d + 1) by omega]
      exact hempty (d + 1) (Nat.succ_lt_succ hd)
    rw [Kernel.closeChannels]
    cases state with
    | empty =>
      rw [Kernel.closeChannel, assert, if_pos (decide_eq_true hfirst), ok_bind, ok_bind, hrest]
      simp
    | listening =>
      rw [Kernel.closeChannel, assert, if_neg (by simpa using hfirst), if_neg (by simp)]
      rfl
    | calling =>
      rw [Kernel.closeChannel, assert, if_neg (by simpa using hfirst), if_neg (by simp)]
      rfl

end

/-! ### Objects -/

/-- Both ends of an object are closed. -/
def IpcImpl.closed (ipc : IpcImpl) : Bool := ipc.closedCall && ipc.closedListen

/-- An end of the object is closed; `ipc` is what the object is afterwards. -/
structure Shut (i : ℕ) (listeners callers : ErrorCode) (ipc : IpcImpl) (k k' : Kernel) :
    Prop where
  queue : ∀ c, k'.queue (.channel i c) = []
  run : k'.queue .run = k.queue .run ++
    (List.range ipc.channels.length).flatMap fun c => k.queue (.channel i c)
  queues : ∀ q, q ≠ .run → (∀ c, q ≠ .channel i c) → k'.queue q = k.queue q
  woken : ∀ (c : ℕ) (state : ChannelState), ipc.channels[c]? = some state →
    ∀ t ∈ k.queue (.channel i c), (k'.thread t).ctx =
      { (k.thread t).ctx with r0 := (closeCode listeners callers state).negated }
  others : ∀ t, (∀ c, t ∉ k.queue (.channel i c)) → k'.thread t = k.thread t
  ipcCaller : ∀ t, (k'.thread t).ipcCaller = (k.thread t).ipcCaller
  currentThread : k'.currentThread = k.currentThread
  userContext : k'.userContext = k.userContext
  clock : k'.clock = k.clock
  threadCount : k'.threadCount = k.threadCount
  irqs : k'.irqs = k.irqs
  ipcCount : k'.ipcCount = k.ipcCount
  ipcs : ∀ j, k'.ipcs j = if j = i then (if ipc.closed then none else some ipc) else k.ipcs j
  freed : k'.freed = if ipc.closed then (i, ipc.size) :: k.freed else k.freed

/-- Both closes, given what the object becomes -/
def Kernel.closeEnd (i : ℕ) (listeners callers : ErrorCode) (ipc : IpcImpl) (k : Kernel) :
    Except Panic Kernel := do
  let k ← closeChannels i listeners callers 0 ipc.channels (k.setIpc i (some ipc))
  .ok (if ipc.closed then k.freeIpc i ipc else k)

section

variable {k : Kernel} {place : ThreadId → Place} {i : ℕ} {ipc : IpcImpl}
  {listeners callers : ErrorCode}

lemma Kernel.ipcHandleClose_eq (hi : k.ipcs i = some ipc) : k.ipcHandleClose i =
    k.closeEnd i .EPIPE .EBADF { ipc with closedCall := true } := by
  unfold Kernel.ipcHandleClose Kernel.ipcAt Kernel.closeEnd IpcImpl.closed
  rw [hi]
  simp

lemma Kernel.ipcClose_eq (hi : k.ipcs i = some ipc) : k.ipcClose i =
    k.closeEnd i .EBADF .EPIPE { ipc with closedListen := true } := by
  unfold Kernel.ipcClose Kernel.ipcAt Kernel.closeEnd IpcImpl.closed
  rw [hi]
  simp

/-- The channels are empty, and the object is freed if both ends are closed. -/
lemma WokeChannels.shut {k' : Kernel} (hlength : ipc.channels.length = ipc.channelCount)
    (hbeyond : ∀ c, ipc.channelCount ≤ c → k.queue (.channel i c) = [])
    (h : WokeChannels i 0 listeners callers ipc.channels (k.setIpc i (some ipc)) k') :
    Shut i listeners callers ipc k (if ipc.closed then k'.freeIpc i ipc else k') := by
  have hlt : ∀ c, c < ipc.channels.length ∨ k.queue (.channel i c) = [] := fun c =>
    (lt_or_ge c ipc.channels.length).imp id fun hge => hbeyond c (hlength ▸ hge)
  have hzero : ∀ c, (0 : ℕ) + c = c := Nat.zero_add
  have hshut : ∀ k'' : Kernel, k''.thread = k'.thread → k''.queue = k'.queue →
      k''.currentThread = k'.currentThread → k''.userContext = k'.userContext →
      k''.clock = k'.clock → k''.threadCount = k'.threadCount → k''.irqs = k'.irqs →
      k''.ipcCount = k'.ipcCount →
      (∀ j, k''.ipcs j = if j = i then (if ipc.closed then none else some ipc) else k.ipcs j) →
      (k''.freed = if ipc.closed then (i, ipc.size) :: k.freed else k.freed) →
      Shut i listeners callers ipc k k'' := by
    intro k'' hthread hqueue hcurrent hcontext hclock hcount hirqs hipcCount hipcs hfreed
    refine ⟨fun c => ?_, ?_, fun q hq hne => ?_, fun c state hc t ht => ?_, fun t ht => ?_,
      fun t => ?_, hcurrent.trans h.currentThread, hcontext.trans h.userContext,
      hclock.trans h.clock, hcount.trans h.objects.threadCount, hirqs.trans h.objects.irqs,
      hipcCount.trans h.objects.ipcCount, hipcs, hfreed⟩
    · rw [hqueue]
      rcases hlt c with hc | hempty
      · simpa using h.queue c hc
      · by_cases hc : c < ipc.channels.length
        · simpa using h.queue c hc
        · rw [h.queues _ (by simp) fun d hd => ?_]
          · exact hempty
          · simp only [ne_eq, QueueId.channel.injEq, true_and, hzero]
            omega
    · rw [hqueue, h.run]
      simp
    · rw [hqueue, h.queues q hq fun d _ => hne _]
      rfl
    · rw [hthread]
      exact h.woken c state hc t (by rwa [hzero])
    · rw [hthread, h.others t fun d _ => ht _]
      rfl
    · rw [hthread]
      exact h.ipcCaller t
  have hipcs : k'.ipcs = (k.setIpc i (some ipc)).ipcs := h.objects.ipcs
  have hfreed : k'.freed = k.freed := h.objects.freed
  split_ifs with hclosed
  · refine hshut _ rfl rfl rfl rfl rfl rfl rfl rfl (fun j => ?_) ?_
    · rw [if_pos hclosed, Kernel.freeIpc, Kernel.setIpc_ipcs]
      split_ifs with hj
      · rfl
      · change k'.ipcs j = _
        rw [hipcs, Kernel.setIpc_ipcs, if_neg hj]
    · rw [if_pos hclosed, ← hfreed]
      rfl
  · refine hshut _ rfl rfl rfl rfl rfl rfl rfl rfl (fun j => ?_) ?_
    · rw [hipcs, Kernel.setIpc_ipcs, if_neg hclosed]
    · rw [if_neg hclosed, hfreed]

/-- What a close leaves of the objects -/
lemma IpcsOk.shut {k' : Kernel} (h : IpcsOk k) {old : IpcImpl} (hi : k.ipcs i = some old)
    (hmap : ipc.transferMap = old.transferMap) (hcount : ipc.channelCount = old.channelCount)
    (hchannels : ipc.channels = old.channels)
    (hclosed : ipc.closedCall = true ∨ ipc.closedListen = true)
    (hplaced : Placed k place) (hshut : Shut i listeners callers ipc k k') : IpcsOk k' := by
  have hold := h.live i old hi
  refine ⟨fun j o hj => ?_, fun j hj c => ?_, fun j hj => ?_⟩
  · rw [hshut.ipcs] at hj
    split_ifs at hj with hji hboth
    · subst hji
      obtain rfl : ipc = o := Option.some_injective _ hj
      refine ⟨hmap ▸ hold.transferLength, fun m channel hm => ?_, hcount ▸ hold.count, ?_,
        fun c _ => hshut.queue c, fun _ c => hshut.queue c, fun h1 h2 => ?_⟩
      · rw [hcount]
        exact hold.transfers m channel (hmap ▸ hm)
      · rw [hchannels, hcount, hold.channels]
      · rw [h1, h2] at hclosed
        simp at hclosed
    · have hne : ∀ c d, QueueId.channel j c ≠ .channel i d := by simp [hji]
      refine (h.live j o hj).congr (fun c => hshut.queues _ (by simp) (hne c)) fun c t ht => ?_
      rw [hshut.others t fun d ht' => ?_]
      have hplace := (hplaced.queue _ t).mp ht
      rw [(hplaced.queue _ t).mp ht'] at hplace
      exact hne c d (by simpa using hplace.symm)
  · rw [hshut.ipcs] at hj
    split_ifs at hj with hji hboth
    · rw [hji]
      exact hshut.queue c
    · rw [hshut.queues _ (by simp) (by simp [hji])]
      exact h.gone j hj c
  · have hji : j ≠ i := by
      rintro rfl
      rw [h.fresh j (hshut.ipcCount ▸ hj)] at hi
      cases hi
    rw [hshut.ipcs, if_neg hji]
    exact h.fresh j (hshut.ipcCount ▸ hj)

/-- The first close of an object, and the second one when no thread waited at the first: the states
are true to the queues. -/
lemma Kernel.closeEnd_spec (hsettled : Settled k) (hipcs : IpcsOk k) {old : IpcImpl}
    (hi : k.ipcs i = some old) (hmap : ipc.transferMap = old.transferMap)
    (hcount : ipc.channelCount = old.channelCount) (hchannels : ipc.channels = old.channels)
    (hclosed : ipc.closedCall = true ∨ ipc.closedListen = true)
    (hstates : ∀ (c : ℕ) (state : ChannelState), old.channels[c]? = some state →
      (state = .empty ↔ k.queue (.channel i c) = [])) :
    ∃ k', k.closeEnd i listeners callers ipc = .ok k' ∧ Settled k' ∧ IpcsOk k' ∧
      Shut i listeners callers ipc k k' := by
  obtain ⟨place, h, hno⟩ := hsettled
  have hold := hipcs.live i old hi
  obtain ⟨k₁, place', heq, hwoke, h', hno'⟩ :=
    @Placed.closeChannels i listeners callers ipc.channels _ _ 0 (h.setIpc i (some ipc)) hno
      fun c state hc => by
        rw [Nat.zero_add]
        exact hstates c state (hchannels ▸ hc)
  have hshut := hwoke.shut (hchannels ▸ hcount ▸ hold.channels) (hcount ▸ hold.beyond)
  refine ⟨_, by rw [Kernel.closeEnd, heq, ok_bind], ⟨place', ?_, hno'⟩,
    hipcs.shut hi hmap hcount hchannels hclosed h hshut, hshut⟩
  split_ifs with hboth
  · exact h'.congr (fun _ => ⟨rfl, rfl, rfl⟩) rfl rfl rfl rfl
  · exact h'

/-- A close while the other end is closed already, where a thread waited when that was closed -/
lemma Kernel.closeEnd_stale (hempty : ∀ c, k.queue (.channel i c) = [])
    (hstale : ∃ state ∈ ipc.channels, state ≠ .empty) :
    k.closeEnd i listeners callers ipc = .error (.assertion .channelQueue) := by
  have hempty' : ∀ d < ipc.channels.length,
      (k.setIpc i (some ipc)).queue (.channel i (0 + d)) = [] := fun d _ => hempty _
  rw [Kernel.closeEnd, closeChannels_stale hempty', if_neg]
  · rfl
  · obtain ⟨state, hmem, hne⟩ := hstale
    exact fun hall => hne (hall state hmem)

/-- In an open object the states of the channels are true to their queues. -/
lemma IpcOk.state_iff (h : IpcOk k i ipc) (hcall : ipc.closedCall = false)
    (hlisten : ipc.closedListen = false) {c : ℕ} {state : ChannelState}
    (hc : ipc.channels[c]? = some state) :
    state = .empty ↔ k.queue (.channel i c) = [] := by
  have hok := h.notClosed hcall hlisten c state hc
  cases state with
  | empty => exact iff_of_true rfl hok
  | listening => exact iff_of_false (by simp) hok.1
  | calling => exact iff_of_false (by simp) hok.1

/-- Why a close stops the kernel: the states are those of threads that the first close has woken. -/
def CloseStop (k : Kernel) (i : ℕ) (e : Panic) : Prop :=
  k.ipcs i = none ∧ e = .invalidPointer ∨
  ∃ ipc, k.ipcs i = some ipc ∧ (ipc.closedCall = true ∨ ipc.closedListen = true) ∧
    (∃ state ∈ ipc.channels, state ≠ .empty) ∧ e = .assertion .channelQueue

/-- A close of an end, given what the object becomes -/
lemma Kernel.closeEnd_cases (hsettled : Settled k) (hipcs : IpcsOk k) {old : IpcImpl}
    (hi : k.ipcs i = some old) (hmap : ipc.transferMap = old.transferMap)
    (hcount : ipc.channelCount = old.channelCount) (hchannels : ipc.channels = old.channels)
    (hclosed : ipc.closedCall = true ∨ ipc.closedListen = true) :
    Ensures (CloseStop k i)
      (fun k' => Settled k' ∧ IpcsOk k' ∧ Shut i listeners callers ipc k k')
      (k.closeEnd i listeners callers ipc) := by
  have hold := hipcs.live i old hi
  by_cases hopen : old.closedCall = false ∧ old.closedListen = false
  · obtain ⟨k', heq, hk'⟩ := @Kernel.closeEnd_spec k i ipc listeners callers hsettled hipcs old hi
      hmap hcount hchannels hclosed fun c state hc => hold.state_iff hopen.1 hopen.2 hc
    rw [heq]
    exact hk'
  · have hshut : old.closedCall = true ∨ old.closedListen = true := by
      by_contra hne
      rw [not_or] at hne
      exact hopen ⟨by simpa using hne.1, by simpa using hne.2⟩
    have hempty := hold.closed hshut
    by_cases hstale : ∃ state ∈ ipc.channels, state ≠ .empty
    · rw [Kernel.closeEnd_stale hempty hstale]
      exact .inr ⟨old, hi, hshut, hchannels ▸ hstale, rfl⟩
    · obtain ⟨k', heq, hk'⟩ := @Kernel.closeEnd_spec k i ipc listeners callers hsettled hipcs old
        hi hmap hcount hchannels hclosed fun c state hc => by
          have hall : state = .empty := by
            by_contra hne
            exact hstale ⟨state, hchannels ▸ List.mem_of_getElem? hc, hne⟩
          exact iff_of_true hall (hempty c)
      rw [heq]
      exact hk'

/-- `IPC_handle::close` -/
lemma Kernel.ipcHandleClose_spec (hsettled : Settled k) (hipcs : IpcsOk k) (i : ℕ) :
    Ensures (CloseStop k i)
      (fun k' => Settled k' ∧ IpcsOk k' ∧ ∃ ipc, k.ipcs i = some ipc ∧
        Shut i .EPIPE .EBADF { ipc with closedCall := true } k k')
      (k.ipcHandleClose i) := by
  cases hi : k.ipcs i with
  | none =>
    rw [Kernel.ipcHandleClose, Kernel.ipcAt, hi]
    exact .inl ⟨hi, rfl⟩
  | some ipc =>
    rw [Kernel.ipcHandleClose_eq hi]
    have hcases := @Kernel.closeEnd_cases k i { ipc with closedCall := true } .EPIPE .EBADF
      hsettled hipcs ipc hi rfl rfl rfl (.inl rfl)
    exact hcases.imp fun k' hk' => ⟨hk'.1, hk'.2.1, ipc, rfl, hk'.2.2⟩

/-- `IPC::close` -/
lemma Kernel.ipcClose_spec (hsettled : Settled k) (hipcs : IpcsOk k) (i : ℕ) :
    Ensures (CloseStop k i)
      (fun k' => Settled k' ∧ IpcsOk k' ∧ ∃ ipc, k.ipcs i = some ipc ∧
        Shut i .EBADF .EPIPE { ipc with closedListen := true } k k')
      (k.ipcClose i) := by
  cases hi : k.ipcs i with
  | none =>
    rw [Kernel.ipcClose, Kernel.ipcAt, hi]
    exact .inl ⟨hi, rfl⟩
  | some ipc =>
    rw [Kernel.ipcClose_eq hi]
    have hcases := @Kernel.closeEnd_cases k i { ipc with closedListen := true } .EBADF .EPIPE
      hsettled hipcs ipc hi rfl rfl rfl (.inr rfl)
    exact hcases.imp fun k' hk' => ⟨hk'.1, hk'.2.1, ipc, rfl, hk'.2.2⟩

end

end Fluke
