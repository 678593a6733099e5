import Fluke.User.Ipc
import Fluke.User.Schedule.Passing

/-!
# Transfers

A transfer has a caller and a listener in the hands of the kernel. Either the message is delivered
and the listener runs, or both return with an error.
-/

namespace Fluke

open Outcome

/-- No thread is left in the hands of the kernel. -/
def Settled (k : Kernel) : Prop := ∃ place, Placed k place ∧ ∀ t, place t ≠ .floating

/-- What a transfer leaves alone. -/
structure Exchanged (caller listener : ThreadId) (k k' : Kernel) : Prop where
  ctx : ∀ t, t ≠ caller → t ≠ listener → (k'.thread t).ctx = (k.thread t).ctx
  ipcCaller : ∀ t, t ≠ listener → (k'.thread t).ipcCaller = (k.thread t).ipcCaller
  channel : ∀ i c, k'.queue (.channel i c) = k.queue (.channel i c)
  irq : ∀ n, ∃ woken : List ThreadId, (∀ t ∈ woken, (k.thread t).timeout < k.clock 0) ∧
    k'.queue (.irq n) = (k.queue (.irq n)).filter (· ∉ woken)
  sleeping : ∀ t, (k'.thread t).state = .sleeping → (k.thread t).state = .sleeping
  objects : ObjectsKept k k'

/-- Both threads return with an error: `guilty` with what it did, `innocent` with `EIPCIO`. -/
structure Failed (shame : ErrorCode) (guilty innocent : ThreadId) (k k' : Kernel) : Prop where
  guilty : (k'.thread guilty).ctx.r0 = shame.negated
  innocent : (k'.thread innocent).ctx.r0 = ErrorCode.ipcIo.negated
  ipcCaller : ∀ t, (k'.thread t).ipcCaller = (k.thread t).ipcCaller

/-- The registers of the listener that has got a message: `len` and `mode` come with it, the
callback is where it goes on. -/
def messageCtx (caller listener : Registers) (transferMode len mode : ℕ) : Registers :=
  { listener with
    a1 := if transferMode = ipcTransferRegister then caller.a1 else listener.a1
    a2 := len
    a3 := mode
    a4 := caller.a4
    a5 := caller.a5
    pc := listener.a4 }

/-- The length and the mode that the listener gets. -/
def messageLenMode (caller listener : Registers) (transferMode : ℕ) : ℕ × ℕ :=
  if transferMode = ipcTransferRegister then (caller.a2, caller.a3)
  else if transferMode = ipcTransferWrite then
    (min caller.a2 listener.a2, ipcSystemWrite ||| ipcCallTxstr ||| ipcCallFragment)
  else if transferMode = ipcTransferRead then (caller.a2, ipcSystemRead ||| ipcCallRxstr)
  else (min caller.a2 listener.a2, caller.a3)

/-- The mode that the caller waits with. -/
def waitingMode (caller : Registers) (transferMode : ℕ) : ℕ :=
  if transferMode = ipcTransferWrite then 0
  else if transferMode = ipcTransferRead then ipcCallRxstr
  else caller.a3

/-- The message is delivered. -/
structure Delivered (caller listener : ThreadId) (transferMode : ℕ) (k k' : Kernel) : Prop where
  running : k'.currentThread = some listener
  listenerCtx : (k'.thread listener).ctx =
    messageCtx (k.thread caller).ctx (k.thread listener).ctx transferMode
      (messageLenMode (k.thread caller).ctx (k.thread listener).ctx transferMode).1
      (messageLenMode (k.thread caller).ctx (k.thread listener).ctx transferMode).2
  callerCtx : (k'.thread caller).ctx =
    { (k.thread caller).ctx with a3 := waitingMode (k.thread caller).ctx transferMode }
  ipcCaller : (k'.thread listener).ipcCaller = some caller

/-- A transfer that fails -/
def TransferFailed (caller listener : ThreadId) (k k' : Kernel) : Prop :=
  Failed .E2BIG caller listener k k' ∨ Failed .EFAULT caller listener k k' ∨
    Failed .EFAULT listener caller k k'

/-- Only registers are written, and strings copied. -/
def Kernel.withCtx (k : Kernel) (ctx : ThreadId → Registers) (copies : ℕ → ℕ) : Kernel :=
  { k with thread := fun t => { k.thread t with ctx := ctx t }, copies := copies }

lemma setCtx_eq (k : Kernel) (t : ThreadId) (ctx : Registers) : k.setCtx t ctx =
    k.withCtx (fun m => if m = t then ctx else (k.thread m).ctx) k.copies := by
  unfold Kernel.setCtx Kernel.withCtx Kernel.setThread
  congr
  funext m
  by_cases hm : m = t
  · subst hm
    simp
  · simp [hm]

lemma withCtx_withCtx (k : Kernel) (ctx ctx' : ThreadId → Registers) (copies copies' : ℕ → ℕ) :
    (k.withCtx ctx copies).withCtx ctx' copies' = k.withCtx ctx' copies' := rfl

lemma Exchanged.of_withCtx {k k' : Kernel} {ctx : ThreadId → Registers} {copies : ℕ → ℕ}
    {caller listener : ThreadId} (h : Exchanged caller listener (k.withCtx ctx copies) k')
    (hctx : ∀ t, t ≠ caller → t ≠ listener → ctx t = (k.thread t).ctx) :
    Exchanged caller listener k k' :=
  ⟨fun t h1 h2 => (h.ctx t h1 h2).trans (hctx t h1 h2), h.ipcCaller, h.channel, h.irq, h.sleeping,
    ⟨h.objects.threadCount, h.objects.irqs, h.objects.ipcs, h.objects.ipcCount, h.objects.freed⟩⟩

lemma TransferFailed.of_withCtx {k k' : Kernel} {ctx : ThreadId → Registers} {copies : ℕ → ℕ}
    {caller listener : ThreadId} (h : TransferFailed caller listener (k.withCtx ctx copies) k') :
    TransferFailed caller listener k k' := by
  rcases h with h | h | h
  · exact .inl ⟨h.guilty, h.innocent, h.ipcCaller⟩
  · exact .inr (.inl ⟨h.guilty, h.innocent, h.ipcCaller⟩)
  · exact .inr (.inr ⟨h.guilty, h.innocent, h.ipcCaller⟩)

namespace Placed

variable {k : Kernel} {place : ThreadId → Place} {caller listener : ThreadId}

lemma withCtx (h : Placed k place) (ctx : ThreadId → Registers) (copies : ℕ → ℕ) :
    Placed (k.withCtx ctx copies) place := h.congr (fun _ => ⟨rfl, rfl, rfl⟩) rfl rfl rfl rfl

/-- Both threads are ready, and another thread goes on. -/
lemma transferError (h : Placed k place) {guilty innocent : ThreadId} (shame : ErrorCode)
    (hne : guilty ≠ innocent) (hfloating : ∀ t, place t = .floating ↔ t = guilty ∨ t = innocent)
    (hnone : k.currentThread = none) :
    ∃ k', k.transferError shame guilty innocent = .ok k' ∧ Settled k' ∧
      Exchanged guilty innocent k k' ∧ Failed shame guilty innocent k k' := by
  have h₁ : Placed ((k.setR0 guilty shame.negated).setR0 innocent ErrorCode.ipcIo.negated)
      place := (h.setR0 _ _).setR0 _ _
  have hguilty : place guilty = .floating := (hfloating guilty).mpr (.inl rfl)
  have hinnocent : place innocent = .floating := (hfloating innocent).mpr (.inr rfl)
  have h₂ := h₁.readied hguilty
  have hinnocent₂ : Function.update place guilty (.queued .run) innocent = .floating := by
    rw [Function.update_of_ne hne.symm, hinnocent]
  have h₃ := h₂.readied hinnocent₂
  obtain ⟨k', place', heq, h', hpassed, hfloating'⟩ := h₃.scheduleOrExit hnone
  have hsettled : ∀ t, place' t ≠ .floating := by
    intro t ht
    rw [hfloating', Function.update_apply, Function.update_apply] at ht
    split_ifs at ht with h1 h2
    rcases (hfloating t).mp ht with rfl | rfl
    · exact h2 rfl
    · exact h1 rfl
  have hctx : ∀ t, (k'.thread t).ctx =
      (((k.setR0 guilty shame.negated).setR0 innocent ErrorCode.ipcIo.negated).thread t).ctx := by
    intro t
    rw [hpassed.ctx t (by
      change k.currentThread ≠ some t
      rw [hnone]
      simp)]
    simp only [Kernel.readied, Kernel.setThread_thread, Kernel.setQueue_thread]
    split_ifs <;> simp_all
  have hcaller : ∀ t, (k'.thread t).ipcCaller = (k.thread t).ipcCaller := by
    intro t
    rw [hpassed.ipcCaller t]
    simp only [Kernel.readied, Kernel.setR0, Kernel.setCtx, Kernel.setThread_thread,
      Kernel.setQueue_thread]
    split_ifs <;> simp_all
  refine ⟨k', ?_, ⟨place', h', hsettled⟩, ⟨fun t h1 h2 => ?_, fun t _ => hcaller t, fun i c => ?_,
    fun n => ?_, fun t ht => ?_, ?_⟩, ?_, ?_, hcaller⟩
  · unfold Kernel.transferError
    dsimp only
    rw [h₁.scheduleReady hguilty, ok_bind, h₂.scheduleReady hinnocent₂, ok_bind, heq]
  · rw [hctx]
    simp [Kernel.setR0, Kernel.setCtx, h1, h2]
  · rw [hpassed.channel]
    simp [Kernel.readied, Kernel.setR0, Kernel.setCtx]
  · obtain ⟨woken, hexpired, hfilter⟩ := hpassed.irq n
    refine ⟨woken, fun t ht => ?_, by simpa [Kernel.readied, Kernel.setR0, Kernel.setCtx] using
      hfilter⟩
    have hlt := hexpired t ht
    simp only [Kernel.readied, Kernel.setR0, Kernel.setCtx, Kernel.setThread_thread,
      Kernel.setQueue_thread] at hlt
    split_ifs at hlt <;> simp_all
  · have hbefore := hpassed.sleeping t ht
    simp only [Kernel.readied, Kernel.setR0, Kernel.setCtx, Kernel.setThread_thread,
      Kernel.setQueue_thread] at hbefore
    split_ifs at hbefore
    simp_all
  · have hobjects : ObjectsKept k ((((k.setR0 guilty shame.negated).setR0 innocent
        ErrorCode.ipcIo.negated).readied guilty).readied innocent) := ⟨rfl, rfl, rfl, rfl, rfl⟩
    exact hobjects.trans hpassed.objects
  · rw [hctx]
    simp [Kernel.setR0, Kernel.setCtx, hne]
  · rw [hctx]
    simp [Kernel.setR0, Kernel.setCtx]

/-- Either the string is copied, or both threads return with an error. -/
lemma copyString (h : Placed k place) {source dest : ThreadId} (hne : source ≠ dest)
    (hfloating : ∀ t, place t = .floating ↔ t = source ∨ t = dest)
    (hnone : k.currentThread = none) :
    (k.copyString source dest = .ok (.returns (), k.memcpyUserUserCatchFault.2)) ∨
      ∃ k', k.copyString source dest = .ok (.exits, k') ∧ Settled k' ∧
        Exchanged source dest k k' ∧
        (Failed .EFAULT source dest k k' ∨ Failed .EFAULT dest source k k') := by
  have h' : Placed k.memcpyUserUserCatchFault.2 place :=
    h.congr (fun _ => ⟨rfl, rfl, rfl⟩) rfl rfl rfl rfl
  have hobjects : ObjectsKept k k.memcpyUserUserCatchFault.2 := ⟨rfl, rfl, rfl, rfl, rfl⟩
  unfold Kernel.copyString assert
  rw [if_pos (decide_eq_true hnone), ok_bind]
  dsimp only
  split_ifs with h0 hread
  · exact .inl rfl
  · obtain ⟨k', heq, hsettled, hexchanged, hfailed⟩ := h'.transferError .EFAULT hne hfloating hnone
    refine .inr ⟨k', by rw [heq]; rfl, hsettled, ?_, .inl ?_⟩
    · exact ⟨hexchanged.ctx, hexchanged.ipcCaller, hexchanged.channel, hexchanged.irq,
        hexchanged.sleeping, hobjects.trans hexchanged.objects⟩
    · exact ⟨hfailed.guilty, hfailed.innocent, hfailed.ipcCaller⟩
  · obtain ⟨k', heq, hsettled, hexchanged, hfailed⟩ := h'.transferError .EFAULT hne.symm
      (fun t => (hfloating t).trans or_comm) hnone
    refine .inr ⟨k', by rw [heq]; rfl, hsettled, ?_, .inr ?_⟩
    · exact ⟨fun t h1 h2 => hexchanged.ctx t h2 h1, fun t _ => hfailed.ipcCaller t,
        hexchanged.channel, hexchanged.irq, hexchanged.sleeping,
        hobjects.trans hexchanged.objects⟩
    · exact ⟨hfailed.guilty, hfailed.innocent, hfailed.ipcCaller⟩

/-- The listener is resumed with the message that it has got, and owes the caller a response. -/
lemma deliver (h : Placed k place) (hne : caller ≠ listener)
    (hfloating : ∀ t, place t = .floating ↔ t = caller ∨ t = listener)
    (hnone : k.currentThread = none) (hidle : (k.thread listener).ipcCaller = none)
    (callback : ℕ) :
    ∃ k', ((k.called caller listener).setCtx listener
        { ((k.called caller listener).thread listener).ctx with
          pc := callback }).cpuContextRestoreAndExit listener = .ok k' ∧
      Settled k' ∧ Exchanged caller listener k k' ∧ k'.currentThread = some listener ∧
      (k'.thread listener).ctx = { (k.thread listener).ctx with pc := callback } ∧
      (k'.thread caller).ctx = (k.thread caller).ctx ∧
      (k'.thread listener).ipcCaller = some caller := by
  have hcaller : place caller = .floating := (hfloating caller).mpr (.inl rfl)
  have hlistener : place listener = .floating := (hfloating listener).mpr (.inr rfl)
  have h₁ := (h.called hcaller hidle).setCtx listener
    { ((k.called caller listener).thread listener).ctx with pc := callback }
  have hlistener₁ : Function.update place caller (.calling listener) listener = .floating := by
    rw [Function.update_of_ne hne.symm, hlistener]
  have h₂ := h₁.restored hlistener₁ hnone
  refine ⟨_, h₁.cpuContextRestoreAndExit hlistener₁ hnone, ⟨_, h₂, fun t ht => ?_⟩,
    ⟨fun t h1 h2 => ?_, fun t ht => ?_, fun i c => rfl, fun n => ⟨[], by simp, by simp; rfl⟩,
      fun t ht => ?_, ⟨rfl, rfl, rfl, rfl, rfl⟩⟩, rfl, ?_, ?_, ?_⟩
  · rw [Function.update_apply, Function.update_apply] at ht
    split_ifs at ht with h1 h2
    exact ((hfloating t).mp ht).elim h2 h1
  · simp [Kernel.restored, Kernel.setCtx, Kernel.called_thread, h2]
  · simp [Kernel.restored, Kernel.setCtx, Kernel.called_thread, ht]
  · simp only [Kernel.restored, Kernel.setCtx, Kernel.setThread_thread,
      Kernel.setCurrentThread_thread, Kernel.called_thread] at ht
    split_ifs at ht
    simp_all
  · simp [Kernel.restored, Kernel.setCtx, Kernel.called_thread]
  · simp [Kernel.restored, Kernel.setCtx, Kernel.called_thread, hne]
  · simp [Kernel.restored, Kernel.setCtx, Kernel.called_thread]

/-- Copying the string of a message whose registers are written. -/
lemma copyMessage (h : Placed k place) (hne : caller ≠ listener)
    (hfloating : ∀ t, place t = .floating ↔ t = caller ∨ t = listener)
    (hnone : k.currentThread = none) {ctx : ThreadId → Registers} {copies : ℕ → ℕ}
    {listenerCtx callerCtx : Registers} (hlistener : ctx listener = listenerCtx)
    (hcaller : ctx caller = callerCtx)
    (hctx : ∀ t, t ≠ caller → t ≠ listener → ctx t = (k.thread t).ctx) :
    (∃ ctx' copies', (k.withCtx ctx copies).copyString caller listener =
        .ok (.returns (), k.withCtx ctx' copies') ∧ ctx' listener = listenerCtx ∧
      ctx' caller = callerCtx ∧ ∀ t, t ≠ caller → t ≠ listener → ctx' t = (k.thread t).ctx) ∨
    ∃ k', (k.withCtx ctx copies).copyString caller listener = .ok (.exits, k') ∧ Settled k' ∧
      Exchanged caller listener k k' ∧ TransferFailed caller listener k k' := by
  rcases (h.withCtx ctx copies).copyString hne hfloating hnone with heq | ⟨k', heq, hsettled,
    hexchanged, hfailed⟩
  · exact .inl ⟨ctx, _, heq, hlistener, hcaller, hctx⟩
  · refine .inr ⟨k', heq, hsettled, hexchanged.of_withCtx hctx, ?_⟩
    rcases hfailed with hfailed | hfailed
    · exact .inr (.inl ⟨hfailed.guilty, hfailed.innocent, hfailed.ipcCaller⟩)
    · exact .inr (.inr ⟨hfailed.guilty, hfailed.innocent, hfailed.ipcCaller⟩)

/-- The message is in the registers of the listener, or both threads have returned. -/
lemma transferMessage (h : Placed k place) (hne : caller ≠ listener)
    (hfloating : ∀ t, place t = .floating ↔ t = caller ∨ t = listener)
    (hnone : k.currentThread = none) {transferMode : ℕ} (hmode : transferMode < transferMax) :
    (∃ ctx copies, k.transferMessage caller listener transferMode =
        .ok (.returns (), k.withCtx ctx copies) ∧
      ctx listener = { (k.thread listener).ctx with
        a1 := if transferMode = ipcTransferRegister then (k.thread caller).ctx.a1
          else (k.thread listener).ctx.a1
        a2 := (messageLenMode (k.thread caller).ctx (k.thread listener).ctx transferMode).1
        a3 := (messageLenMode (k.thread caller).ctx (k.thread listener).ctx transferMode).2 } ∧
      ctx caller =
        { (k.thread caller).ctx with a3 := waitingMode (k.thread caller).ctx transferMode } ∧
      ∀ t, t ≠ caller → t ≠ listener → ctx t = (k.thread t).ctx) ∨
    ∃ k', k.transferMessage caller listener transferMode = .ok (.exits, k') ∧ Settled k' ∧
      Exchanged caller listener k k' ∧ TransferFailed caller listener k k' := by
  unfold Kernel.transferMessage
  dsimp only
  by_cases hregister : transferMode = ipcTransferRegister
  · -- the registers are the message
    left
    rw [if_pos hregister, setCtx_eq]
    refine ⟨_, _, rfl, ?_, ?_, fun t h1 h2 => ?_⟩
    · simp [hregister, messageLenMode]
    · simp [hne, hregister, waitingMode]
    · simp [h2]
  rw [if_neg hregister]
  by_cases hwrite : transferMode = ipcTransferWrite
  · rw [if_neg (by simp [hwrite]), if_pos hwrite]
    unfold Kernel.setLenMode Kernel.setMode
    rw [setCtx_eq, setCtx_eq, withCtx_withCtx]
    refine h.copyMessage hne hfloating hnone ?_ ?_ fun t h1 h2 => ?_
    · simp [hwrite, messageLenMode, Kernel.withCtx, hne.symm]
    · simp [hwrite, waitingMode, Kernel.withCtx, hne]
    · simp [h1, h2, Kernel.withCtx]
  by_cases hread : transferMode = ipcTransferRead
  · -- the caller waits for a string
    left
    rw [if_neg (by simp [hread]), if_neg hwrite, if_pos hread]
    unfold Kernel.setLenMode Kernel.setMode
    rw [setCtx_eq, setCtx_eq, withCtx_withCtx]
    refine ⟨_, _, rfl, ?_, ?_, fun t h1 h2 => ?_⟩
    · simp [hread, messageLenMode, Kernel.withCtx, hne.symm]
    · simp [hread, waitingMode, Kernel.withCtx, hne]
    · simp [h1, h2, Kernel.withCtx]
  have hstring : transferMode = ipcTransferSmallstr ∨ transferMode = ipcTransferLargestr := by
    simp only [ipcTransferRegister, ipcTransferSmallstr, ipcTransferLargestr, ipcTransferRead,
      ipcTransferWrite, transferMax] at *
    omega
  rw [if_pos hstring]
  by_cases hbig : (k.thread caller).ctx.a2 > (k.thread listener).ctx.a2 ∧
      (k.thread caller).ctx.a3 &&& ipcCallFragment = 0
  · -- the string is too long for the listener
    right
    rw [if_pos hbig]
    obtain ⟨k', heq, hsettled, hexchanged, hfailed⟩ := h.transferError .E2BIG hne hfloating hnone
    exact ⟨k', by rw [heq]; rfl, hsettled, hexchanged, .inl hfailed⟩
  · have hlen : (if (k.thread caller).ctx.a2 > (k.thread listener).ctx.a2
        then (k.thread listener).ctx.a2 else (k.thread caller).ctx.a2) =
        min (k.thread caller).ctx.a2 (k.thread listener).ctx.a2 := by
      split_ifs <;> omega
    rw [if_neg hbig, hlen]
    unfold Kernel.setLenMode
    rw [setCtx_eq]
    refine h.copyMessage hne hfloating hnone ?_ ?_ fun t h1 h2 => ?_
    · simp [hregister, hwrite, hread, messageLenMode]
    · simp [hwrite, hread, waitingMode, hne]
    · simp [h2]

/-- A transfer to a listener that owes no response -/
lemma callTransfer (h : Placed k place) (hne : caller ≠ listener)
    (hfloating : ∀ t, place t = .floating ↔ t = caller ∨ t = listener)
    (hnone : k.currentThread = none) (hidle : (k.thread listener).ipcCaller = none)
    {transferMode : ℕ} (hmode : transferMode < transferMax) :
    ∃ k', k.callTransfer caller listener transferMode = .ok k' ∧ Settled k' ∧
      Exchanged caller listener k k' ∧
      (Delivered caller listener transferMode k k' ∨ TransferFailed caller listener k k') := by
  have hcaller : (k.thread caller).state = .floating := by
    rw [h.state, (hfloating caller).mpr (.inl rfl), Place.state]
  have hlistener : (k.thread listener).state = .floating := by
    rw [h.state, (hfloating listener).mpr (.inr rfl), Place.state]
  unfold Kernel.callTransfer assert
  rw [if_pos (decide_eq_true hcaller), ok_bind, if_pos (decide_eq_true hlistener), ok_bind,
    if_pos (decide_eq_true hidle), ok_bind]
  dsimp only
  rw [setCtx_eq]
  generalize hdef : (fun m => if m = listener then
      { (k.thread listener).ctx with
        a4 := (k.thread caller).ctx.a4
        a5 := (k.thread caller).ctx.a5 } else (k.thread m).ctx) = ctx
  have h₁ := h.withCtx ctx k.copies
  rcases h₁.transferMessage hne hfloating hnone hmode with
    ⟨ctx₂, copies₂, heq, hlistener₂, hcaller₂, hothers₂⟩ | ⟨k', heq, hsettled, hexchanged, hfailed⟩
  · rw [heq, ok_bind, withCtx_withCtx]
    obtain ⟨k', hdeliver, hsettled, hexchanged, hrunning, hlistener₃, hcaller₃, howes⟩ :=
      (h.withCtx ctx₂ copies₂).deliver hne hfloating hnone hidle (k.thread listener).ctx.a4
    refine ⟨k', hdeliver, hsettled, hexchanged.of_withCtx fun t h1 h2 => ?_,
      .inl ⟨hrunning, ?_, ?_, howes⟩⟩
    · rw [hothers₂ t h1 h2, ← hdef]
      exact if_neg h2
    · have hread : ((k.withCtx ctx₂ copies₂).thread listener).ctx = ctx₂ listener := rfl
      rw [hlistener₃, hread, hlistener₂, ← hdef]
      simp [Kernel.withCtx, messageCtx, messageLenMode, hne]
    · rw [hcaller₃]
      change ctx₂ caller = _
      rw [hcaller₂, ← hdef]
      simp [Kernel.withCtx, hne]
  · refine ⟨k', by rw [heq]; rfl, hsettled, hexchanged.of_withCtx fun t h1 h2 => ?_, .inr ?_⟩
    · rw [← hdef]
      exact if_neg h2
    · exact hfailed.of_withCtx

/-- A transfer to a listener that owes a response stops the kernel. -/
lemma callTransfer_busy (h : Placed k place)
    (hfloating : ∀ t, place t = .floating ↔ t = caller ∨ t = listener)
    (hbusy : (k.thread listener).ipcCaller ≠ none) (transferMode : ℕ) :
    k.callTransfer caller listener transferMode = .error (.assertion .listenerIdle) := by
  have hcaller : (k.thread caller).state = .floating := by
    rw [h.state, (hfloating caller).mpr (.inl rfl), Place.state]
  have hlistener : (k.thread listener).state = .floating := by
    rw [h.state, (hfloating listener).mpr (.inr rfl), Place.state]
  unfold Kernel.callTransfer assert
  rw [if_pos (decide_eq_true hcaller), ok_bind, if_pos (decide_eq_true hlistener), ok_bind,
    if_neg (by simpa using hbusy)]
  rfl

end Placed

end Fluke
