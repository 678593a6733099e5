import Fluke.User.Ipc.Meeting

/-!
# Calls and listens

A thread that calls or listens comes back at once with an error, waits in its channel, or meets the
first thread that waits there on the other side. Nothing else happens to the channels, and only a
listener that has not responded yet can stop the kernel.
-/

namespace Fluke

open Outcome

/-! ### Waiting and meeting -/

/-- The thread has met the first one that waits in the channel. -/
structure Met (k : Kernel) (t : ThreadId) (ctx : Registers) (i c : ℕ) (ipc : IpcImpl)
    (peer caller listener : ThreadId) (transferMode : ℕ) (k' : Kernel) : Prop where
  first : (k.queue (.channel i c)).head? = some peer
  idle : (k.thread listener).ipcCaller = none
  exchanged : Exchanged caller listener (k.meets t ctx i c ipc peer) k'
  outcome : Delivered caller listener transferMode (k.meets t ctx i c ipc peer) k' ∨
    TransferFailed caller listener (k.meets t ctx i c ipc peer) k'

section

variable {k : Kernel} {place : ThreadId → Place} {t : ThreadId} {ctx : Registers} {i c : ℕ}
  {ipc : IpcImpl} {state : ChannelState}

lemma waits_queue (k : Kernel) (t : ThreadId) (ctx : Registers) (i c : ℕ) (ipc : IpcImpl)
    (state : ChannelState) : (k.waits t ctx i c ipc state).queue (.channel i c) =
      k.queue (.channel i c) ++ [t] := by
  simp [Kernel.waits, Kernel.pushed, Kernel.setChannelState, Kernel.held, Kernel.saved,
    Kernel.setCtx]

lemma waits_ctx (k : Kernel) (t m : ThreadId) (ctx : Registers) (i c : ℕ) (ipc : IpcImpl)
    (state : ChannelState) : ((k.waits t ctx i c ipc state).thread m).ctx =
      if m = t then ctx else (k.thread m).ctx := by
  by_cases hm : m = t
  · subst hm
    simp [Kernel.waits, Kernel.pushed, Kernel.setChannelState, Kernel.held, Kernel.saved,
      Kernel.setCtx]
  · simp [Kernel.waits, Kernel.pushed, Kernel.setChannelState, Kernel.held, Kernel.saved,
      Kernel.setCtx, hm]

lemma held_ipcCaller (k : Kernel) (t m : ThreadId) (ctx : Registers) :
    ((k.held t ctx).thread m).ipcCaller = (k.thread m).ipcCaller := by
  by_cases hm : m = t
  · subst hm
    simp [Kernel.held, Kernel.saved, Kernel.setCtx]
  · simp [Kernel.held, Kernel.saved, Kernel.setCtx, hm]

lemma saved_eq_held (k : Kernel) (t : ThreadId) : k.saved t = k.held t k.userContext := by
  unfold Kernel.held Kernel.setCtx Kernel.saved Kernel.setThread Kernel.setCurrentThread
  simp

lemma meets_thread (k : Kernel) (t m : ThreadId) (ctx : Registers) (i c : ℕ) (ipc : IpcImpl)
    (peer : ThreadId) : (k.meets t ctx i c ipc peer).thread m =
      ((k.held t ctx).popped peer (.channel i c)).thread m := by
  unfold Kernel.meets
  dsimp only
  split_ifs
  · rfl
  · rfl

lemma meets_ipcCaller (k : Kernel) (t m : ThreadId) (ctx : Registers) (i c : ℕ) (ipc : IpcImpl)
    (peer : ThreadId) : ((k.meets t ctx i c ipc peer).thread m).ipcCaller =
      (k.thread m).ipcCaller := by
  rw [meets_thread, ← held_ipcCaller k t m ctx]
  by_cases hm : m = peer
  · subst hm
    simp [Kernel.popped]
  · simp [Kernel.popped, hm]

lemma meets_currentThread (k : Kernel) (t : ThreadId) (ctx : Registers) (i c : ℕ) (ipc : IpcImpl)
    (peer : ThreadId) : (k.meets t ctx i c ipc peer).currentThread = none := by
  unfold Kernel.meets
  dsimp only
  split_ifs
  · rfl
  · rfl

/-- One more thread with a call waits in the channel. -/
lemma ChannelOk.calls (h : ChannelOk k i ipc c state) (hstate : state ≠ .listening)
    (hplaced : Placed k place) (ht : place t = .running) (h0 : ctx.r0 = syscallIpcCall ∨
      ctx.r0 = syscallRead ∨ ctx.r0 = syscallWrite) (hmode : ctx.a0 < transferMax)
    (hmap : ipc.transferMap[ctx.a0]? = some (c + 1)) :
    ChannelOk (k.waits t ctx i c ipc .calling) i ipc c .calling := by
  rw [ChannelOk, waits_queue]
  refine ⟨by simp, fun m hm => ?_⟩
  rw [Kernel.Calls, waits_ctx]
  rcases List.mem_append.mp hm with hold | hnew
  · have hne : m ≠ t := by
      rintro rfl
      rw [(hplaced.queue _ m).mp hold] at ht
      cases ht
    rw [if_neg hne]
    cases state with
    | empty =>
      rw [show k.queue (.channel i c) = [] from h] at hold
      cases hold
    | listening => exact absurd rfl hstate
    | calling => exact h.2 m hold
  · rw [List.mem_singleton.mp hnew, if_pos rfl]
    exact ⟨h0, hmode, hmap⟩

/-- One more thread listens to the channel. -/
lemma ChannelOk.listens (h : ChannelOk k i ipc c state) (hstate : state ≠ .calling)
    (hplaced : Placed k place) (ht : place t = .running) (h0 : ctx.r0 = syscallIpcListen)
    (hi : ctx.a0 = i) (hc : ctx.a3 = c + 1) :
    ChannelOk (k.waits t ctx i c ipc .listening) i ipc c .listening := by
  rw [ChannelOk, waits_queue]
  refine ⟨by simp, fun m hm => ?_⟩
  rw [Kernel.Listens, waits_ctx]
  rcases List.mem_append.mp hm with hold | hnew
  · have hne : m ≠ t := by
      rintro rfl
      rw [(hplaced.queue _ m).mp hold] at ht
      cases ht
    rw [if_neg hne]
    cases state with
    | empty =>
      rw [show k.queue (.channel i c) = [] from h] at hold
      cases hold
    | listening => exact h.2 m hold
    | calling => exact absurd rfl hstate
  · rw [List.mem_singleton.mp hnew, if_pos rfl]
    exact ⟨h0, hi, hc⟩

namespace Placed

/-- The thread waits in a channel of an open object. -/
lemma wait (h : Placed k place) (hno : ∀ t, place t ≠ .floating) (ht : place t = .running)
    (hipcs : IpcsOk k) (hi : k.ipcs i = some ipc) (hc : c < ipc.channelCount)
    (hcall : ipc.closedCall = false) (hlisten : ipc.closedListen = false)
    (hok : ChannelOk (k.waits t ctx i c ipc state) i ipc c state) :
    ∃ k', (do
        let k ← ((k.held t ctx).setChannelState i c ipc state).pushInto (.channel i c) t
        k.scheduleOrExit) = .ok k' ∧ Settled k' ∧ IpcsOk k' ∧
      Passed (k.waits t ctx i c ipc state) k' := by
  have h₁ : Placed ((k.held t ctx).setChannelState i c ipc state)
      (Function.update place t .floating) := (h.held ht ctx).setIpc _ _
  have h₂ := @Placed.pushed _ _ t h₁ (Function.update_self _ _ _) i c
  obtain ⟨k', heq, hsettled, hpassed⟩ := @Placed.block k place t i c ipc h hno ht ctx state
  exact ⟨k', heq, hsettled, (hipcs.waits h ht hi hc hcall hlisten hok).passed h₂ hpassed, hpassed⟩

/-- The transfer between the thread and the first one that waits in the channel. -/
lemma meetTransfer (h : Placed k place) (hno : ∀ t, place t ≠ .floating) (ht : place t = .running)
    (hipcs : IpcsOk k) (hi : k.ipcs i = some ipc) (hcall : ipc.closedCall = false)
    (hlisten : ipc.closedListen = false) (hs : ipc.channels[c]? = some state)
    {peer caller listener : ThreadId} {threads : List ThreadId}
    (hq : k.queue (.channel i c) = peer :: threads)
    (hroles : caller = t ∧ listener = peer ∨ caller = peer ∧ listener = t) {transferMode : ℕ}
    (hmode : transferMode < transferMax) :
    Ensures (fun e => (k.thread listener).ipcCaller ≠ none ∧ e = .assertion .listenerIdle)
      (fun k' => Settled k' ∧ IpcsOk k' ∧
        Met k t ctx i c ipc peer caller listener transferMode k')
      ((k.meets t ctx i c ipc peer).callTransfer caller listener transferMode) := by
  obtain ⟨-, hne, place', h', hfloating⟩ :=
    @Placed.meet k place t i c ipc h hno ht ctx peer threads hq
  have hneRoles : caller ≠ listener := by
    rcases hroles with ⟨rfl, rfl⟩ | ⟨rfl, rfl⟩
    · exact hne.symm
    · exact hne
  have hfloating' : ∀ m, place' m = .floating ↔ m = caller ∨ m = listener := by
    intro m
    rw [hfloating]
    rcases hroles with ⟨rfl, rfl⟩ | ⟨rfl, rfl⟩
    · rfl
    · exact or_comm
  rcases h'.meet_transfer hneRoles hfloating' (meets_currentThread ..) hmode with
    ⟨hbusy, heq⟩ | ⟨hidle, k', heq, hsettled, hexchanged, houtcome⟩
  · rw [heq]
    exact ⟨by rwa [meets_ipcCaller] at hbusy, rfl⟩
  · rw [heq]
    have hipcs' : IpcsOk k' :=
      (hipcs.meets h ht hi hcall hlisten ctx hs hq).exchanged h' ((hfloating' _).mpr (.inl rfl))
        ((hfloating' _).mpr (.inr rfl)) hexchanged
    exact ⟨hsettled, hipcs', ⟨by rw [hq]; rfl, by rwa [meets_ipcCaller] at hidle, hexchanged,
      houtcome⟩⟩

end Placed

end

/-! ### Calls -/

/-- Why a call stops the kernel. -/
def CallStop (k : Kernel) (i : ℕ) (e : Panic) : Prop :=
  k.ipcs i = none ∧ e = .invalidPointer ∨
  ∃ ipc, k.ipcs i = some ipc ∧ ipc.closedListen = false ∧
    (ipc.closedCall = true ∧ e = .assertion .endOpen ∨
      ∃ c listener, ipc.channels[c]? = some .listening ∧
        (k.queue (.channel i c)).head? = some listener ∧
        (k.thread listener).ipcCaller ≠ none ∧ e = .assertion .listenerIdle)

/-- The call comes back at once, waits, or meets a listener. -/
def CallDone (k : Kernel) (t : ThreadId) (i transferMode : ℕ)
    (r : Flow (Result ℕ) × Kernel) : Prop :=
  (∃ e, r = (.returns (.error e), k)) ∨
  ∃ ipc c state, k.ipcs i = some ipc ∧ ipc.closedCall = false ∧ ipc.closedListen = false ∧
    ipc.transferMap[transferMode]? = some (c + 1) ∧ c < ipc.channelCount ∧
    ipc.channels[c]? = some state ∧ r.1 = .exits ∧
    (state ≠ .listening ∧
        Passed (k.waits t { k.userContext with a0 := transferMode } i c ipc .calling) r.2 ∨
      state = .listening ∧ ∃ listener,
        Met k t { k.userContext with a0 := transferMode } i c ipc listener t listener
          transferMode r.2)

section

variable {k : Kernel} {t : ThreadId} {i : ℕ} {ipc : IpcImpl}

/-- The channel that a transfer mode names. -/
lemma IpcOk.transferChannel (h : IpcOk k i ipc) {transferMode : ℕ}
    (hmode : transferMode < transferMax) :
    (∃ e, ipc.transferChannel transferMode = .ok (.error e)) ∨
    ∃ c, ipc.transferChannel transferMode = .ok (.ok c) ∧
      ipc.transferMap[transferMode]? = some (c + 1) ∧ c < ipc.channelCount := by
  have hlt : transferMode < ipc.transferMap.length := by rwa [h.transferLength]
  have hget : ipc.transferMap[transferMode]? = some ipc.transferMap[transferMode] :=
    List.getElem?_eq_getElem hlt
  have hle := h.transfers transferMode _ hget
  unfold IpcImpl.transferChannel
  rw [hget]
  dsimp only
  split_ifs with hzero
  · exact .inl ⟨_, rfl⟩
  · refine .inr ⟨_, rfl, ?_, by omega⟩
    rw [Nat.sub_add_cancel (Nat.pos_of_ne_zero hzero)]

lemma IpcOk.channelState (h : IpcOk k i ipc) {c : ℕ} (hc : c < ipc.channelCount) :
    ∃ state, Kernel.channelState ipc c = .ok state ∧ ipc.channels[c]? = some state := by
  have hlt : c < ipc.channels.length := by
    rwa [h.channels]
  have hget : ipc.channels[c]? = some ipc.channels[c] := List.getElem?_eq_getElem hlt
  refine ⟨_, ?_, hget⟩
  unfold Kernel.channelState
  rw [hget]

/-- A call of the thread that runs -/
lemma Kernel.ipcCallMode_spec (hsettled : Settled k) (hipcs : IpcsOk k)
    (hcurrent : k.currentThread = some t) (h0 : k.userContext.r0 = syscallIpcCall ∨
      k.userContext.r0 = syscallRead ∨ k.userContext.r0 = syscallWrite)
    {transferMode : ℕ} (hmode : transferMode < transferMax) :
    Ensures (CallStop k i)
      (fun r => Settled r.2 ∧ IpcsOk r.2 ∧ CallDone k t i transferMode r)
      (k.ipcCallMode i transferMode) := by
  obtain ⟨place, h, hno⟩ := hsettled
  obtain ⟨hsave, ht⟩ := h.cpuContextSave hcurrent
  unfold Kernel.ipcCallMode Kernel.ipcAt
  cases hi : k.ipcs i with
  | none => exact .inl ⟨hi, rfl⟩
  | some ipc =>
    have hipc := hipcs.live i ipc hi
    rw [ok_bind]
    cases hlisten : ipc.closedListen with
    | true => exact ⟨⟨place, h, hno⟩, hipcs, .inl ⟨_, rfl⟩⟩
    | false =>
      rw [if_neg (by simp)]
      cases hcall : ipc.closedCall with
      | true => exact .inr ⟨ipc, hi, hlisten, .inl ⟨hcall, rfl⟩⟩
      | false =>
        rw [assert, if_pos (by rfl), ok_bind]
        rcases hipc.transferChannel hmode with ⟨e, hchannel⟩ | ⟨c, hchannel, hmap, hc⟩
        · rw [hchannel]
          exact ⟨⟨place, h, hno⟩, hipcs, .inl ⟨_, rfl⟩⟩
        obtain ⟨state, hstate, hs⟩ := hipc.channelState hc
        have hok := hipc.notClosed hcall hlisten c state hs
        rw [hchannel, ok_bind]
        dsimp only
        rw [hstate, ok_bind, hsave, ok_bind]
        dsimp only
        have hheld : (k.saved t).setCtx t { ((k.saved t).thread t).ctx with a0 := transferMode } =
            k.held t { k.userContext with a0 := transferMode } := by
          simp [Kernel.held, Kernel.saved]
        rw [hheld]
        have hqueue : (k.held t { k.userContext with a0 := transferMode }).queue (.channel i c) =
            k.queue (.channel i c) := rfl
        have hcalls {state : ChannelState} (hok : ChannelOk k i ipc c state)
            (hstate : state ≠ .listening) :=
          @ChannelOk.calls k place t { k.userContext with a0 := transferMode } i c ipc state hok
            hstate h ht h0 hmode hmap
        have hdone (r : Flow (Result ℕ) × Kernel) := fun hr hr' =>
          (Or.inr ⟨ipc, c, state, hi, hcall, hlisten, hmap, hc, hs, hr, hr'⟩ :
            CallDone k t i transferMode r)
        cases state with
        | empty =>
          obtain ⟨k', heq, hsettled', hipcs', hpassed⟩ := h.wait hno ht hipcs hi hc hcall hlisten
            (hcalls hok (by simp))
          have hempty : k.queue (.channel i c) = [] := hok
          dsimp only
          rw [hqueue, assert, if_pos (decide_eq_true hempty), ok_bind, ← bind_assoc, heq, ok_bind]
          exact ⟨hsettled', hipcs', hdone _ rfl (.inl ⟨by simp, hpassed⟩)⟩
        | listening =>
          obtain ⟨listener, threads, hq⟩ := List.exists_cons_of_ne_nil hok.1
          obtain ⟨hpop, -⟩ := @Placed.meet k place t i c ipc h hno ht
            { k.userContext with a0 := transferMode } listener threads hq
          have hmeets := @Placed.meetTransfer k place t { k.userContext with a0 := transferMode }
            i c ipc _ h hno ht hipcs hi hcall hlisten hs listener t listener threads hq
            (.inl ⟨rfl, rfl⟩) transferMode hmode
          dsimp only
          rw [hpop, ok_bind]
          refine Ensures.bind (hmeets.mono (fun e he => ?_) fun _ hk' => hk') fun k' hk' => ?_
          · exact .inr ⟨ipc, hi, hlisten, .inr ⟨c, listener, hs, by rw [hq]; rfl, he⟩⟩
          · exact ⟨hk'.1, hk'.2.1, hdone _ rfl (.inr ⟨rfl, listener, hk'.2.2⟩)⟩
        | calling =>
          obtain ⟨k', heq, hsettled', hipcs', hpassed⟩ := h.wait hno ht hipcs hi hc hcall hlisten
            (hcalls hok (by simp))
          rw [Kernel.setChannelState_self (k.held t _)
            (show (k.held t { k.userContext with a0 := transferMode }).ipcs i = some ipc from hi)
            hs] at heq
          dsimp only
          rw [hqueue, assert, if_pos (decide_eq_true hok.1), ok_bind, ← bind_assoc, heq, ok_bind]
          exact ⟨hsettled', hipcs', hdone _ rfl (.inl ⟨by simp, hpassed⟩)⟩

end

/-! ### Listens -/

/-- Why a listen stops the kernel. -/
def ListenStop (k : Kernel) (t : ThreadId) (i channelId : ℕ) (e : Panic) : Prop :=
  k.ipcs i = none ∧ e = .invalidPointer ∨
  ∃ ipc, k.ipcs i = some ipc ∧ ipc.closedCall = false ∧
    (ipc.closedListen = true ∧ e = .assertion .endOpen ∨
      ipc.closedListen = false ∧ channelId = 0 ∧ e = .outOfBounds ∨
      ∃ c, channelId = c + 1 ∧ ipc.channels[c]? = some .calling ∧
        (k.thread t).ipcCaller ≠ none ∧ e = .assertion .listenerIdle)

/-- The listen comes back at once, waits, or meets a caller. -/
def ListenDone (k : Kernel) (t : ThreadId) (i channelId : ℕ) (r : Flow (Result ℕ) × Kernel) :
    Prop :=
  (∃ e, r = (.returns (.error e), k)) ∨
  ∃ ipc c state, k.ipcs i = some ipc ∧ ipc.closedCall = false ∧ ipc.closedListen = false ∧
    channelId = c + 1 ∧ c < ipc.channelCount ∧ ipc.channels[c]? = some state ∧ r.1 = .exits ∧
    (state ≠ .calling ∧ Passed (k.waits t k.userContext i c ipc .listening) r.2 ∨
      state = .calling ∧ ∃ caller, Met k t k.userContext i c ipc caller caller t
        (k.thread caller).ctx.a0 r.2)

section

variable {k : Kernel} {t : ThreadId} {i : ℕ}

/-- A listen of the thread that runs -/
lemma Kernel.ipcListen_spec (hsettled : Settled k) (hipcs : IpcsOk k)
    (hcurrent : k.currentThread = some t) (h0 : k.userContext.r0 = syscallIpcListen)
    (ha0 : k.userContext.a0 = i) :
    Ensures (ListenStop k t i k.userContext.a3)
      (fun r => Settled r.2 ∧ IpcsOk r.2 ∧ ListenDone k t i k.userContext.a3 r)
      (k.ipcListen i k.userContext) := by
  obtain ⟨place, h, hno⟩ := hsettled
  obtain ⟨hsave, ht⟩ := h.cpuContextSave hcurrent
  unfold Kernel.ipcListen Kernel.ipcAt
  cases hi : k.ipcs i with
  | none => exact .inl ⟨hi, rfl⟩
  | some ipc =>
    have hipc := hipcs.live i ipc hi
    rw [ok_bind]
    cases hcall : ipc.closedCall with
    | true => exact ⟨⟨place, h, hno⟩, hipcs, .inl ⟨_, rfl⟩⟩
    | false =>
      rw [if_neg (by simp)]
      cases hlisten : ipc.closedListen with
      | true => exact .inr ⟨ipc, hi, hcall, .inl ⟨hlisten, rfl⟩⟩
      | false =>
        rw [assert, if_pos (by rfl), ok_bind]
        dsimp only
        split_ifs with hlarge
        · exact ⟨⟨place, h, hno⟩, hipcs, .inl ⟨_, rfl⟩⟩
        have hcount := hipc.count
        cases hid : k.userContext.a3 with
        | zero =>
          -- the channel before the first one
          have hbeyond : ipc.channels[usub 0 1]? = none := by
            refine List.getElem?_eq_none ?_
            rw [hipc.channels, show usub 0 1 = 2 ^ 64 - 1 from rfl]
            simp only [transferMax] at hcount
            omega
          rw [Kernel.channelState, hbeyond]
          exact .inr ⟨ipc, hi, hcall, .inr (.inl ⟨hlisten, rfl, rfl⟩)⟩
        | succ c =>
          have hc : c < ipc.channelCount := by omega
          obtain ⟨state, hstate, hs⟩ := hipc.channelState hc
          have hok := hipc.notClosed hcall hlisten c state hs
          have hindex : usub (c + 1) 1 = c := by
            simp only [transferMax] at hcount
            rw [usub_of_le (by omega) (by omega), Nat.add_sub_cancel]
          have hqueue : (k.held t k.userContext).queue (.channel i c) = k.queue (.channel i c) :=
            rfl
          have hlistens {state : ChannelState} (hok : ChannelOk k i ipc c state)
              (hstate : state ≠ .calling) :=
            @ChannelOk.listens k place t k.userContext i c ipc state hok hstate h ht h0 ha0 hid
          have hdone (r : Flow (Result ℕ) × Kernel) := fun hr hr' =>
            (Or.inr ⟨ipc, c, state, hi, hcall, hlisten, rfl, hc, hs, hr, hr'⟩ :
              ListenDone k t i (c + 1) r)
          rw [hindex, hstate, ok_bind, hsave, ok_bind]
          dsimp only
          rw [saved_eq_held]
          cases state with
          | empty =>
            obtain ⟨k', heq, hsettled', hipcs', hpassed⟩ := h.wait hno ht hipcs hi hc hcall hlisten
              (hlistens hok (by simp))
            have hempty : k.queue (.channel i c) = [] := hok
            dsimp only
            rw [hqueue, assert, if_pos (decide_eq_true hempty), ok_bind, ← bind_assoc, heq,
              ok_bind]
            exact ⟨hsettled', hipcs', hdone _ rfl (.inl ⟨by simp, hpassed⟩)⟩
          | listening =>
            obtain ⟨k', heq, hsettled', hipcs', hpassed⟩ := h.wait hno ht hipcs hi hc hcall hlisten
              (hlistens hok (by simp))
            rw [Kernel.setChannelState_self (k.held t k.userContext)
              (show (k.held t k.userContext).ipcs i = some ipc from hi) hs] at heq
            dsimp only
            rw [hqueue, assert, if_pos (decide_eq_true hok.1), ok_bind, ← bind_assoc, heq, ok_bind]
            exact ⟨hsettled', hipcs', hdone _ rfl (.inl ⟨by simp, hpassed⟩)⟩
          | calling =>
            obtain ⟨caller, threads, hq⟩ := List.exists_cons_of_ne_nil hok.1
            have hmem : caller ∈ k.queue (.channel i c) := by rw [hq]; exact List.mem_cons_self
            have hmode : (k.thread caller).ctx.a0 < transferMax := (hok.2 caller hmem).2.1
            obtain ⟨hpop, hne, -⟩ :=
              @Placed.meet k place t i c ipc h hno ht k.userContext caller threads hq
            have hmeets := @Placed.meetTransfer k place t k.userContext i c ipc _ h hno ht hipcs hi
              hcall hlisten hs caller caller t threads hq (.inr ⟨rfl, rfl⟩) _ hmode
            have hctx : ((k.meets t k.userContext i c ipc caller).thread caller).ctx =
                (k.thread caller).ctx := by
              rw [meets_thread, ← h.held_ctx ht k.userContext hmem]
              simp [Kernel.popped]
            have hint : toInt32 (k.thread caller).ctx.a0 = (k.thread caller).ctx.a0 := by
              simp only [transferMax] at hmode
              exact Nat.mod_eq_of_lt (by omega)
            dsimp only
            rw [hpop, ok_bind]
            change Ensures _ _ ((k.meets t k.userContext i c ipc caller).callTransfer caller t
              (toInt32 ((k.meets t k.userContext i c ipc caller).thread caller).ctx.a0) >>= _)
            rw [hctx, hint]
            refine Ensures.bind (hmeets.mono (fun e he => ?_) fun _ hk' => hk') fun k' hk' => ?_
            · exact .inr ⟨ipc, hi, hcall, .inr (.inr ⟨c, rfl, hs, he⟩)⟩
            · exact ⟨hk'.1, hk'.2.1, hdone _ rfl (.inr ⟨rfl, caller, hk'.2.2⟩)⟩

end

end Fluke
