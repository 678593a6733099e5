import Fluke.User.Threads

/-!
# The channels over a run

The channels of an object stay true to their queues as long as both ends are open, whatever calls
and listens arrive.
-/

namespace Fluke

open Outcome

/-- The state of the channel, its queue and the threads in it agree. -/
structure ChannelTrue (k : Kernel) (i : ℕ) (ipc : IpcImpl) (c : ℕ) (state : ChannelState) :
    Prop where
  empty : state = .empty ↔ k.queue (.channel i c) = []
  listening : state = .listening → ∀ t ∈ k.queue (.channel i c),
    (k.thread t).state = .waiting ∧ k.Listens i c t
  calling : state = .calling → ∀ t ∈ k.queue (.channel i c),
    (k.thread t).state = .waiting ∧ k.Calls ipc c t
  apart : ∀ t ∈ k.queue (.channel i c), k.Listens i c t →
    ∀ t' ∈ k.queue (.channel i c), ¬ k.Calls ipc c t'

/-- The assertions that are left to a system call: that the end is open and the interrupt claimed,
and that the listener owes no response. -/
inductive Assertion.Expected : Assertion → Prop
  | endOpen : Expected .endOpen
  | listenerIdle : Expected .listenerIdle
  | irqClaimed : Expected .irqClaimed

section

variable {k : Kernel} {t : ThreadId} {i c : ℕ} {ipc : IpcImpl} {state : ChannelState}

lemma Kernel.Listens.not_calls (h : k.Listens i c t) : ¬ k.Calls ipc c t := by
  rintro ⟨hnumber, -⟩
  rw [h.1] at hnumber
  revert hnumber
  decide

lemma Kernel.Calls.not_listen (h : k.Calls ipc c t) : (k.thread t).ctx.r0 ≠ syscallIpcListen := by
  rcases h.1 with hnumber | hnumber | hnumber
  · rw [hnumber]
    decide
  · rw [hnumber]
    decide
  · rw [hnumber]
    decide

lemma ChannelOk.channelTrue (h : ChannelOk k i ipc c state) (hsettled : Settled k) :
    ChannelTrue k i ipc c state := by
  obtain ⟨place, hplaced, -⟩ := hsettled
  have hwaiting : ∀ t ∈ k.queue (.channel i c), (k.thread t).state = .waiting := fun t ht => by
    rw [hplaced.state, (hplaced.queue _ t).mp ht, Place.state]
  cases state with
  | empty =>
    have hempty : k.queue (.channel i c) = [] := h
    refine ⟨iff_of_true rfl hempty, fun hs => (by cases hs), fun hs => (by cases hs),
      fun t ht => ?_⟩
    rw [hempty] at ht
    exact absurd ht List.not_mem_nil
  | listening =>
    refine ⟨iff_of_false (by simp) h.1, fun _ t ht => ⟨hwaiting t ht, h.2 t ht⟩,
      fun hs => (by cases hs), fun _ _ _ t' ht' => (h.2 t' ht').not_calls⟩
  | calling =>
    refine ⟨iff_of_false (by simp) h.1, fun hs => (by cases hs),
      fun _ t ht => ⟨hwaiting t ht, h.2 t ht⟩, fun t ht hlistens => ?_⟩
    exact absurd (h.2 t ht) hlistens.not_calls

lemma CallStop.expected {a : Assertion} (h : CallStop k i (.assertion a)) : a.Expected := by
  rcases h with ⟨-, h⟩ | ⟨ipc, -, -, ⟨-, h⟩ | ⟨c, listener, -, -, -, h⟩⟩
  · cases h
  · cases h
    exact .endOpen
  · cases h
    exact .listenerIdle

lemma ListenStop.expected {a : Assertion} {channelId : ℕ}
    (h : ListenStop k t i channelId (.assertion a)) : a.Expected := by
  rcases h with ⟨-, h⟩ | ⟨ipc, -, -, ⟨-, h⟩ | ⟨-, -, h⟩ | ⟨c, -, -, -, h⟩⟩
  · cases h
  · cases h
    exact .endOpen
  · cases h
  · cases h
    exact .listenerIdle

/-- While both ends of an object are open, each of its channels is true to its queue, and a system
call meets none of the assertions about queues. -/
theorem Kernel.Running.channels {k : Kernel} (h : k.Running) :
    (∀ i ipc, k.ipcs i = some ipc → ipc.closedCall = false → ipc.closedListen = false →
      ∀ c < ipc.channelCount, ∃ state, ipc.channels[c]? = some state ∧
        ChannelTrue k i ipc c state) ∧
    ∀ ctx s, (Entry.syscall ctx s).Admitted k → ∀ a,
      k.step (.syscall ctx s) = .error (.assertion a) → a.Expected := by
  have hok := h.kernelOk
  constructor
  · intro i ipc hi hcall hlisten c hc
    have hipc := hok.ipcs.live i ipc hi
    obtain ⟨state, -, hs⟩ := hipc.channelState hc
    exact ⟨state, hs, (hipc.notClosed hcall hlisten c state hs).channelTrue hok.settled⟩
  · intro ctx s hadmitted a ha
    have hstop := (ensures_iff.mp (Kernel.step_spec hok hadmitted)).2 _ ha
    cases hstop with
    | syscall hcurrent hstop =>
      cases hstop with
      | call i transferMode hdescriptor hmode hstop => exact hstop.expected
      | listen hnumber hstop => exact hstop.expected
      | irq n hdescriptor hclaimed hstop =>
        cases hstop
        exact .irqClaimed

end

/-- The first thread adds another one, makes an IPC object and calls it. -/
theorem Kernel.Running.channels_call : ∃ (k : Kernel) (ipc : IpcImpl), k.ipcs 0 = some ipc ∧
    k.queue (.channel 0 0) = [0] ∧ ∃ state, ipc.channels[0]? = some state ∧
      ChannelTrue k 0 ipc 0 state := by
  have hspawned : Kernel.Running _ :=
    .step (.call (.module 0) syscallThreadSpawn 0 0 0 0) (.init Kernel.first_booted)
      ⟨rfl, Surroundings.granting_valid _⟩ rfl
  have hcreated : Kernel.Running _ :=
    .step (.call (.module 0) syscallIpcCreate 0 5 0 0) hspawned
      ⟨rfl, Surroundings.granting_valid _⟩ rfl
  have hcalled : Kernel.Running _ :=
    .step (.call (.ipc 0) syscallIpcCall 0 0 0 0x10000) hcreated
      ⟨rfl, Surroundings.granting_valid _⟩ rfl
  exact ⟨_, _, rfl, rfl, hcalled.channels.1 0 _ rfl rfl rfl 0 (by decide)⟩

/-! ### Indices -/

section

variable {k : Kernel} {t : ThreadId} {i : ℕ}

lemma CallStop.ne_outOfBounds (h : CallStop k i .outOfBounds) : False := by
  rcases h with ⟨-, h⟩ | ⟨ipc, -, -, ⟨-, h⟩ | ⟨c, listener, -, -, -, h⟩⟩ <;> cases h

/-- The channel before the first one -/
lemma Kernel.ipcListen_zero (hipcs : IpcsOk k) {ctx : Registers} {ipc : IpcImpl}
    (hi : k.ipcs i = some ipc) (hcall : ipc.closedCall = false)
    (hlisten : ipc.closedListen = false) (hzero : ctx.a3 = 0) :
    k.ipcListen i ctx = .error .outOfBounds := by
  have hipc := hipcs.live i ipc hi
  have hbeyond : ipc.channels[usub 0 1]? = none := by
    have hcount := hipc.count
    refine List.getElem?_eq_none ?_
    rw [hipc.channels, show usub 0 1 = 2 ^ 64 - 1 from rfl]
    simp only [transferMax] at hcount
    omega
  unfold Kernel.ipcListen Kernel.ipcAt
  rw [hi, ok_bind, hcall, if_neg (by simp), hlisten, assert, if_pos (by rfl), ok_bind, hzero]
  dsimp only
  rw [if_neg (by simp), Kernel.channelState, hbeyond]
  rfl

/-- The listen names no channel, and the object is open. -/
def ListensToNone (k : Kernel) (ctx : Registers) : Prop :=
  ctx.r0 = syscallIpcListen ∧ ctx.a3 = 0 ∧
    ∃ ipc, k.ipcs ctx.a0 = some ipc ∧ ipc.closedCall = false ∧ ipc.closedListen = false

/-- A system call indexes the channels and the transfer map of an object inside of them, unless it
is a listen for channel 0. -/
theorem Kernel.Running.inBounds_iff (h : k.Running) {ctx : Registers} {s : Surroundings}
    (hadmitted : (Entry.syscall ctx s).Admitted k) :
    k.step (.syscall ctx s) ≠ .error .outOfBounds ↔ ¬ ListensToNone k ctx := by
  have hok := h.kernelOk
  constructor
  · rintro hstep ⟨hnumber, hzero, ipc, hi, hcall, hlisten⟩
    refine hstep ?_
    have hlistens := @Kernel.ipcListen_zero (k.setUserContext ctx) ctx.a0
      (hok.ipcs.setUserContext ctx) ctx ipc hi hcall hlisten hzero
    have hsyscall : (k.setUserContext ctx).syscall ctx s = .error .outOfBounds := by
      unfold Kernel.syscall
      rw [hnumber]
      exact hlistens
    change Kernel.syscallEntry ctx s k = _
    rw [Kernel.syscallEntry, hsyscall]
    rfl
  · intro hnone hstep
    have hstop := (ensures_iff.mp (Kernel.step_spec hok hadmitted)).2 _ hstep
    cases hstop with
    | syscall hcurrent hstop =>
      cases hstop with
      | call i transferMode hdescriptor hmode hstop => exact hstop.ne_outOfBounds
      | irq n hdescriptor hclaimed hstop => cases hstop
      | listen hnumber hstop =>
        rcases hstop with ⟨-, h⟩ | ⟨ipc, hi, hcall, ⟨-, h⟩ | ⟨hlisten, hzero, -⟩ | ⟨c, -, -, -, h⟩⟩
        · cases h
        · cases h
        · exact hnone ⟨hnumber, hzero, ipc, hi, hcall, hlisten⟩
        · cases h

/-- A listen for the first channel of a new object -/
theorem Kernel.Running.inBounds_one : ∃ k : Kernel, (k.ipcs 0).isSome ∧
    k.step (.call (.ipc 0) syscallIpcListen 0 0 0 1) ≠ .error .outOfBounds := by
  have hcreated : Kernel.Running _ :=
    .step (.call (.module 0) syscallIpcCreate 0 5 0 0) (.init Kernel.first_booted)
      ⟨rfl, Surroundings.granting_valid _⟩ rfl
  have hone := (hcreated.inBounds_iff ⟨rfl, Surroundings.granting_valid (.ipc 0)⟩).mpr
    fun h : ListensToNone _ ⟨syscallIpcListen, 0, 0, 0, 1, 0, 0, 0, 0⟩ => absurd h.2.1 (by decide)
  exact ⟨_, rfl, hone⟩

/-- An object is made, and its channel 0 is listened to. -/
theorem Kernel.Running.outOfBounds_zero : ¬ ∀ (k : Kernel), k.Running → ∀ ctx s,
    (Entry.syscall ctx s).Admitted k → k.step (.syscall ctx s) ≠ .error .outOfBounds := by
  intro hall
  have hcreated : Kernel.Running _ :=
    .step (.call (.module 0) syscallIpcCreate 0 5 0 0) (.init Kernel.first_booted)
      ⟨rfl, Surroundings.granting_valid _⟩ rfl
  exact hall _ hcreated ⟨syscallIpcListen, 0, 0, 0, 0, 0, 0, 0, 0⟩ (.granting (.ipc 0))
    ⟨rfl, Surroundings.granting_valid _⟩ rfl

end

end Fluke
