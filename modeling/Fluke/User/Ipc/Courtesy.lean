import Fluke.User.Ipc.Channels
import Fluke.User.Ipc.Progress

/-!
# Listeners that owe a response

Nothing stops a thread from listening again before it has responded. The next call that reaches it
then fails an assertion of the kernel. In a run where no thread does so none of them fails.
-/

namespace Fluke

open Outcome

/-- The descriptors and the server pointers that a system call names refer to what is there: an
object whose end is open, an interrupt that is claimed. A listen names a channel of the object. -/
def Surroundings.Refers (s : Surroundings) (ctx : Registers) (k : Kernel) : Prop :=
  (∀ i, s.descriptor = .ok (.ipc i) → ∃ ipc, k.ipcs i = some ipc ∧ ipc.closedCall = false) ∧
  (∀ n, s.descriptor = .ok (.irq n) → (k.irqs n).isClaimed = true) ∧
  (ctx.r0 = syscallIpcListen → ∃ ipc, k.ipcs ctx.a0 = some ipc ∧ ipc.closedListen = false ∧
    1 ≤ ctx.a3 ∧ ctx.a3 ≤ ipc.channelCount)

/-- A thread that owes a response does not listen. -/
def Entry.Polite (entry : Entry) (k : Kernel) : Prop :=
  ∀ t ctx s, k.currentThread = some t → entry = .syscall ctx s → ctx.r0 = syscallIpcListen →
    (k.thread t).ipcCaller = none

/-- A thread that waits for a call owes no response. -/
def ListenersIdle (k : Kernel) : Prop :=
  ∀ i c, ∀ t ∈ k.queue (.channel i c), (k.thread t).ctx.r0 = syscallIpcListen →
    (k.thread t).ipcCaller = none

section

variable {k k' : Kernel} {t : ThreadId} {ctx : Registers} {i c : ℕ} {ipc : IpcImpl}
  {state : ChannelState}

lemma ListenersIdle.congr (h : ListenersIdle k)
    (hqueue : ∀ i c, ∀ t ∈ k'.queue (.channel i c), t ∈ k.queue (.channel i c) ∧
      (k'.thread t).ctx = (k.thread t).ctx ∧
      (k'.thread t).ipcCaller = (k.thread t).ipcCaller) : ListenersIdle k' := by
  intro i c t ht hlistens
  obtain ⟨hmem, hctx, hcaller⟩ := hqueue i c t ht
  rw [hcaller]
  exact h i c t hmem (hctx ▸ hlistens)

lemma ListenersIdle.kept (h : ListenersIdle k) (hkept : BlockedKept k k') : ListenersIdle k' := by
  refine h.congr fun i c t ht => ?_
  rw [hkept.queue] at ht
  exact ⟨ht, hkept.ctx t (.inl ⟨i, c, ht⟩), hkept.owed t⟩

/-- The thread that starts to wait is a caller, or owes no response. -/
lemma ListenersIdle.startsWaiting (h : ListenersIdle k)
    (hwaits : StartsWaiting t ctx i c ipc state k k')
    (hidle : ctx.r0 = syscallIpcListen → (k.thread t).ipcCaller = none) : ListenersIdle k' := by
  intro j d m hm hlistens
  rw [hwaits.owed]
  by_cases hmt : m = t
  · subst hmt
    rw [hwaits.self] at hlistens
    exact hidle hlistens
  · have hmem : m ∈ k.queue (.channel j d) := by
      by_cases hchannel : j = i ∧ d = c
      · obtain ⟨rfl, rfl⟩ := hchannel
        rw [hwaits.queue, List.mem_append, List.mem_singleton] at hm
        exact hm.resolve_right hmt
      · rw [not_and] at hchannel
        rwa [hwaits.queues j d hchannel] at hm
    rw [hwaits.others m (.inl ⟨j, d, hmem⟩)] at hlistens
    exact h j d m hmem hlistens

/-- The first one leaves the channel. -/
lemma Meets.mem_iff {place : ThreadId → Place} (hplaced : Placed k place)
    {peer caller listener : ThreadId} {transferMode : ℕ}
    (h : Meets t ctx i c ipc peer caller listener transferMode k k') {j d : ℕ} {m : ThreadId} :
    m ∈ k'.queue (.channel j d) ↔ m ∈ k.queue (.channel j d) ∧ m ≠ peer := by
  have hnodup := hplaced.nodup (.channel i c)
  rw [h.queue, List.nodup_cons] at hnodup
  by_cases hchannel : j = i ∧ d = c
  · obtain ⟨rfl, rfl⟩ := hchannel
    rw [h.queue, List.mem_cons]
    constructor
    · intro hm
      refine ⟨.inr hm, ?_⟩
      rintro rfl
      exact hnodup.1 hm
    · rintro ⟨rfl | hm, hne⟩
      · exact absurd rfl hne
      · exact hm
  · rw [not_and] at hchannel
    rw [h.queues j d hchannel]
    refine (and_iff_left_of_imp fun hm => ?_).symm
    rintro rfl
    have hpeer := (hplaced.queue (.channel i c) m).mp (by rw [h.queue]; exact List.mem_cons_self)
    rw [(hplaced.queue _ m).mp hm] at hpeer
    cases hpeer
    exact hchannel rfl rfl

/-- The two threads that meet leave the queues, or were in none. -/
lemma ListenersIdle.meets {place : ThreadId → Place} (hplaced : Placed k place)
    (h : ListenersIdle k) {peer caller listener : ThreadId} {transferMode : ℕ}
    (hmeets : Meets t ctx i c ipc peer caller listener transferMode k k')
    (hroles : listener = peer ∨ listener = t) : ListenersIdle k' := by
  refine h.congr fun j d m hm => ?_
  have hmem := (hmeets.mem_iff hplaced).mp hm
  have hblocked : k.Blocked m := .inl ⟨j, d, hmem.1⟩
  refine ⟨hmem.1, hmeets.others m hblocked hmem.2, hmeets.owed m ?_⟩
  rcases hroles with rfl | rfl
  · exact hmem.2
  · exact hplaced.ne_of_current hmeets.current hblocked

lemma ListenersIdle.responds (h : ListenersIdle k) {place : ThreadId → Place}
    (hplaced : Placed k place) {caller : ThreadId} (hresponds : Responds t caller ctx k k') :
    ListenersIdle k' := by
  intro i c m hm hlistens
  rw [hresponds.queue] at hm
  have hne : m ≠ caller := by
    rintro rfl
    have hplace := (hplaced.queue _ m).mp hm
    rw [(hplaced.caller t m).mp hresponds.owes] at hplace
    cases hplace
  rw [hresponds.others m (.inl ⟨i, c, hm⟩) hne] at hlistens
  rw [hresponds.owed]
  split_ifs
  · rfl
  · exact h i c m hm hlistens

lemma ListenersIdle.shut (h : ListenersIdle k) {place : ThreadId → Place}
    (hplaced : Placed k place) {listeners callers : ErrorCode}
    (hshut : Shut i listeners callers ipc k k') : ListenersIdle k' := by
  refine h.congr fun j d m hm => ?_
  by_cases hj : j = i
  · rw [hj, hshut.queue] at hm
    exact absurd hm List.not_mem_nil
  · rw [hshut.queues _ (by simp) (by simp [hj])] at hm
    rw [hshut.others m fun e hm' => ?_]
    · exact ⟨hm, rfl, rfl⟩
    · have hplace := (hplaced.queue _ m).mp hm
      rw [(hplaced.queue _ m).mp hm'] at hplace
      cases hplace
      exact hj rfl

lemma ModeOf.not_listen {transferMode : ℕ} (h : ModeOf ctx transferMode) :
    ctx.r0 ≠ syscallIpcListen := by
  rcases h with ⟨h, -⟩ | ⟨h, -⟩ | ⟨h, -⟩
  · rw [h]
    decide
  · rw [h]
    decide
  · rw [h]
    decide

/-- Each step of a polite run keeps the listeners idle. -/
lemma ListenersIdle.step {entry : Entry} (hok : KernelOk k) (h : ListenersIdle k)
    (hpolite : entry.Polite k) (hstep : IpcStep k entry k') : ListenersIdle k' := by
  obtain ⟨place, hplaced, -⟩ := hok.settled
  cases hstep with
  | kept hkept => exact h.kept hkept
  | callWaits _ _ _ hmode _ _ _ hwaits =>
    exact h.startsWaiting hwaits fun hlistens => absurd hlistens hmode.not_listen
  | callMeets _ _ _ _ _ _ hmeets => exact h.meets hplaced hmeets (.inl rfl)
  | listenWaits hnumber _ _ _ _ _ hwaits =>
    exact h.startsWaiting hwaits fun _ => hpolite _ _ _ hwaits.current rfl hnumber
  | listenMeets _ _ _ _ _ hmeets => exact h.meets hplaced hmeets (.inr rfl)
  | responds _ hresponds => exact h.responds hplaced hresponds
  | @closesCall i value ctx _ _ _ hshut =>
    have h' := ListenersIdle.shut (k := k.setUserContext ctx) h (hplaced.setUserContext ctx) hshut
    exact h'.congr fun _ _ _ hm => ⟨hm, rfl, rfl⟩
  | @closesListen i ctx _ _ _ hshut =>
    have h' := ListenersIdle.shut (k := k.setUserContext ctx) h (hplaced.setUserContext ctx) hshut
    exact h'.congr fun _ _ _ hm => ⟨hm, rfl, rfl⟩

/-- The first thread listens, gets a call and listens again before it responds. The next call fails
an assertion. -/
theorem Kernel.Running.listenerIdle_fails : ¬ ∀ k : Kernel, k.Running → ∀ ctx s,
    (Entry.syscall ctx s).Admitted k → s.Refers ctx k →
      k.step (.syscall ctx s) ≠ .error (.assertion .listenerIdle) := by
  intro hall
  have hsecond : Kernel.Running _ :=
    .step (.call (.module 0) syscallThreadSpawn 0 0 0 0) (.init Kernel.first_booted)
      ⟨rfl, Surroundings.granting_valid _⟩ rfl
  have hthird : Kernel.Running _ :=
    .step (.call (.module 0) syscallThreadSpawn 0 0 0 0) hsecond
      ⟨rfl, Surroundings.granting_valid _⟩ rfl
  have hcreated : Kernel.Running _ :=
    .step (.call (.module 0) syscallIpcCreate 0 5 0 0) hthird
      ⟨rfl, Surroundings.granting_valid _⟩ rfl
  have hlistens : Kernel.Running _ :=
    .step (.call (.ipc 0) syscallIpcListen 0 0 0 1) hcreated
      ⟨rfl, Surroundings.granting_valid _⟩ rfl
  have hcalled : Kernel.Running _ :=
    .step (.call (.ipc 0) syscallIpcCall 0 0 0 0x10000) hlistens
      ⟨rfl, Surroundings.granting_valid _⟩ rfl
  have hagain : Kernel.Running _ :=
    .step (.call (.ipc 0) syscallIpcListen 0 0 0 1) hcalled
      ⟨rfl, Surroundings.granting_valid _⟩ rfl
  refine hall _ hagain ⟨syscallIpcCall, 0, 0, 0, 0x10000, 0, 0, 0, 0⟩ (.granting (.ipc 0))
    ⟨rfl, Surroundings.granting_valid _⟩ ⟨fun i hi => ?_, fun n hn => ?_, fun hlisten => ?_⟩ rfl
  · cases hi
    exact ⟨_, rfl, rfl⟩
  · cases hn
  · cases hlisten

end

end Fluke
