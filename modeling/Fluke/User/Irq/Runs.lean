import Fluke.User.Irq.Moves

/-!
# Interrupts over a run

An interrupt that arrives wakes the thread that has waited longest, or is remembered until a thread
asks for it. A thread that waits goes on once: with 1 for an interrupt, with an error when its time
has come or the handle is closed.
-/

namespace Fluke

open Outcome

/-- The system call has returned to the thread with the value. -/
def Kernel.Returns (k : Kernel) (t : ThreadId) (value : ℕ) : Prop :=
  k.currentThread = some t ∧ k.userContext.r0 = value

/-- A thread asks for the interrupt by `interrupt_control`. -/
def AsksFor (n : Fin 16) (k : Kernel) (entry : Entry) : Prop :=
  ∃ t ctx s, entry = .syscall ctx s ∧ k.currentThread = some t ∧ ctx.r0 = syscallObjctl ∧
    s.descriptor = .ok (.irq n) ∧ toInt32 ctx.a1 &&& irqCtlWait ≠ 0

section

variable {k k₁ k' : Kernel} {t : ThreadId} {place : ThreadId → Place} {entry : Entry}
  {s : Surroundings} {r : Flow (Result ℕ) × Kernel}

/-! ### A thread that waits -/

/-- Who waits for an interrupt after a step has waited before it, or has run. -/
lemma IrqMove.mem {n : Fin 16} (h : IrqMove k entry k') (ht : t ∈ k'.queue (.irq n)) :
    t ∈ k.queue (.irq n) ∨ k.currentThread = some t := by
  cases h with
  | kept h => exact .inl (h.mem ht)
  | @joins l ctx s m k₁ _ hcurrent _ hjoins h =>
    have hmem := h.mem ht
    by_cases hm : n = m
    · subst hm
      rw [hjoins.queue, List.mem_append, List.mem_singleton] at hmem
      rcases hmem with hmem | rfl
      · exact .inl hmem
      · exact .inr hcurrent
    · rw [hjoins.queues n hm] at hmem
      exact .inl hmem
  | consumes _ hqueue =>
    rw [hqueue] at ht
    exact .inl ht
  | @arrives irq ctx m l k₁ _ _ hleaves _ h =>
    have hmem := h.mem ht
    by_cases hm : n = m
    · subst hm
      rw [hleaves.queue]
      exact .inl (List.mem_cons_of_mem _ hmem)
    · rw [hleaves.queues n hm] at hmem
      exact .inl hmem
  | remembers _ _ hqueues _ _ _ h =>
    have hmem := h.mem ht
    rw [hqueues] at hmem
    exact .inl hmem
  | @closes m ctx value _ hempty hqueues =>
    by_cases hm : n = m
    · rw [hm, hempty] at ht
      exact absurd ht List.not_mem_nil
    · rw [hqueues n hm] at ht
      exact .inl ht

lemma IrqMove.order (h : IrqMove k entry k') (n : Fin 16) :
    ∃ joined : List ThreadId, (∀ t ∈ joined, k.currentThread = some t) ∧
      (k'.queue (.irq n)).Sublist (k.queue (.irq n) ++ joined) := by
  have hkept : ∀ {k₁ : Kernel}, IrqKept k₁ k' →
      (k'.queue (.irq n)).Sublist (k₁.queue (.irq n)) := by
    intro k₁ h
    obtain ⟨woken, -, hqueue⟩ := h.queue n
    rw [hqueue]
    exact List.filter_sublist
  have hnone : ∀ t ∈ ([] : List ThreadId), k.currentThread = some t := by simp
  cases h with
  | kept h => exact ⟨[], hnone, by simpa using hkept h⟩
  | @joins t ctx s m k₁ _ hcurrent _ hjoins h =>
    refine ⟨[t], fun l hl => by rw [List.mem_singleton.mp hl, hcurrent], (hkept h).trans ?_⟩
    by_cases hm : n = m
    · subst hm
      rw [hjoins.queue]
    · rw [hjoins.queues n hm]
      exact List.sublist_append_left _ _
  | consumes _ hqueue => exact ⟨[], hnone, by simp [hqueue]⟩
  | @arrives irq ctx m t k₁ _ _ hleaves _ h =>
    refine ⟨[], hnone, (hkept h).trans ?_⟩
    rw [List.append_nil]
    by_cases hm : n = m
    · subst hm
      rw [hleaves.queue]
      exact List.sublist_cons_self _ _
    · rw [hleaves.queues n hm]
  | remembers _ _ hqueues _ _ _ h =>
    refine ⟨[], hnone, (hkept h).trans ?_⟩
    rw [List.append_nil, hqueues]
  | @closes m ctx value _ hempty hqueues =>
    refine ⟨[], hnone, ?_⟩
    rw [List.append_nil]
    by_cases hm : n = m
    · rw [hm, hempty]
      exact List.nil_sublist _
    · rw [hqueues n hm]

/-- No system call but a close gives an interrupt up. -/
lemma SyscallDone.claimed {n : Fin 16} (h : SyscallDone t s k r)
    (hn : (k.irqs n).isClaimed = true) : (r.2.irqs n).isClaimed = true := by
  have hset : ∀ {k : Kernel} (m : Fin 16) (irq : IrqHandle), (k.irqs n).isClaimed = true →
      ((k.irqs m).isClaimed = true → irq.isClaimed = true) →
      ((k.setIrq m irq).irqs n).isClaimed = true := by
    intro k m irq hn hirq
    rw [Kernel.setIrq_irqs]
    split_ifs with hm
    · exact hirq (hm ▸ hn)
    · exact hn
  cases h with
  | other => exact hn
  | claims =>
    rcases k.doSyscallClaimIrq_eq s with heq | ⟨m, -, -, heq⟩
    · rw [heq]
      exact hn
    · rw [heq]
      exact hset m _ hn fun _ => rfl
  | sleeps _ hslept =>
    cases hslept with
    | refused => exact hn
    | sleeps _ hpassed =>
      rw [hpassed.objects.irqs]
      exact hn
  | adds => exact hn
  | creates => exact hn
  | controls m _ _ _ hcontrolled =>
    cases hcontrolled with
    | invalid => exact hn
    | done => exact hset m _ hn id
    | waited _ _ enabled hwaited =>
      have hn' := hset m { k.irqs m with enabled := enabled } hn id
      cases hwaited with
      | pending => exact hset m _ hn' id
      | expired => exact hn'
      | waits _ _ hpassed =>
        rw [hpassed.objects.irqs]
        exact hn'
  | calls _ _ _ _ hcall =>
    rcases hcall with ⟨e, rfl⟩ | ⟨_, _, _, _, _, _, _, _, _, _, ⟨-, hpassed⟩ | ⟨-, l, hmet⟩⟩
    · exact hn
    · rw [hpassed.objects.irqs]
      exact hn
    · rw [hmet.exchanged.objects.irqs, (meets_objects ..).2.1]
      exact hn
  | listens _ hlistens =>
    rcases hlistens with ⟨e, rfl⟩ | ⟨_, _, _, _, _, _, _, _, _, _, ⟨-, hpassed⟩ | ⟨-, l, hmet⟩⟩
    · exact hn
    · rw [hpassed.objects.irqs]
      exact hn
    · rw [hmet.exchanged.objects.irqs, (meets_objects ..).2.1]
      exact hn
  | responds _ _ _ hresponded =>
    rw [hresponded.objects.irqs]
    exact hn

/-- No system call changes the flag but one that asks for the interrupt. -/
lemma SyscallDone.flag {n : Fin 16} (h : SyscallDone t s k r) :
    (r.2.irqs n).interruptOccurred = (k.irqs n).interruptOccurred ∨
      k.userContext.r0 = syscallObjctl ∧ s.descriptor = .ok (.irq n) ∧
        toInt32 k.userContext.a1 &&& irqCtlWait ≠ 0 := by
  have hset : ∀ {k : Kernel} (m : Fin 16) (irq : IrqHandle),
      irq.interruptOccurred = (k.irqs m).interruptOccurred →
      ((k.setIrq m irq).irqs n).interruptOccurred = (k.irqs n).interruptOccurred := by
    intro k m irq hirq
    rw [Kernel.setIrq_irqs]
    split_ifs with hm
    · rw [hirq, hm]
    · rfl
  cases h with
  | other => exact .inl rfl
  | claims =>
    rcases k.doSyscallClaimIrq_eq s with heq | ⟨m, -, -, heq⟩
    · rw [heq]
      exact .inl rfl
    · rw [heq]
      exact .inl (hset m _ rfl)
  | sleeps _ hslept =>
    cases hslept with
    | refused => exact .inl rfl
    | sleeps _ hpassed => exact .inl (by rw [hpassed.objects.irqs]; rfl)
  | adds => exact .inl rfl
  | creates => exact .inl rfl
  | controls m hnumber hdescriptor _ hcontrolled =>
    cases hcontrolled with
    | invalid => exact .inl rfl
    | done => exact .inl (hset m _ rfl)
    | waited _ hwait enabled hwaited =>
      by_cases hm : n = m
      · subst hm
        exact .inr ⟨hnumber, hdescriptor, hwait⟩
      have hsame := hset (k := k) m { k.irqs m with enabled := enabled } rfl
      refine .inl ?_
      cases hwaited with
      | pending =>
        rw [Kernel.setIrq_irqs, if_neg hm]
        exact hsame
      | expired => exact hsame
      | waits _ _ hpassed =>
        rw [hpassed.objects.irqs]
        exact hsame
  | calls _ _ _ _ hcall =>
    rcases hcall with ⟨e, rfl⟩ | ⟨_, _, _, _, _, _, _, _, _, _, ⟨-, hpassed⟩ | ⟨-, l, hmet⟩⟩
    · exact .inl rfl
    · exact .inl (by rw [hpassed.objects.irqs]; rfl)
    · exact .inl (by rw [hmet.exchanged.objects.irqs, (meets_objects ..).2.1])
  | listens _ hlistens =>
    rcases hlistens with ⟨e, rfl⟩ | ⟨_, _, _, _, _, _, _, _, _, _, ⟨-, hpassed⟩ | ⟨-, l, hmet⟩⟩
    · exact .inl rfl
    · exact .inl (by rw [hpassed.objects.irqs]; rfl)
    · exact .inl (by rw [hmet.exchanged.objects.irqs, (meets_objects ..).2.1])
  | responds _ _ _ hresponded => exact .inl (by rw [hresponded.objects.irqs])

/-- An interrupt that is remembered is taken by a thread that asks for it, and by nothing else. -/
lemma StepDone.taken {n : Fin 16} (h : StepDone k entry k')
    (hbefore : (k.irqs n).interruptOccurred = true)
    (hafter : (k'.irqs n).interruptOccurred = false)
    (hmove : ∀ irq ctx, entry = .interrupt (some irq) ctx → (k'.irqs n).interruptOccurred = true) :
    AsksFor n k entry := by
  have hkept : (k'.irqs n).interruptOccurred ≠ (k.irqs n).interruptOccurred := by
    rw [hbefore, hafter]
    exact Bool.false_ne_true
  cases h with
  | @returns t ctx s _ _ hcurrent hdone =>
    rcases hdone.flag (n := n) with hsame | hasks
    · exact absurd hsame hkept
    · exact ⟨t, ctx, s, rfl, hcurrent, hasks⟩
  | @exits t ctx s _ hcurrent hdone =>
    rcases hdone.flag (n := n) with hsame | hasks
    · exact absurd hsame hkept
    · exact ⟨t, ctx, s, rfl, hcurrent, hasks⟩
  | tick hpassed =>
    rw [hpassed.objects.irqs] at hkept
    exact absurd rfl hkept
  | interrupt =>
    rw [hmove _ _ rfl] at hafter
    cases hafter
  | closeIpc _ hshut =>
    refine absurd ?_ hkept
    exact congrArg (fun irqs => (irqs n).interruptOccurred) hshut.irqs
  | @closeIrq m value ctx k'' hwoke =>
    refine absurd ?_ hkept
    change (k''.irqs n).interruptOccurred = _
    rw [hwoke.objects.irqs, Kernel.setIrq_irqs]
    split_ifs with hm
    · rw [hm]
    · rfl
  | closeModule => exact absurd rfl hkept
  | closeServer _ hshut =>
    refine absurd ?_ hkept
    exact congrArg (fun irqs => (irqs n).interruptOccurred) hshut.irqs

lemma IrqReceived.isClaimed {irq : ℤ} {n : Fin 16} (h : IrqReceived irq k k') :
    (k'.irqs n).isClaimed = (k.irqs n).isClaimed := by
  cases h with
  | unknown _ hkept => rw [hkept]
  | woke _ _ _ _ _ hwoken =>
    rw [hwoken]
    rfl
  | remembered m _ _ hoccurred =>
    rw [hoccurred, Kernel.setIrq_irqs]
    split_ifs with hm
    · rw [hm]
    · rfl

lemma StepDone.claimed {n : Fin 16} (h : StepDone k entry k')
    (hn : (k.irqs n).isClaimed = true)
    (hentry : ∀ ctx value, entry ≠ .close (.irq n) ctx value) : (k'.irqs n).isClaimed = true := by
  cases h with
  | returns _ hdone => exact hdone.claimed hn
  | exits _ hdone => exact hdone.claimed hn
  | tick hpassed =>
    rw [hpassed.objects.irqs]
    exact hn
  | @interrupt irq ctx k₀ k₁ _ hdisabled hreceived hpassed =>
    rw [hpassed.objects.irqs]
    change (k₁.irqs n).isClaimed = true
    rw [hreceived.isClaimed]
    rcases hdisabled with rfl | ⟨m, -, rfl⟩
    · exact hn
    · rw [Kernel.setIrq_irqs]
      split_ifs with hm
      · rw [← hm]
        exact hn
      · exact hn
  | @closeIpc i value ctx ipc k'' _ hshut =>
    change (k''.irqs n).isClaimed = true
    rw [hshut.irqs]
    exact hn
  | @closeIrq m value ctx k'' hwoke =>
    have hm : n ≠ m := by
      rintro rfl
      exact hentry ctx value rfl
    change (k''.irqs n).isClaimed = true
    rw [hwoke.objects.irqs, Kernel.setIrq_irqs, if_neg hm]
    exact hn
  | closeModule => exact hn
  | @closeServer i ctx ipc k'' _ hshut =>
    change (k''.irqs n).isClaimed = true
    rw [hshut.irqs]
    exact hn

end

end Fluke
