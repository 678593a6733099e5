import Fluke.User.Irq
import Fluke.User.Ipc.Transfer
import Fluke.User.Schedule.Waking

/-!
# Waiting for interrupts

An interrupt that arrives wakes the thread that has waited longest, or is remembered. A thread that
waits returns with what it was woken with, or with the value that was written in advance when its
time comes.
-/

namespace Fluke

open Outcome

/-- The thread waits for the interrupt, with the value it returns when its time comes. -/
def Kernel.irqWaits (k : Kernel) (t : ThreadId) (n : Fin 16) (timeout : ℕ) : Kernel :=
  (((k.saved t).setR0 t ErrorCode.EAGAIN.negated).pushed t (.irq n)).tick.slept t timeout .waiting

section

variable {k : Kernel} {place : ThreadId → Place} {t : ThreadId}

lemma irqWaits_queue (k : Kernel) (t : ThreadId) (n : Fin 16) (timeout : ℕ) (q : QueueId) :
    (k.irqWaits t n timeout).queue q =
      if q = .irq n then k.queue (.irq n) ++ [t] else k.queue q := by
  by_cases hq : q = .irq n
  · subst hq
    simp [Kernel.irqWaits, Kernel.slept, Kernel.pushed, Kernel.setR0, Kernel.setCtx, Kernel.saved]
  · simp [Kernel.irqWaits, Kernel.slept, Kernel.pushed, Kernel.setR0, Kernel.setCtx, Kernel.saved,
      hq]

lemma irqWaits_thread (k : Kernel) (t m : ThreadId) (n : Fin 16) (timeout : ℕ) :
    (k.irqWaits t n timeout).thread m = if m = t then
      { k.thread t with
        ctx := { k.userContext with r0 := ErrorCode.EAGAIN.negated }
        state := .waiting
        timeout := timeout
        queueRoot := some (.irq n) }
      else k.thread m := by
  by_cases hm : m = t
  · subst hm
    simp [Kernel.irqWaits, Kernel.slept, Kernel.pushed, Kernel.setR0, Kernel.setCtx, Kernel.saved]
  · simp [Kernel.irqWaits, Kernel.slept, Kernel.pushed, Kernel.setR0, Kernel.setCtx, Kernel.saved,
      hm]

/-- What a thread that asks for the interrupt gets, or that it waits -/
inductive IrqWaited (t : ThreadId) (n : Fin 16) (k : Kernel) : Flow (Result ℕ) × Kernel → Prop
  | pending (hoccurred : (k.irqs n).interruptOccurred = true) :
      IrqWaited t n k (.returns (.ok 0), k.setIrq n { k.irqs n with interruptOccurred := false })
  | expired (hoccurred : (k.irqs n).interruptOccurred = false)
      (htimeout : toIsize k.userContext.a2 ≤ 0) : IrqWaited t n k (.returns (.error .EAGAIN), k)
  | waits (hoccurred : (k.irqs n).interruptOccurred = false)
      (htimeout : 0 < toIsize k.userContext.a2) {k' : Kernel}
      (hpassed : Passed
        (k.irqWaits t n (uaddIsize (k.clock 0) (toIsize k.userContext.a2))) k') :
      IrqWaited t n k (.exits, k')

lemma Placed.irqWaits (h : Placed k place) (hplace : place t = .running) (n : Fin 16)
    (timeout : ℕ) :
    Placed (k.irqWaits t n timeout) (Function.update place t (.queued (.irq n))) := by
  have hsaved := (h.saved hplace).setR0 t ErrorCode.EAGAIN.negated
  have hpushed := @Placed.pushedTimed _ _ t hsaved (Function.update_self _ _ _) n timeout
  rw [Function.update_idem] at hpushed
  exact hpushed.congr (fun _ => ⟨rfl, rfl, rfl⟩) rfl rfl rfl rfl

/-- The second half of `IRQ_handle::ctl`, of the thread that runs -/
lemma Kernel.irqWait_spec (hsettled : Settled k) (hcurrent : k.currentThread = some t)
    (n : Fin 16) :
    ∃ r, k.irqWait n k.userContext = .ok r ∧ Settled r.2 ∧ IrqWaited t n k r := by
  obtain ⟨place, h, hno⟩ := hsettled
  unfold Kernel.irqWait
  dsimp only
  split_ifs with hoccurred htimeout
  · exact ⟨_, rfl, ⟨place, h.setIrq n _, hno⟩, .pending hoccurred⟩
  · exact ⟨_, rfl, ⟨place, h, hno⟩, .expired (by simpa using hoccurred) htimeout⟩
  · obtain ⟨hsave, hplace⟩ := h.cpuContextSave hcurrent
    have hqueue := @Placed.scheduleQueueWithTimeout _ _ t (h.saved hplace)
      (Function.update_self _ _ _) _ (not_le.mp htimeout) n .EAGAIN
    obtain ⟨k', place', heq, h', hpassed, hfloating⟩ :=
      (h.irqWaits hplace n (uaddIsize (k.clock 0) (toIsize k.userContext.a2))).scheduleOrExit rfl
    refine ⟨(.exits, k'), ?_, ⟨place', h', fun m hm => ?_⟩,
      .waits (by simpa using hoccurred) (not_le.mp htimeout) hpassed⟩
    · rw [hsave, ok_bind]
      dsimp only
      rw [hqueue, ok_bind]
      change (Kernel.scheduleOrExit
        (k.irqWaits t n (uaddIsize (k.clock 0) (toIsize k.userContext.a2))) >>= _) = _
      rw [heq, ok_bind]
    · rw [hfloating, Function.update_apply] at hm
      split_ifs at hm
      exact hno m hm

/-- What `ctl` does -/
inductive IrqControlled (t : ThreadId) (n : Fin 16) (op : ℕ) (k : Kernel) :
    Flow (Result ℕ) × Kernel → Prop
  | invalid (hop : op / 4 ≠ 0) : IrqControlled t n op k (.returns (.error .EINVAL), k)
  | done (hop : op / 4 = 0) (hwait : op &&& irqCtlWait = 0) (enabled : Bool) :
      IrqControlled t n op k (.returns (.ok 0), k.setIrq n { k.irqs n with enabled := enabled })
  | waited (hop : op / 4 = 0) (hwait : op &&& irqCtlWait ≠ 0) (enabled : Bool)
      {r : Flow (Result ℕ) × Kernel}
      (hwaited : IrqWaited t n (k.setIrq n { k.irqs n with enabled := enabled }) r) :
      IrqControlled t n op k r

lemma Kernel.setIrq_self (k : Kernel) (n : Fin 16) :
    k.setIrq n { k.irqs n with enabled := (k.irqs n).enabled } = k := by
  unfold Kernel.setIrq
  rw [Function.update_eq_self]

/-- `IRQ_handle::ctl` of a handle that is claimed, by the thread that runs -/
lemma Kernel.irqCtl_spec (hsettled : Settled k) (hcurrent : k.currentThread = some t)
    (n : Fin 16) (op : ℕ) :
    Ensures (fun e => (k.irqs n).isClaimed = false ∧ e = .assertion .irqClaimed)
      (fun r => (k.irqs n).isClaimed = true ∧ Settled r.2 ∧ IrqControlled t n op k r)
      (k.irqCtl n k.userContext op) := by
  unfold Kernel.irqCtl
  cases hclaimed : (k.irqs n).isClaimed with
  | false => exact ⟨rfl, rfl⟩
  | true =>
    rw [assert, if_pos (by rfl), ok_bind]
    -- whether the interrupt is enabled matters to nothing else
    have henabled : ∃ enabled, (if op &&& irqCtlEnable ≠ 0
        then k.setIrq n { k.irqs n with enabled := true } else k) =
        k.setIrq n { k.irqs n with enabled := enabled } := by
      split_ifs
      · exact ⟨true, rfl⟩
      · exact ⟨(k.irqs n).enabled, (k.setIrq_self n).symm⟩
    obtain ⟨enabled, heq⟩ := henabled
    dsimp only
    rw [heq]
    have hsettled' : Settled (k.setIrq n { k.irqs n with enabled := enabled }) := by
      obtain ⟨place, h, hno⟩ := hsettled
      exact ⟨place, h.setIrq n _, hno⟩
    by_cases hop : op / 4 ≠ 0
    · rw [if_pos hop]
      exact ⟨rfl, hsettled, .invalid hop⟩
    · rw [if_neg hop]
      by_cases hwait : op &&& irqCtlWait ≠ 0
      · rw [if_pos hwait]
        obtain ⟨r, hr, hsettled'', hwaited⟩ := Kernel.irqWait_spec hsettled' hcurrent n
        have hctx : (k.setIrq n { k.irqs n with enabled := enabled }).userContext =
            k.userContext := rfl
        rw [← hctx, hr]
        exact ⟨rfl, hsettled'', .waited (not_not.mp hop) hwait enabled hwaited⟩
      · rw [if_neg hwait]
        exact ⟨rfl, hsettled', .done (not_not.mp hop) (not_not.mp hwait) enabled⟩

/-- An interrupt arrives. -/
inductive IrqReceived (irq : ℤ) (k k' : Kernel) : Prop
  | unknown (hirq : irqIndex irq = none) (hkept : k' = k)
  | woke (n : Fin 16) (hirq : irqIndex irq = some n) (t : ThreadId) (threads : List ThreadId)
      (hqueue : k.queue (.irq n) = t :: threads) (hwoken : k' = k.woken t (.irq n) 1)
  | remembered (n : Fin 16) (hirq : irqIndex irq = some n) (hqueue : k.queue (.irq n) = [])
      (hoccurred : k' = k.setIrq n { k.irqs n with interruptOccurred := true })

lemma Placed.userOnIrqReceive (h : Placed k place) (hno : ∀ t, place t ≠ .floating) (irq : ℤ) :
    ∃ k' place', k.userOnIrqReceive irq = .ok k' ∧ Placed k' place' ∧
      (∀ t, place' t ≠ .floating) ∧ IrqReceived irq k k' := by
  unfold Kernel.userOnIrqReceive
  cases hirq : irqIndex irq with
  | none => exact ⟨k, place, rfl, h, hno, .unknown hirq rfl⟩
  | some n =>
    dsimp only
    cases hqueue : k.queue (.irq n) with
    | nil =>
      have hpop : k.queuePop (.irq n) = (none, k) := by
        rw [Kernel.queuePop, hqueue]
      rw [hpop]
      exact ⟨_, place, rfl, h.setIrq n _, hno, .remembered n hirq hqueue rfl⟩
    | cons t threads =>
      obtain ⟨hpop, hwake, hplace⟩ := h.wake (by simp) hqueue 1
      refine ⟨k.woken t (.irq n) 1, _, ?_, h.woken hplace (by simp) 1, fun m hm => ?_,
        .woke n hirq t threads hqueue rfl⟩
      · cases hp : k.queuePop (.irq n) with
        | mk r k₁ =>
          rw [hp] at hpop hwake
          obtain rfl : r = some t := hpop
          exact hwake
      · rw [Function.update_apply] at hm
        split_ifs at hm
        exact hno m hm

/-- `IRQ_handle::close` -/
lemma Kernel.irqClose_spec (hsettled : Settled k) (n : Fin 16) :
    ∃ k', k.irqClose n = .ok k' ∧ Settled k' ∧
      WokeAll (.irq n) ErrorCode.EBADF.negated
        (k.setIrq n { k.irqs n with isClaimed := false }) k' := by
  obtain ⟨place, h, hno⟩ := hsettled
  obtain ⟨k', heq, hwoke, h'⟩ := (h.setIrq n { k.irqs n with isClaimed := false }).scheduleWakeAll
    (q := .irq n) (by simp) ErrorCode.EBADF.negated
  refine ⟨k', heq, ⟨_, h', fun t ht => ?_⟩, hwoke⟩
  split_ifs at ht
  exact hno t ht

end

end Fluke
