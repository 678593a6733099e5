import Fluke.User.Schedule

/-!
# Interrupts

A process claims an interrupt and waits for it. An interrupt that arrives while no thread waits is
remembered.
-/

namespace Fluke

open Outcome

/-- `IRQ_CTL_WAIT` -/
abbrev irqCtlWait : ℕ := 1
/-- `IRQ_CTL_ENABLE` -/
abbrev irqCtlEnable : ℕ := 2

/-- `irq < 0 || irq > IRQ_MAX`, or the index into `handlers` -/
def irqIndex (irq : ℤ) : Option (Fin 16) :=
  if h : 0 ≤ irq ∧ irq ≤ 15 then some ⟨irq.toNat, by omega⟩ else none

/-- An `int` from a register -/
def toInt (a : ℕ) : ℤ :=
  if a % 2 ^ 32 < 2 ^ 31 then (a % 2 ^ 32 : ℕ) else (a % 2 ^ 32 : ℕ) - 2 ^ 32

namespace Kernel

/-- `irq_claim` -/
def irqClaim (irq : ℤ) (k : Kernel) : Result (Fin 16) × Kernel :=
  match irqIndex irq with
  | none => (.error .EINVAL, k)
  | some n =>
    if (k.irqs n).isClaimed then (.error .EBUSY, k)
    else (.ok n, k.setIrq n { k.irqs n with isClaimed := true })

/-- The thread waits for the interrupt: the second half of `IRQ_handle::ctl`. -/
def irqWait (n : Fin 16) (ctx : Registers) (k : Kernel) :
    Except Panic (Flow (Result ℕ) × Kernel) :=
  if (k.irqs n).interruptOccurred then
    .ok (.returns (.ok 0), k.setIrq n { k.irqs n with interruptOccurred := false })
  else
    let timeout := toIsize ctx.a2
    if timeout ≤ 0 then .ok (.returns (.error .EAGAIN), k)
    else do
      let (thread, k) ← k.cpuContextSave
      let k ← k.scheduleQueueWithTimeout thread (.irq n) timeout .EAGAIN
      let k ← k.scheduleOrExit
      .ok (.exits, k)

/-- `IRQ_handle::ctl` -/
def irqCtl (n : Fin 16) (ctx : Registers) (op : ℕ) (k : Kernel) :
    Except Panic (Flow (Result ℕ) × Kernel) := do
  assert (k.irqs n).isClaimed .irqClaimed
  -- `op & ~(IRQ_CTL_ENABLE|IRQ_CTL_WAIT)`
  if op / 4 ≠ 0 then .ok (.returns (.error .EINVAL), k)
  else
    let k := if op &&& irqCtlEnable ≠ 0 then k.setIrq n { k.irqs n with enabled := true } else k
    if op &&& irqCtlWait ≠ 0 then k.irqWait n ctx else .ok (.returns (.ok 0), k)

/-- `user_on_irq_receive` -/
def userOnIrqReceive (irq : ℤ) (k : Kernel) : Except Panic Kernel :=
  match irqIndex irq with
  | none => .ok k
  | some n =>
    match k.queuePop (.irq n) with
    | (some t, k) => k.scheduleWake t 1
    | (none, k) => .ok (k.setIrq n { k.irqs n with interruptOccurred := true })

/-- `IRQ_handle::close` -/
def irqClose (n : Fin 16) (k : Kernel) : Except Panic Kernel :=
  (k.setIrq n { k.irqs n with isClaimed := false }).scheduleWakeAll (.irq n)
    ErrorCode.EBADF.negated

end Kernel

end Fluke
