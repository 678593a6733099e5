import Fluke.User.Ipc
import Fluke.User.Irq

/-!
# Entries into the kernel

A running thread enters the kernel with a system call, and an interrupt enters it at any time. An
entry ends when a thread runs again or the processor idles.

What a system call needs from the other parts of the kernel is a part of the entry: the handle that
the descriptor refers to, whether a descriptor and a block are to be had, what the system calls
return that are not modelled here. The last descriptor of a handle closes it.
-/

namespace Fluke

open Outcome

/-- `SYSCALL_nsleep` -/
abbrev syscallNsleep : ℕ := 0x1202
/-- `SYSCALL_claim_irq` -/
abbrev syscallClaimIrq : ℕ := 0x1205
/-- `SYSCALL_fork` -/
abbrev syscallFork : ℕ := 0x1208
/-- `SYSCALL_close` -/
abbrev syscallClose : ℕ := 0x120a
/-- `SYSCALL_read` -/
abbrev syscallRead : ℕ := 0x1210
/-- `SYSCALL_write` -/
abbrev syscallWrite : ℕ := 0x1211
/-- `SYSCALL_objctl` -/
abbrev syscallObjctl : ℕ := 0x121f
/-- `SYSCALL_thread_spawn` -/
abbrev syscallThreadSpawn : ℕ := 0x1231
/-- `SYSCALL_ipc_create` -/
abbrev syscallIpcCreate : ℕ := 0x1240
/-- `SYSCALL_ipc_call` -/
abbrev syscallIpcCall : ℕ := 0x1241
/-- `SYSCALL_ipc_listen` -/
abbrev syscallIpcListen : ℕ := 0x1242
/-- `SYSCALL_ipc_respond` -/
abbrev syscallIpcRespond : ℕ := 0x1243

/-- What the rest of the kernel contributes to a system call. -/
structure Surroundings where
  /-- `process.descriptors.get` and the handle of the descriptor -/
  descriptor : Result HandleId
  /-- `process.descriptors.alloc` -/
  newDescriptor : Result ℕ
  /-- the thread or the object is allocated -/
  allocated : Result Unit
  /-- `copy_from_user` of the transfers of `ipc_create` -/
  transfers : Result (List ℕ)
  /-- what another system call returns, and what another kind of handle returns -/
  other : ℕ

/-- An entry into the kernel -/
inductive Entry where
  | syscall (ctx : Registers) (surroundings : Surroundings)
  /-- an interrupt of a device, or without a number a tick of the timer -/
  | interrupt (irq : Option ℤ) (ctx : Registers)
  /-- a system call that closes the last descriptor of the handle and returns the value -/
  | close (handle : HandleId) (ctx : Registers) (value : ℕ)
  /-- the server side of an IPC object is closed -/
  | closeServer (ipc : ℕ) (ctx : Registers)

namespace Kernel

/-- A new thread, that is ready to run -/
def addThread (ctx : Registers) (k : Kernel) : Except Panic Kernel :=
  let thread : Thread := { ctx := ctx, state := .floating, timeout := 0, queueRoot := none,
                           ipcCaller := none }
  ({ k with threadCount := k.threadCount + 1 }.setThread k.threadCount thread).scheduleReady
    k.threadCount

/-- `CTX_SYS_R1(ctx) = value`, of the thread that runs -/
def setUserR1 (k : Kernel) (value : ℕ) : Kernel :=
  k.setUserContext { k.userContext with a2 := value }

/-- `do_syscall_nsleep` -/
def doSyscallNsleep (ctx : Registers) (k : Kernel) :
    Except Panic (Flow (Result ℕ) × Kernel) := do
  let duration := toIsize ctx.a0
  if duration ≤ 0 then .ok (.returns (.error .EINVAL), k)
  else do
    let k := k.setUserContext { k.userContext with r0 := 0 }
    let (thread, k) ← k.cpuContextSave
    let k ← k.scheduleNanosleep thread duration
    let k ← k.scheduleOrExit
    .ok (.exits, k)

/-- `do_syscall_claim_irq` -/
def doSyscallClaimIrq (ctx : Registers) (s : Surroundings) (k : Kernel) :
    Result ℕ × Kernel :=
  match s.newDescriptor with
  | .error e => (.error e, k)
  | .ok fd =>
    match k.irqClaim (toInt ctx.a0) with
    | (.error e, k) => (.error e, k)
    | (.ok _, k) => (.ok fd, k)

/-- `do_syscall_fork`; the new thread has the registers of the one that runs. -/
def doSyscallFork (s : Surroundings) (k : Kernel) : Except Panic (Flow (Result ℕ) × Kernel) :=
  match s.allocated, k.currentThread with
  | .error e, _ => .ok (.returns (.error e), k)
  | .ok (), none => .error (.assertion .currentThread)
  | .ok (), some current => do
    assert ((k.thread current).state = .running) .threadRunning
    let k ← k.addThread { k.userContext with r0 := 0 }
    .ok (.returns (.ok 1), k)

/-- `do_syscall_thread_spawn`; the registers that are not named are 0. -/
def doSyscallThreadSpawn (ctx : Registers) (s : Surroundings) (k : Kernel) :
    Except Panic (Flow (Result ℕ) × Kernel) :=
  match s.allocated with
  | .error e => .ok (.returns (.error e), k)
  | .ok () => do
    let k := k.setUserR1 k.threadCount
    let k ← k.addThread { r0 := 0, a0 := ctx.a2, a1 := 0, a2 := 0, a3 := 0, a4 := 0, a5 := 0,
                          pc := ctx.a0, sp := ctx.a1 }
    .ok (.returns (.ok 0), k)

/-- `do_syscall_ipc_create` -/
def doSyscallIpcCreate (ctx : Registers) (s : Surroundings) (k : Kernel) : Result ℕ × Kernel :=
  if ctx.a1 > transferMax then (.error .E2BIG, k)
  else
    match s.transfers, s.newDescriptor with
    | .error e, _ => (.error e, k)
    | .ok _, .error e => (.error e, k)
    | .ok transfers, .ok fd =>
      match ipcCreate transfers (s.allocated matches .ok ()) with
      | .error e => (.error e, k)
      | .ok ipc =>
        let k := { k with ipcCount := k.ipcCount + 1 }.setIpc k.ipcCount (some ipc)
        (.ok fd, k.setUserR1 (k.ipcCount - 1))

/-- `do_syscall_read` -/
def doSyscallRead (ctx : Registers) (s : Surroundings) (k : Kernel) :
    Except Panic (Flow (Result ℕ) × Kernel) :=
  match s.descriptor, checkUserRange ctx.a1 (min ctx.a2 (2 ^ 63 - 1) : ℕ) with
  | .error e, _ => .ok (.returns (.error e), k)
  | .ok _, .error e => .ok (.returns (.error e), k)
  | .ok (.ipc i), .ok () => k.ipcRead i
  | .ok (.irq _), .ok () => .ok (.returns (.error .EINVAL), k)
  | .ok (.module _), .ok () => .ok (.returns (.ok s.other), k)

/-- `do_syscall_write` -/
def doSyscallWrite (ctx : Registers) (s : Surroundings) (k : Kernel) :
    Except Panic (Flow (Result ℕ) × Kernel) :=
  match s.descriptor, checkUserRange ctx.a1 (min ctx.a2 (2 ^ 63 - 1) : ℕ) with
  | .error e, _ => .ok (.returns (.error e), k)
  | .ok _, .error e => .ok (.returns (.error e), k)
  | .ok (.ipc i), .ok () => k.ipcWrite i
  | .ok _, .ok () => .ok (.returns (.error .EINVAL), k)

/-- `do_syscall_objctl` -/
def doSyscallObjctl (ctx : Registers) (s : Surroundings) (k : Kernel) :
    Except Panic (Flow (Result ℕ) × Kernel) :=
  match s.descriptor with
  | .error e => .ok (.returns (.error e), k)
  | .ok (.irq n) => k.irqCtl n ctx (toInt32 ctx.a1)
  | .ok _ => .ok (.returns (.error .EINVAL), k)

/-- `do_syscall_ipc_call` -/
def doSyscallIpcCall (ctx : Registers) (s : Surroundings) (k : Kernel) :
    Except Panic (Flow (Result ℕ) × Kernel) :=
  match s.descriptor with
  | .error e => .ok (.returns (.error e), k)
  | .ok (.ipc i) => k.ipcCall i ctx
  | .ok _ => .ok (.returns (.error .EINVAL), k)

/-- `syscall`, by number -/
def syscall (ctx : Registers) (s : Surroundings) (k : Kernel) :
    Except Panic (Flow (Result ℕ) × Kernel) :=
  let number := ctx.r0
  if number = syscallNsleep then k.doSyscallNsleep ctx
  else if number = syscallClaimIrq then
    let (result, k) := k.doSyscallClaimIrq ctx s
    .ok (.returns result, k)
  else if number = syscallFork then k.doSyscallFork s
  else if number = syscallRead then k.doSyscallRead ctx s
  else if number = syscallWrite then k.doSyscallWrite ctx s
  else if number = syscallObjctl then k.doSyscallObjctl ctx s
  else if number = syscallThreadSpawn then k.doSyscallThreadSpawn ctx s
  else if number = syscallIpcCreate then
    let (result, k) := k.doSyscallIpcCreate ctx s
    .ok (.returns result, k)
  else if number = syscallIpcCall then k.doSyscallIpcCall ctx s
  else if number = syscallIpcListen then k.ipcListen ctx.a0 ctx
  else if number = syscallIpcRespond then k.ipcRespond ctx
  else .ok (.returns (.ok s.other), k)

/-- The end of `syscall_entry` -/
def syscallReturn (result : Result ℕ) (k : Kernel) : Except Panic Kernel := do
  let value := match result with
    | .ok value => value
    | .error e => e.negated
  let k := k.setUserContext { k.userContext with r0 := value }
  assert k.currentThread.isSome .currentThread
  .ok k

/-- `syscall_entry` -/
def syscallEntry (ctx : Registers) (s : Surroundings) (k : Kernel) : Except Panic Kernel := do
  match ← (k.setUserContext ctx).syscall ctx s with
  | (.returns result, k) => k.syscallReturn result
  | (.exits, k) => .ok k

/-- `interrupt_entry`. If no thread is ready, the interrupted one goes on. -/
def interruptEntry (irq : Option ℤ) (ctx : Registers) (k : Kernel) : Except Panic Kernel := do
  let k ← match irq with
    | none => .ok k
    | some irq =>
      if irq < 0 then .error .unhandledInterrupt
      else do
        let k := match irqIndex irq with
          | some n => k.setIrq n { k.irqs n with enabled := false }
          | none => k
        k.userOnIrqReceive irq
  let (_, k) ← (k.setUserContext ctx).schedule
  .ok k

/-- `Handle::close`, for the handles of this state -/
def closeHandle (handle : HandleId) (k : Kernel) : Except Panic Kernel :=
  match handle with
  | .ipc i => k.ipcHandleClose i
  | .irq n => k.irqClose n
  | .module _ => .ok k

/-- One entry into the kernel, until a thread runs or the processor idles -/
def step (entry : Entry) (k : Kernel) : Except Panic Kernel :=
  match entry with
  | .syscall ctx s => k.syscallEntry ctx s
  | .interrupt irq ctx => k.interruptEntry irq ctx
  | .close handle ctx value => do
    let k ← (k.setUserContext ctx).closeHandle handle
    k.syscallReturn (.ok value)
  | .closeServer i ctx => do
    let k ← (k.setUserContext ctx).ipcClose i
    k.syscallReturn (.ok 0)

end Kernel

end Fluke
