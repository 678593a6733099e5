import Fluke.User.Descriptor.Map
import Fluke.User.Ipc
import Fluke.User.Irq

/-!
# System calls on descriptors

`open_module`, `claim_irq`, `ipc_create`, `dup` and `close` allocate a descriptor, copy from user
memory, make or claim an object and assign it, each in an order of its own. They work on the table
of the process that makes the call and on the objects, which all processes share.
-/

namespace Fluke

open Outcome

/-- `O_CLOEXEC` -/
abbrev openCloexec : ℕ := 1 <<< 6

/-- The objects, and how many have been made. An object is known by its place in this order, so that
no two objects have one name. -/
structure Objects extends Handles where
  created : ℕ

/-- What a system call works on: the registers of the thread, the descriptors of its process and the
objects. -/
structure CallState where
  ctx : Registers
  table : DescriptorTable
  objects : Objects

/-- Replace what the table operations work on. -/
def CallState.put (c : CallState) (table : DescriptorTable) (s : Handles) : CallState :=
  { c with table := table, objects := { c.objects with toHandles := s } }

@[simp] lemma CallState.put_ctx (c : CallState) (table : DescriptorTable) (s : Handles) :
    (c.put table s).ctx = c.ctx := rfl

@[simp] lemma CallState.put_table (c : CallState) (table : DescriptorTable) (s : Handles) :
    (c.put table s).table = table := rfl

@[simp] lemma CallState.put_handles (c : CallState) (table : DescriptorTable) (s : Handles) :
    (c.put table s).objects.toHandles = s := rfl

@[simp] lemma CallState.put_created (c : CallState) (table : DescriptorTable) (s : Handles) :
    (c.put table s).objects.created = c.objects.created := rfl

/-- Replace the objects. -/
def CallState.setObjects (c : CallState) (objects : Objects) : CallState :=
  { c with objects := objects }

/-! ### Objects -/

/-- A module of the boot loader -/
structure BootModule where
  path : List (BitVec 8)
  size : ℕ

/-- `handle_open_module` -/
def handleOpenModule (size : ℕ) (o : Objects) : Except Panic (Option HandleId × Objects) := do
  assert (size > 0) .moduleSize
  let (block, heap) ← kalloc moduleSize o.heap
  let o := { o with heap := heap }
  match block with
  | none => .ok (none, o)
  | some block =>
    .ok (some (.module o.created), { o with
      modules := Function.update o.modules o.created (some block)
      refCount := Function.update o.refCount (.module o.created) 0
      created := o.created + 1 })

/-- `bootloader_open_module`; a size above `ISIZE_MAX` stops the kernel. -/
def bootloaderOpenModule (modules : List BootModule) (path : List (BitVec 8)) (o : Objects) :
    Except Panic (Option HandleId × Objects) :=
  match modules.find? fun m => m.path = path with
  | none => .ok (none, o)
  | some m => if m.size > 2 ^ 63 - 1 then .error .moduleTooLarge else handleOpenModule m.size o

/-- `irq_claim`, on the handles -/
def Handles.irqClaim (s : Handles) (irq : ℤ) : Result HandleId × Handles :=
  match irqIndex irq with
  | none => (.error .EINVAL, s)
  | some n =>
    if s.isClaimed n then (.error .EBUSY, s)
    else (.ok (.irq n), { s with isClaimed := Function.update s.isClaimed n true })

/-- `IPC::create`, as far as the life time of the object goes -/
def ipcCreateObject (transfers : List ℕ) (o : Objects) :
    Except Panic (Result HandleId × Objects) :=
  match ipcTransfers transfers 0 [] with
  | .error e => .ok (.error e, o)
  | .ok (_, maxChannel) => do
    let (block, heap) ← kalloc (56 + maxChannel * 24) o.heap
    let o := { o with heap := heap }
    match block with
    | none => .ok (.error .ENOMEM, o)
    | some block =>
      let ipc : IpcObject := { block := block, channelCount := maxChannel, closedCall := false,
                               closedListen := false }
      .ok (.ok (.ipc o.created), { o with
        ipcs := Function.update o.ipcs o.created (some ipc)
        refCount := Function.update o.refCount (.ipc o.created) 0
        created := o.created + 1 })

/-! ### System calls -/

/-- `desc->assign(handle, cloexec)`, after which the call returns `fd` -/
def CallState.assign (c : CallState) (slot : Slot) (handle : HandleId) (cloexec : Bool) (fd : ℕ) :
    Except Panic (Result ℕ × CallState) := do
  let (desc, s) ← (c.table.read slot).assign handle cloexec c.objects.toHandles
  .ok (.ok fd, c.put (c.table.write slot desc) s)

/-- `process.descriptors.alloc(fd)` -/
def CallState.alloc (c : CallState) : Except Panic (Result (ℕ × Slot) × CallState) := do
  let (r, table, s) ← c.table.alloc c.objects.toHandles
  .ok (r, c.put table s)

/-- `do_syscall_open_module` -/
def doSyscallOpenModule (modules : List BootModule) (memory : ℕ → Option (BitVec 8))
    (c : CallState) : Except Panic (Result ℕ × CallState) := do
  match ← c.alloc with
  | (.error e, c) => .ok (.error e, c)
  | (.ok (fd, slot), c) =>
    let len := c.ctx.a1
    if len > 128 then .ok (.error .ENAMETOOLONG, c)
    else
      match copyFromUser memory c.ctx.a0 len with
      | .error e => .ok (.error e, c)
      | .ok path => do
        match ← bootloaderOpenModule modules path c.objects with
        | (none, objects) => .ok (.error .ENOENT, c.setObjects objects)
        | (some handle, objects) => (c.setObjects objects).assign slot handle false fd

/-- `do_syscall_claim_irq` -/
def doSyscallClaimIrq (c : CallState) : Except Panic (Result ℕ × CallState) := do
  match ← c.alloc with
  | (.error e, c) => .ok (.error e, c)
  | (.ok (fd, slot), c) =>
    match c.objects.toHandles.irqClaim (toInt c.ctx.a0) with
    | (.error e, s) => .ok (.error e, c.put c.table s)
    | (.ok handle, s) => (c.put c.table s).assign slot handle true fd

/-- The descriptor that `dup` is to fill, with its number -/
def CallState.dupTarget (c : CallState) (newfd : ℤ) :
    Except Panic (Result (ℕ × Slot) × CallState) :=
  if newfd ≥ 0 then do
    let (r, table, s) ← c.table.allocOverwrite newfd c.objects.toHandles
    .ok (r.map fun slot => (newfd.toNat, slot), c.put table s)
  else
    c.alloc

/-- `do_syscall_dup` -/
def doSyscallDup (c : CallState) : Except Panic (Result ℕ × CallState) :=
  let oldfd := toInt c.ctx.a0
  let newfd := toInt c.ctx.a1
  if oldfd = newfd then .ok (.error .EINVAL, c)
  else
    match c.table.get oldfd with
    | .error e => .ok (.error e, c)
    | .ok olddesc => do
      match ← c.dupTarget newfd with
      | (.error e, c) => .ok (.error e, c)
      | (.ok (fd, newdesc), c) =>
        match c.table.read olddesc with
        | none => .error .invalidPointer
        | some tagged => c.assign newdesc tagged.handle (c.ctx.a2 &&& openCloexec != 0) fd

/-- `do_syscall_close` -/
def doSyscallClose (c : CallState) : Except Panic (Result ℕ × CallState) := do
  let (r, table, s) ← c.table.close (toInt c.ctx.a0) c.objects.toHandles
  .ok (r.map fun _ => 0, c.put table s)

/-- `u8 transfers[IPC::TRANSFER_MAX] = {}` with the bytes copied to its start -/
def transfersOf (bytes : List (BitVec 8)) : List ℕ :=
  bytes.map BitVec.toNat ++ List.replicate (transferMax - bytes.length) 0

/-- `do_syscall_ipc_create`; the object's number stands for its address. -/
def doSyscallIpcCreate (memory : ℕ → Option (BitVec 8)) (c : CallState) :
    Except Panic (Result ℕ × CallState) :=
  let ntransfers := c.ctx.a1
  if ntransfers > transferMax then .ok (.error .E2BIG, c)
  else
    match copyFromUser memory c.ctx.a0 ntransfers with
    | .error e => .ok (.error e, c)
    | .ok bytes => do
      match ← c.alloc with
      | (.error e, c) => .ok (.error e, c)
      | (.ok (fd, slot), c) =>
        match ← ipcCreateObject (transfersOf bytes) c.objects with
        | (.error e, objects) => .ok (.error e, c.setObjects objects)
        | (.ok handle, objects) => do
          let (r, c) ← (c.setObjects objects).assign slot handle false fd
          .ok (r, { c with ctx := { c.ctx with a2 := objects.created - 1 } })

/-- `do_syscall_exec_flush` -/
def doSyscallExecFlush (c : CallState) : Except Panic (Result ℕ × CallState) := do
  let (table, s) ← c.table.cloexec c.objects.toHandles
  let c := c.put table s
  .ok (.ok 0, { c with ctx := { c.ctx with pc := c.ctx.a0, sp := c.ctx.a1 } })

/-- The system calls that add or change descriptors. -/
inductive DescriptorCall where
  | openModule
  | claimIrq
  | ipcCreate
  | dup
  | close
  deriving DecidableEq, Repr

/-- One such call, with the modules and the memory of the process -/
def DescriptorCall.run (modules : List BootModule) (memory : ℕ → Option (BitVec 8)) :
    DescriptorCall → CallState → Except Panic (Result ℕ × CallState)
  | .openModule => doSyscallOpenModule modules memory
  | .claimIrq => doSyscallClaimIrq
  | .ipcCreate => doSyscallIpcCreate memory
  | .dup => doSyscallDup
  | .close => doSyscallClose

/-! ### A call that fails -/

/-- The map of the process, the reference counts, the claims and the objects are as they were. -/
structure CallState.Kept (c c' : CallState) : Prop where
  map : c'.table.toMap = c.table.toMap
  refCount : c'.objects.refCount = c.objects.refCount
  claimed : c'.objects.isClaimed = c.objects.isClaimed
  ipcs : c'.objects.ipcs = c.objects.ipcs
  modules : c'.objects.modules = c.objects.modules
  created : c'.objects.created = c.objects.created
  closes : c'.objects.closes = c.objects.closes

namespace CallState.Kept

variable {c c' c'' : CallState}

lemma refl (c : CallState) : c.Kept c := ⟨rfl, rfl, rfl, rfl, rfl, rfl, rfl⟩

lemma trans (h : c.Kept c') (h' : c'.Kept c'') : c.Kept c'' :=
  ⟨h'.map.trans h.map, h'.refCount.trans h.refCount, h'.claimed.trans h.claimed,
    h'.ipcs.trans h.ipcs, h'.modules.trans h.modules, h'.created.trans h.created,
    h'.closes.trans h.closes⟩

/-- A sub-table may be new, and the heap has changed. -/
lemma put {table : DescriptorTable} {s : Handles} (hread : table.read = c.table.read)
    (hs : s = { c.objects.toHandles with heap := s.heap }) : c.Kept (c.put table s) := by
  refine ⟨DescriptorTable.toMap_congr hread, ?_, ?_, ?_, ?_, rfl, ?_⟩ <;>
  · rw [CallState.put_handles, hs]

lemma heap (c : CallState) (heap : Heap) :
    c.Kept (c.setObjects { c.objects with heap := heap }) :=
  ⟨rfl, rfl, rfl, rfl, rfl, rfl, rfl⟩

end CallState.Kept

/-- What a call leaves when it returns an error -/
def FailureKept (c : CallState) {α : Type} (r : Result α × CallState) : Prop :=
  ∀ e, r.1 = .error e → c.Kept r.2

lemma FailureKept.ok {c c' : CallState} {α : Type} (a : α) :
    FailureKept c ((.ok a, c') : Result α × CallState) := by
  intro e he
  cases he

lemma FailureKept.error {c c' : CallState} {α : Type} (h : c.Kept c') (e : ErrorCode) :
    FailureKept c ((.error e, c') : Result α × CallState) :=
  fun _ _ => h

lemma makeSubTable_kept (s : Handles) :
    Ensures (fun _ => True) (fun r => r.2 = { s with heap := r.2.heap } ∧
      ∀ sub, r.1 = some sub → sub.entries = fun _ => none) (makeSubTable s) := by
  unfold makeSubTable
  refine (ensures_trivial _).bind fun r _ => ⟨rfl, fun sub hsub => ?_⟩
  obtain ⟨block, -, rfl⟩ := Option.map_eq_some_iff.mp hsub
  rfl

lemma DescriptorTable.allocIndirect_kept (t : DescriptorTable) (s : Handles) (is : List (Fin 4)) :
    ∀ n, Ensures (fun _ => True)
      (fun r => r.2.1.read = t.read ∧ r.2.2 = { s with heap := r.2.2.heap })
      (t.allocIndirect is n s) := by
  induction is with
  | nil =>
    intro n
    exact ⟨rfl, rfl⟩
  | cons i is ih =>
    intro n
    rw [DescriptorTable.allocIndirect]
    cases hsub : t.l1 i with
    | none =>
      refine (makeSubTable_kept s).bind ?_
      rintro ⟨_ | sub, s'⟩ ⟨hs, hempty⟩
      · exact ⟨rfl, hs⟩
      · exact ⟨DescriptorTable.read_setSub hsub (hempty sub rfl), hs⟩
    | some sub =>
      dsimp only
      cases (List.finRange 16).find? fun j => !(sub.entries j).isOpen with
      | some j => exact ⟨rfl, rfl⟩
      | none => exact ih (n + 16)

/-- `alloc` leaves the map as it was, whatever it returns. -/
lemma CallState.alloc_kept (c : CallState) :
    Ensures (fun _ => True) (fun r => c.Kept r.2) c.alloc := by
  have halloc : Ensures (fun _ => True)
      (fun r : Result (ℕ × Slot) × DescriptorTable × Handles => r.2.1.read = c.table.read ∧
        r.2.2 = { c.objects.toHandles with heap := r.2.2.heap })
      (c.table.alloc c.objects.toHandles) := by
    rw [DescriptorTable.alloc]
    cases (List.finRange 8).find? fun i => !(c.table.l0 i).isOpen with
    | some i => exact ⟨rfl, rfl⟩
    | none => exact c.table.allocIndirect_kept _ _ 8
  exact halloc.bind fun r hr => CallState.Kept.put hr.1 hr.2

/-- `alloc_overwrite` has no way to fail once it has closed the descriptor. -/
lemma DescriptorTable.allocOverwrite_kept (t : DescriptorTable) (fd : ℤ) (s : Handles) :
    Ensures (fun _ => True)
      (fun r => ∀ e, r.1 = .error e → r.2.1 = t ∧ r.2.2 = { s with heap := r.2.2.heap })
      (t.allocOverwrite fd s) := by
  rw [DescriptorTable.allocOverwrite]
  dsimp only
  split_ifs with hneg hdirect hindirect
  · exact fun e he => ⟨rfl, rfl⟩
  · exact (ensures_trivial _).bind fun r _ e he => (by cases he)
  · cases t.l1 ⟨(fd.toNat - 8) / 16, by omega⟩ with
    | some sub => exact (ensures_trivial _).bind fun r _ e he => (by cases he)
    | none =>
      refine (makeSubTable_kept s).bind ?_
      rintro ⟨_ | sub, s'⟩ ⟨hs, -⟩
      · exact fun e he => ⟨rfl, hs⟩
      · exact (ensures_trivial _).bind fun r _ e he => (by cases he)
  · exact fun e he => ⟨rfl, rfl⟩

lemma CallState.dupTarget_kept (c : CallState) (newfd : ℤ) :
    Ensures (fun _ => True) (FailureKept c) (c.dupTarget newfd) := by
  rw [CallState.dupTarget]
  split_ifs with hnew
  · refine (c.table.allocOverwrite_kept newfd c.objects.toHandles).bind ?_
    rintro ⟨r, table, s⟩ hr e he
    cases r with
    | ok slot => cases he
    | error e' =>
      obtain ⟨rfl, hs⟩ := hr e' rfl
      exact CallState.Kept.put rfl hs
  · exact c.alloc_kept.imp fun r hr e _ => hr

/-- `assign` does not fail. -/
lemma CallState.assign_returns (c : CallState) (slot : Slot) (handle : HandleId) (cloexec : Bool)
    (fd : ℕ) :
    Ensures (fun _ => True) (fun r => r.1 = .ok fd) (c.assign slot handle cloexec fd) :=
  (ensures_trivial _).bind fun _ _ => rfl

/-- A call whose last step is `assign` has no error to account for. -/
lemma CallState.assign_kept (c c' : CallState) (slot : Slot) (handle : HandleId) (cloexec : Bool)
    (fd : ℕ) : Ensures (fun _ => True) (FailureKept c) (c'.assign slot handle cloexec fd) := by
  refine (c'.assign_returns slot handle cloexec fd).imp fun r hr e he => ?_
  rw [hr] at he
  cases he

/-- Opening a module fails without an object. -/
lemma bootloaderOpenModule_kept (modules : List BootModule) (path : List (BitVec 8))
    (c : CallState) :
    Ensures (fun _ => True) (fun r => r.1 = none → c.Kept (c.setObjects r.2))
      (bootloaderOpenModule modules path c.objects) := by
  rw [bootloaderOpenModule]
  cases modules.find? fun m => m.path = path with
  | none => exact fun _ => .refl c
  | some m =>
    dsimp only
    split_ifs with hsize
    · trivial
    rw [handleOpenModule]
    refine (ensures_trivial _).bind fun _ _ => (ensures_trivial _).bind ?_
    rintro ⟨_ | block, heap⟩ -
    · exact fun _ => .heap c heap
    · exact fun h => (by cases h)

lemma ipcCreateObject_kept (transfers : List ℕ) (c : CallState) :
    Ensures (fun _ => True) (fun r => ∀ e, r.1 = .error e → c.Kept (c.setObjects r.2))
      (ipcCreateObject transfers c.objects) := by
  rw [ipcCreateObject]
  cases ipcTransfers transfers 0 [] with
  | error e => exact fun _ _ => .refl c
  | ok r =>
    refine (ensures_trivial _).bind ?_
    rintro ⟨_ | block, heap⟩ -
    · exact fun _ _ => .heap c heap
    · exact fun e he => (by cases he)

lemma Handles.irqClaim_kept (s : Handles) (irq : ℤ) (e : ErrorCode)
    (h : (s.irqClaim irq).1 = .error e) : (s.irqClaim irq).2 = s := by
  unfold Handles.irqClaim at *
  cases hn : irqIndex irq with
  | none => rfl
  | some n =>
    rw [hn] at h
    dsimp only at h ⊢
    split_ifs with hclaimed
    · rfl
    · rw [if_neg hclaimed] at h
      cases h

lemma doSyscallOpenModule_kept (modules : List BootModule) (memory : ℕ → Option (BitVec 8))
    (c : CallState) :
    Ensures (fun _ => True) (FailureKept c) (doSyscallOpenModule modules memory c) := by
  rw [doSyscallOpenModule]
  refine c.alloc_kept.bind ?_
  rintro ⟨_ | ⟨fd, slot⟩, c'⟩ hkept
  · exact .error hkept _
  dsimp only
  split_ifs with hlen
  · exact .error hkept _
  cases copyFromUser memory c'.ctx.a0 c'.ctx.a1 with
  | error e => exact .error hkept e
  | ok path =>
    refine (bootloaderOpenModule_kept modules path c').bind ?_
    rintro ⟨_ | handle, objects⟩ hobjects
    · exact .error (hkept.trans (hobjects rfl)) _
    · exact CallState.assign_kept c _ slot handle false fd

lemma doSyscallClaimIrq_kept (c : CallState) :
    Ensures (fun _ => True) (FailureKept c) (doSyscallClaimIrq c) := by
  rw [doSyscallClaimIrq]
  refine c.alloc_kept.bind ?_
  rintro ⟨_ | ⟨fd, slot⟩, c'⟩ hkept
  · exact .error hkept _
  have hsame := c'.objects.toHandles.irqClaim_kept (toInt c'.ctx.a0)
  dsimp only
  cases hclaim : c'.objects.toHandles.irqClaim (toInt c'.ctx.a0) with
  | mk r s =>
    cases r with
    | error e =>
      rw [hclaim] at hsame
      obtain rfl := hsame e rfl
      exact .error (hkept.trans (.put rfl rfl)) e
    | ok handle => exact CallState.assign_kept c _ slot handle true fd

lemma doSyscallIpcCreate_kept (memory : ℕ → Option (BitVec 8)) (c : CallState) :
    Ensures (fun _ => True) (FailureKept c) (doSyscallIpcCreate memory c) := by
  rw [doSyscallIpcCreate]
  dsimp only
  split_ifs with hlen
  · exact .error (.refl c) _
  cases copyFromUser memory c.ctx.a0 c.ctx.a1 with
  | error e => exact .error (.refl c) e
  | ok bytes =>
    refine c.alloc_kept.bind ?_
    rintro ⟨_ | ⟨fd, slot⟩, c'⟩ hkept
    · exact .error hkept _
    refine (ipcCreateObject_kept (transfersOf bytes) c').bind ?_
    rintro ⟨e | handle, objects⟩ hobjects
    · exact .error (hkept.trans (hobjects e rfl)) e
    refine (CallState.assign_returns _ slot handle false fd).bind ?_
    rintro ⟨r, c''⟩ hr
    rw [show r = .ok fd from hr]
    exact .ok fd

lemma doSyscallDup_kept (c : CallState) :
    Ensures (fun _ => True) (FailureKept c) (doSyscallDup c) := by
  rw [doSyscallDup]
  split_ifs with hsame
  · exact .error (.refl c) _
  cases c.table.get (toInt c.ctx.a0) with
  | error e => exact .error (.refl c) e
  | ok olddesc =>
    refine (c.dupTarget_kept (toInt c.ctx.a1)).bind ?_
    rintro ⟨e | ⟨fd, newdesc⟩, c'⟩ hkept
    · exact .error (hkept e rfl) e
    dsimp only
    cases c'.table.read olddesc with
    | none => trivial
    | some tagged => exact CallState.assign_kept c c' newdesc tagged.handle _ fd

lemma doSyscallClose_kept (c : CallState) :
    Ensures (fun _ => True) (FailureKept c) (doSyscallClose c) := by
  rw [doSyscallClose, DescriptorTable.close]
  cases c.table.get (toInt c.ctx.a0) with
  | error e => exact .error (.put rfl rfl) e
  | ok slot =>
    have hreturns : Ensures (fun _ => True) (fun r => r.1 = .ok ()) (do
        let (desc, s) ← (c.table.read slot).close c.objects.toHandles
        Except.ok ((Except.ok () : Result Unit), c.table.write slot desc, s)) :=
      (ensures_trivial _).bind fun _ _ => rfl
    refine hreturns.bind ?_
    rintro ⟨r, table, s⟩ hr
    rw [show r = .ok () from hr]
    exact .ok 0

/-- A call that returns an error has changed no descriptor, no reference count and no claim, and
left no object behind. -/
theorem DescriptorCall.run_kept (modules : List BootModule) (memory : ℕ → Option (BitVec 8))
    (call : DescriptorCall) (c : CallState) :
    Ensures (fun _ => True) (FailureKept c) (call.run modules memory c) := by
  cases call with
  | openModule => exact doSyscallOpenModule_kept modules memory c
  | claimIrq => exact doSyscallClaimIrq_kept c
  | ipcCreate => exact doSyscallIpcCreate_kept memory c
  | dup => exact doSyscallDup_kept c
  | close => exact doSyscallClose_kept c

/-! ### `dup` on the map -/

/-- The descriptor that `dup` fills: `newfd`, or the least one that is free if `newfd` is
negative -/
def Lands (t : DescriptorTable) (newfd fd : ℤ) : Prop :=
  if newfd ≥ 0 then fd = newfd
  else 0 ≤ fd ∧ t.toMap fd = none ∧ ∀ fd' : ℤ, 0 ≤ fd' → fd' < fd → t.toMap fd' ≠ none

/-- The descriptor to fill is free, and nothing else has changed. -/
structure DupTarget (c : CallState) (newfd : ℤ) (r : Result (ℕ × Slot) × CallState) : Prop where
  done : ∀ fd slot, r.1 = .ok (fd, slot) → Lands c.table newfd fd ∧ fd < 72 ∧
    r.2.table.toMap = Function.update c.table.toMap fd none ∧
    AssignAdds r.2.table fd slot r.2.objects.toHandles
  failed : ∀ e, r.1 = .error e → r.2.table.toMap = c.table.toMap
  badf : r.1 = .error .EBADF ↔ 72 ≤ newfd
  ctx : r.2.ctx = c.ctx

lemma slotOf_eq_none {fd : ℤ} (h0 : 0 ≤ fd) : slotOf fd = none ↔ 72 ≤ fd := by
  constructor
  · intro h
    by_contra hlt
    obtain ⟨slot, hslot⟩ := slotOf_isSome h0 (lt_of_not_ge hlt)
    rw [h] at hslot
    cases hslot
  · intro h
    cases hslot : slotOf fd with
    | none => rfl
    | some slot =>
      have heq := slotOf_eq_some.mp hslot
      have hlt := slot.fd_lt
      omega

lemma CallState.dupTarget_spec {c : CallState} {other : HandleId → ℕ}
    (hrefs : RefsOk c.table other c.objects.toHandles) (hc : c.objects.heap.pmm.Counted)
    (newfd : ℤ) : Ensures (fun _ => False) (DupTarget c newfd) (c.dupTarget newfd) := by
  rw [CallState.dupTarget]
  split_ifs with hnew
  · refine (DescriptorTable.allocOverwrite_spec hrefs hc).bind ?_
    rintro ⟨r, table, s⟩ hcleared
    have hmap := hcleared.map
    cases r with
    | error e =>
      obtain ⟨hsame, -⟩ := hmap.failed e rfl
      refine ⟨fun fd slot hok => (by cases hok), fun _ _ => hsame, ?_, rfl⟩
      rw [← slotOf_eq_none hnew]
      rcases (hcleared.failed e rfl).2.2 with ⟨rfl, hnone⟩ | ⟨rfl, hsome, -⟩
      · exact iff_of_true rfl hnone
      · refine iff_of_false (fun he => by cases he) fun hnone => ?_
        rw [hnone] at hsome
        cases hsome
    | ok slot =>
      obtain ⟨hslot, hupdate, hadds⟩ := hmap.done slot rfl
      have hlt : ¬ 72 ≤ newfd := by
        rw [← slotOf_eq_none hnew, hslot]
        exact fun h => by cases h
      refine ⟨fun fd slot' hok => ?_, fun e he => (by cases he),
        iff_of_false (fun he => by cases he) hlt, rfl⟩
      cases hok
      have hfd : (newfd.toNat : ℤ) = newfd := Int.toNat_of_nonneg hnew
      refine ⟨?_, by omega, ?_, ?_⟩
      · rw [Lands, if_pos hnew, hfd]
      · rw [hfd]
        exact hupdate
      · rw [hfd]
        exact hadds
  · refine (c.table.alloc_spec hc).bind ?_
    rintro ⟨r, table, s⟩ hallocated
    have hmap := hallocated.map hrefs
    refine ⟨fun fd slot hok => ?_, fun _ _ => hmap.map, iff_of_false (fun he => ?_) (by omega), rfl⟩
    · obtain ⟨hslot, hfree, hbelow, hadds⟩ := hmap.done fd slot hok
      have heq := slotOf_eq_some.mp hslot
      have hlt := slot.fd_lt
      refine ⟨?_, by omega, ?_, hadds⟩
      · rw [Lands, if_neg hnew]
        exact ⟨Int.natCast_nonneg fd, hfree, hbelow⟩
      · change table.toMap = _
        rw [← hfree, Function.update_eq_self]
        exact hmap.map
    · rcases hmap.failed _ he with he | ⟨he, -⟩ <;> cases he

/-- What `dup` does to the map -/
structure DupMap (c : CallState) (r : Result ℕ × CallState) : Prop where
  done : ∀ fd, r.1 = .ok fd → fd < 72 ∧ Lands c.table (toInt c.ctx.a1) fd ∧
    ∃ tagged, c.table.toMap (toInt c.ctx.a0) = some tagged ∧ r.2.table.toMap =
      Function.update c.table.toMap fd (some ⟨tagged.handle, c.ctx.a2 &&& openCloexec != 0⟩)
  failed : ∀ e, r.1 = .error e → r.2.table.toMap = c.table.toMap
  badf : r.1 = .error .EBADF ↔ toInt c.ctx.a0 ≠ toInt c.ctx.a1 ∧
    (c.table.toMap (toInt c.ctx.a0) = none ∨ 72 ≤ toInt c.ctx.a1)

/-- A `dup` that fails -/
lemma DupMap.of_error {c c' : CallState} {e : ErrorCode} (hmap : c'.table.toMap = c.table.toMap)
    (hbadf : e = .EBADF ↔ toInt c.ctx.a0 ≠ toInt c.ctx.a1 ∧
      (c.table.toMap (toInt c.ctx.a0) = none ∨ 72 ≤ toInt c.ctx.a1)) :
    DupMap c (.error e, c') := by
  refine ⟨fun fd hok => (by cases hok), fun _ _ => hmap, ?_⟩
  rw [Except.error.injEq]
  exact hbadf

/-- The last step of `dup` -/
lemma CallState.assign_map {c : CallState} {fd : ℕ} {slot : Slot} {map : ℤ → Descriptor}
    (hadds : AssignAdds c.table fd slot c.objects.toHandles)
    (hmap : c.table.toMap = Function.update map fd none) (handle : HandleId) (cloexec : Bool) :
    ∃ c', c.assign slot handle cloexec fd = .ok (.ok fd, c') ∧
      c'.table.toMap = Function.update map fd (some ⟨handle, cloexec⟩) := by
  obtain ⟨desc, s, hassign, hwrite⟩ := hadds handle cloexec
  refine ⟨c.put (c.table.write slot desc) s, ?_, ?_⟩
  · rw [CallState.assign, hassign]
    rfl
  · rw [CallState.put_table, hwrite, hmap, Function.update_idem]

theorem doSyscallDup_map {c : CallState} {other : HandleId → ℕ}
    (hrefs : RefsOk c.table other c.objects.toHandles) (hc : c.objects.heap.pmm.Counted) :
    Ensures (fun _ => False) (DupMap c) (doSyscallDup c) := by
  rw [doSyscallDup]
  split_ifs with hsame
  · exact .of_error rfl (iff_of_false (fun he => by cases he) fun h => h.1 hsame)
  have hget := c.table.get_eq (toInt c.ctx.a0)
  cases hslot : slotOf (toInt c.ctx.a0) with
  | none =>
    rw [hslot] at hget
    rw [hget]
    exact .of_error rfl (iff_of_true rfl ⟨hsame, Or.inl (DescriptorTable.toMap_of_none hslot)⟩)
  | some olddesc =>
    have hmap : c.table.toMap (toInt c.ctx.a0) = c.table.read olddesc :=
      DescriptorTable.toMap_of_slot hslot
    rw [hslot] at hget
    dsimp only at hget
    cases hread : c.table.read olddesc with
    | none =>
      rw [hread] at hget hmap
      rw [hget]
      exact .of_error rfl (iff_of_true rfl ⟨hsame, Or.inl hmap⟩)
    | some tagged =>
      rw [hread] at hget hmap
      rw [hget]
      refine (CallState.dupTarget_spec hrefs hc (toInt c.ctx.a1)).bind ?_
      rintro ⟨r, c'⟩ htarget
      have hopen : c.table.toMap (toInt c.ctx.a0) ≠ none := by
        rw [hmap]
        exact fun h => by cases h
      cases r with
      | error e =>
        refine .of_error (htarget.failed e rfl) ?_
        rw [and_iff_right hsame, or_iff_right hopen, ← htarget.badf, Except.error.injEq]
      | ok p =>
        obtain ⟨fd, slot⟩ := p
        obtain ⟨hlands, hlt, hupdate, hadds⟩ := htarget.done fd slot rfl
        have hbadf : ¬ 72 ≤ toInt c.ctx.a1 := fun h => by cases htarget.badf.mpr h
        -- the descriptor that is filled is not the old one
        have hne : toInt c.ctx.a0 ≠ fd := by
          intro heq
          rw [Lands] at hlands
          split_ifs at hlands
          · exact hsame (heq.trans hlands)
          · rw [heq] at hopen
            exact hopen hlands.2.1
        have hold : c'.table.read olddesc = some tagged := by
          rw [← DescriptorTable.toMap_of_slot hslot, hupdate, Function.update_of_ne hne, hmap]
        obtain ⟨c'', hassign, hmap'⟩ :=
          CallState.assign_map hadds hupdate tagged.handle (c'.ctx.a2 &&& openCloexec != 0)
        simp only [hold]
        rw [hassign]
        refine ⟨fun fd' hok => ?_, fun e he => (by cases he),
          iff_of_false (fun he => by cases he) fun h => h.2.elim hopen hbadf⟩
        cases hok
        refine ⟨hlt, hlands, tagged, hmap, ?_⟩
        rw [hmap', htarget.ctx]

end Fluke
