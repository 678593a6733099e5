import Fluke.User.Descriptor.Ledger
import Fluke.User.Fork

/-!
# Descriptors of all processes

Every process has a descriptor table of its own, and all of them refer to the same objects. A fork
adds a process. Whatever processes do to their descriptors, the reference count of an object is the
number of descriptors that refer to it, and the object is closed when the last one goes. A fork that
fails either has done nothing, or it does not return.
-/

namespace Fluke

open Outcome

/-- The processes, numbered in the order in which they were made, with the objects they share -/
structure Processes where
  count : ℕ
  table : ℕ → DescriptorTable
  objects : Objects

namespace Processes

/-- How many descriptors refer to an object -/
def refs (s : Processes) (h : HandleId) : ℕ := ∑ p ∈ Finset.range s.count, (s.table p).uses h

/-- How many descriptors of the other processes refer to an object -/
def others (s : Processes) (p : ℕ) (h : HandleId) : ℕ :=
  ∑ q ∈ (Finset.range s.count).erase p, (s.table q).uses h

/-- What a system call of a process works on -/
def enter (s : Processes) (p : ℕ) (ctx : Registers) : CallState := ⟨ctx, s.table p, s.objects⟩

/-- What a system call of a process leaves -/
def leave (s : Processes) (p : ℕ) (c : CallState) : Processes :=
  { s with table := Function.update s.table p c.table, objects := c.objects }

/-- Replace the objects. -/
def setHandles (s : Processes) (handles : Handles) : Processes :=
  { s with objects := { s.objects with toHandles := handles } }

/-- A new process -/
def add (s : Processes) (table : DescriptorTable) : Processes :=
  { s with count := s.count + 1, table := Function.update s.table s.count table }

end Processes

/-- What happens to the descriptors: a process makes a system call, or the rest of the kernel uses
the heap. A fork is given the virtual memory of the process and the room that is left on the
stack. -/
inductive ProcessCall where
  | syscall (p : ℕ) (ctx : Registers) (memory : ℕ → Option (BitVec 8)) (call : DescriptorCall)
  | execFlush (p : ℕ) (ctx : Registers)
  | fork (p : ℕ) (depth : ℕ) (vm : Vm) (ctx : Registers)
  | useHeap (heap : Heap)

/-- A process that is there makes the call, its areas and page tables agree when it forks, and the
heap is used as it should be. -/
def ProcessCall.Admits : ProcessCall → Processes → Prop
  | .syscall p _ _ _, s => p < s.count
  | .execFlush p _, s => p < s.count
  | .fork p _ vm _, s => p < s.count ∧ Coherent vm s.objects.heap ∧
    NoEmptyTables s.objects.heap.pmm.memory vm.pageMap
  | .useHeap heap, _ => heap.pmm.Counted

/-- One call -/
def ProcessCall.run (modules : List BootModule) :
    ProcessCall → Processes → Except Panic Processes
  | .syscall p ctx memory call, s => do
    let (_, c) ← call.run modules memory (s.enter p ctx)
    .ok (s.leave p c)
  | .execFlush p ctx, s => do
    let (_, c) ← doSyscallExecFlush (s.enter p ctx)
    .ok (s.leave p c)
  | .fork p depth vm ctx, s => do
    match ← processFork depth vm (s.table p) ctx s.objects.toHandles with
    | (.error _, handles) => .ok (s.setHandles handles)
    | (.ok child, handles) => .ok ((s.setHandles handles).add child.descriptors)
  | .useHeap heap, s => .ok (s.setHandles { s.objects.toHandles with heap := heap })

/-- The first process, as `try_user_init` makes it: a descriptor that is marked refers to the module
of the init program. Nothing when there is no memory or no such module. -/
def Processes.init (modules : List BootModule) (cmdline : List (BitVec 8)) (ctx : Registers)
    (heap : Heap) : Except Panic (Option Processes) := do
  match ← (CallState.mk ctx .empty (Objects.none heap)).alloc with
  | (.error _, _) => .ok none
  | (.ok (fd, slot), c) =>
    match ← bootloaderOpenModule modules cmdline c.objects with
    | (none, _) => .ok none
    | (some handle, objects) => do
      let (_, c) ← (c.setObjects objects).assign slot handle true fd
      .ok (some ⟨1, fun _ => c.table, c.objects⟩)

/-! ### One step -/

/-- The objects agree with the descriptors of all processes. -/
def Processes.Ok (s : Processes) : Prop := ObjectsOk s.refs s.objects

/-- What a step does to the objects -/
structure Processes.Step (s s' : Processes) : Prop where
  ok : s'.Ok
  closed : ClosedLast s.refs s'.refs s.objects.toHandles s'.objects.toHandles

namespace Processes

variable {s s' : Processes} {p : ℕ}

lemma refs_eq (hp : p < s.count) (h : HandleId) :
    s.refs h = (s.table p).uses h + s.others p h :=
  (Finset.add_sum_erase _ (fun q => (s.table q).uses h) (Finset.mem_range.mpr hp)).symm

lemma refs_leave (hp : p < s.count) (c : CallState) : (s.leave p c).refs = c.refs (s.others p) := by
  funext h
  have hp' : p < (s.leave p c).count := hp
  rw [refs_eq hp', CallState.refs]
  congr 1
  · simp [leave]
  · refine Finset.sum_congr rfl fun q hq => ?_
    have hne : q ≠ p := Finset.ne_of_mem_erase hq
    simp [leave, hne]

lemma refs_add (table : DescriptorTable) (h : HandleId) :
    (s.add table).refs h = s.refs h + table.uses h := by
  have hcount : (s.add table).count = s.count + 1 := rfl
  rw [refs, hcount, Finset.sum_range_succ]
  congr 1
  · refine Finset.sum_congr rfl fun q hq => ?_
    have hne : q ≠ s.count := (Finset.mem_range.mp hq).ne
    simp [add, hne]
  · simp [add]

lemma Ok.settled (h : s.Ok) (hp : p < s.count) (ctx : Registers) :
    (s.enter p ctx).Settled (s.others p) :=
  ObjectsOk.congr h (refs_eq hp)

lemma Ok.leave (hp : p < s.count) {ctx : Registers} {c : CallState}
    (hc : Settles (s.others p) (s.enter p ctx) c) : s.Step (s.leave p c) := by
  have hold : s.refs = (s.enter p ctx).refs (s.others p) := funext (refs_eq hp)
  refine ⟨?_, ?_⟩
  · rw [Ok, refs_leave hp]
    exact hc.settled
  · rw [refs_leave hp, hold]
    exact hc.closed

lemma Ok.heap (h : s.Ok) {heap : Heap} (hc : heap.pmm.Counted) :
    s.Step (s.setHandles { s.objects.toHandles with heap := heap }) := by
  refine ⟨?_, .refl rfl fun _ hg => hg⟩
  obtain ⟨hcount, hlive, hsized, -, hclaimed, hmodules, hfresh, honce⟩ := h
  refine ⟨hcount, fun g hg => ?_, hsized, hc, hclaimed, hmodules, hfresh, honce⟩
  have := hlive g hg
  cases g <;> exact this

lemma Ok.fork (h : s.Ok) (hp : p < s.count) {depth : ℕ} {vm : Vm} {ctx : Registers}
    (hvm : Coherent vm s.objects.heap)
    (hne : NoEmptyTables s.objects.heap.pmm.memory vm.pageMap) :
    Ensures (ForkStops vm (s.table p) ctx s.objects.toHandles)
      (fun r => (∀ e, r.1 = .error e → s.Step (s.setHandles r.2)) ∧
        ∀ child, r.1 = .ok child → s.Step ((s.setHandles r.2).add child.descriptors))
      (processFork depth vm (s.table p) ctx s.objects.toHandles) := by
  have hrefs : RefsOk (s.table p) (s.others p) s.objects.toHandles := ObjectsOk.refs h (refs_eq hp)
  refine (processFork_spec hvm hne hrefs depth).imp ?_
  rintro ⟨result, handles⟩ ⟨hrefused, hdone⟩
  refine ⟨?_, ?_⟩
  · rintro e rfl
    obtain ⟨-, rfl, -⟩ := hrefused e rfl
    exact h.heap (ObjectsOk.counted h)
  · rintro child rfl
    have hforked : Forked vm (s.table p) ctx s.objects.toHandles child handles := hdone child rfl
    have hobjects := hforked.objects
    have hcount : handles.refCount = fun g => s.objects.refCount g + (s.table p).uses g := by
      rw [hobjects]
    rw [← hcount] at hobjects
    have huses : ∀ g, ((s.setHandles handles).add child.descriptors).refs g =
        s.refs g + (s.table p).uses g := by
      intro g
      rw [refs_add, DescriptorTable.uses_congr hforked.table]
      rfl
    have hpos : ∀ g, 0 < (s.table p).uses g → 0 < s.refs g := by
      intro g hg
      rw [refs_eq hp]
      omega
    have hcounted := hforked.coherent.space.counted
    refine ⟨ObjectsOk.moreRefs h hobjects (congrFun hcount) hcounted hpos huses,
      .refl ?_ fun g hg => ?_⟩
    · change handles.closes = _
      rw [hobjects]
    · rw [huses]
      omega

end Processes

/-- The call is a fork, and it stops. -/
def ProcessCall.Stops (call : ProcessCall) (s : Processes) (e : Panic) : Prop :=
  ∃ p depth vm ctx, call = .fork p depth vm ctx ∧
    ForkStops vm (s.table p) ctx s.objects.toHandles e

lemma ProcessCall.run_spec {s : Processes} (h : s.Ok) {modules : List BootModule}
    (hmodules : ∀ m ∈ modules, m.Valid) (call : ProcessCall) (hcall : call.Admits s) :
    Ensures (call.Stops s) s.Step (call.run modules s) := by
  cases call with
  | syscall p ctx memory call =>
    refine Ensures.bind ((call.run_settles (h.settled hcall ctx) hmodules memory).mono
      (fun _ he => he.elim) fun _ h => h) ?_
    rintro ⟨r, c⟩ hc
    exact Processes.Ok.leave hcall hc
  | execFlush p ctx =>
    refine Ensures.bind ((doSyscallExecFlush_settles (h.settled hcall ctx)).mono
      (fun _ he => he.elim) fun _ h => h) ?_
    rintro ⟨r, c⟩ hc
    exact Processes.Ok.leave hcall hc
  | fork p depth vm ctx =>
    obtain ⟨hp, hvm, hne⟩ := hcall
    refine Ensures.bind ((h.fork hp hvm hne).mono
      (fun _ he => ⟨p, depth, vm, ctx, rfl, he⟩) fun _ h => h) ?_
    rintro ⟨e | child, handles⟩ ⟨hfailed, hdone⟩
    · exact hfailed e rfl
    · exact hdone child rfl
  | useHeap heap => exact h.heap hcall

/-! ### Runs -/

lemma Processes.init_ok {modules : List BootModule} (hmodules : ∀ m ∈ modules, m.Valid)
    (cmdline : List (BitVec 8)) (ctx : Registers) {heap : Heap} (hc : heap.pmm.Counted) :
    Ensures (fun _ => False) (fun r => ∀ s, r = some s → s.Ok)
      (Processes.init modules cmdline ctx heap) := by
  have hsettled := CallState.settled_none ctx hc
  unfold Processes.init
  refine hsettled.alloc.bind ?_
  rintro ⟨_ | ⟨fd, slot⟩, c⟩ hfound
  · exact fun s hs => (by cases hs)
  obtain ⟨hhas, hread⟩ := hfound.done fd slot rfl
  refine (bootloaderOpenModule_spec hfound.settles.settled hmodules cmdline).bind ?_
  rintro ⟨_ | handle, objects⟩ ⟨-, hsome⟩
  · exact fun s hs => (by cases hs)
  refine (hfound.settles.settled.assign (hsome handle rfl) hhas hread true fd).bind ?_
  rintro ⟨r, c'⟩ ⟨-, hsettles⟩ s hs
  cases hs
  refine ObjectsOk.congr hsettles.settled fun g => ?_
  simp [CallState.refs, Processes.refs]

/-- What holds of the objects after a run, and what the next call does to them -/
structure Processes.Accounted (modules : List BootModule) (s : Processes) : Prop where
  refCount : ∀ h, s.objects.refCount h = s.refs h
  live : ∀ p < s.count, ∀ slot tagged, (s.table p).read slot = some tagged →
    s.objects.Live tagged.handle
  claimed : ∀ n, s.objects.isClaimed n = true ↔ 0 < s.refs (.irq n)
  once : ∀ h, (∀ n, h ≠ .irq n) → s.objects.closes.count h ≤ 1
  next : ∀ call : ProcessCall, call.Admits s →
    Ensures (call.Stops s)
      (fun s' => ClosedLast s.refs s'.refs s.objects.toHandles s'.objects.toHandles)
      (call.run modules s)

/-- The states that a first process leads to -/
abbrev Processes.FirstReachable (modules : List BootModule) (s : Processes) : Prop :=
  Reachable (fun s => ∃ cmdline ctx heap, heap.pmm.Counted ∧
    Processes.init modules cmdline ctx heap = .ok (some s)) ProcessCall.Admits
    (ProcessCall.run modules) s

lemma Processes.FirstReachable.ok {modules : List BootModule} (hmodules : ∀ m ∈ modules, m.Valid)
    {s : Processes} (h : FirstReachable modules s) : s.Ok := by
  refine h.invariant (I := Processes.Ok) ?_ ?_
  · rintro s ⟨cmdline, ctx, heap, hc, hinit⟩
    exact (Processes.init_ok hmodules cmdline ctx hc).of_eq_ok hinit s rfl
  · intro call s s' hs hcall hrun
    exact ((call.run_spec hs hmodules hcall).of_eq_ok hrun).ok

/-- Whatever the processes have done to their descriptors: the reference count of an object is the
number of descriptors that refer to it, in all processes, and every descriptor refers to an object
that is there. The next call closes each object whose last descriptor goes, once, and no other; only
a fork that runs out of memory when it has a process object does not return. -/
theorem Processes.references_accounted {modules : List BootModule}
    (hmodules : ∀ m ∈ modules, m.Valid) {s : Processes}
    (h : Reachable (fun s => ∃ cmdline ctx heap, heap.pmm.Counted ∧
      Processes.init modules cmdline ctx heap = .ok (some s)) ProcessCall.Admits
      (ProcessCall.run modules) s) : s.Accounted modules := by
  have hok := FirstReachable.ok hmodules h
  refine ⟨hok.count, fun p hp slot tagged hread => hok.live _ ?_, hok.claimed,
    fun g hg => (hok.once g hg).1, fun call hcall => ?_⟩
  · have := DescriptorTable.uses_pos_of_read hread
    rw [Processes.refs_eq hp]
    omega
  · exact (call.run_spec hok hmodules hcall).imp fun s' hs' => hs'.closed

namespace Processes

/-- The state after a call that returns -/
def next (s : Processes) (call : ProcessCall) : Processes :=
  (call.run oneModule s).toOption.getD s

/-- A system call with these arguments, where the memory of the process is full of the letter
`"i"` -/
def callOf (p : ℕ) (call : DescriptorCall) (a0 a1 : ℕ) : ProcessCall :=
  .syscall p ⟨0, a0, a1, 0, 0, 0, 0, 0, 0⟩ (fun _ => some 0x69) call

/-- The first process, whose program is the module -/
def first : Processes :=
  ((Processes.init oneModule [0x69] ⟨0, 0, 0, 0, 0, 0, 0, 0, 0⟩ objectHeap).toOption.getD
    none).getD ⟨0, fun _ => .empty, Objects.none objectHeap⟩

/-- What is in the registers when it forks -/
def forking : Registers := ⟨57, 0, 0, 0, 0, 0, 0, 0x400000, 0x7000⟩

/-- It has opened the module again and duplicated the descriptor. -/
def busy : Processes :=
  (first.next (callOf 0 .openModule 0x1000 1)).next (callOf 0 .dup 1 20)

/-- It has tried to fork without memory. -/
def tried : Processes :=
  (busy.next (.useHeap VmState.exhausted.heap)).next (.fork 0 0 VmState.settled.vm forking)

/-- It has forked with memory. -/
def forked : Processes :=
  (tried.next (.useHeap VmState.settled.heap)).next (.fork 0 0 VmState.settled.vm forking)

/-- The child has closed a descriptor, and both have closed the one that was marked. -/
def parted : Processes :=
  ((forked.next (callOf 1 .close 20 0)).next (.execFlush 0 forking)).next (.execFlush 1 forking)

lemma oneModule_valid : ∀ m ∈ oneModule, m.Valid := by simp [oneModule, BootModule.Valid]

lemma objectHeap_counted : objectHeap.pmm.Counted := rfl

/-- The run, with the numbers of the processes and, in the end, of the references -/
lemma run_eq :
    (Processes.init oneModule [0x69] ⟨0, 0, 0, 0, 0, 0, 0, 0, 0⟩ objectHeap).toOption.map
      (fun s => s.map Processes.count) = some (some 1) ∧
    (ProcessCall.run oneModule (.fork 0 0 VmState.settled.vm forking)
      (busy.next (.useHeap VmState.exhausted.heap))).toOption.map Processes.count = some 1 ∧
    (ProcessCall.run oneModule (.fork 0 0 VmState.settled.vm forking)
      (tried.next (.useHeap VmState.settled.heap))).toOption.map Processes.count = some 2 ∧
    ((parted.objects.refCount (.module 0), parted.objects.refCount (.module 1)),
      parted.objects.closes) = ((0, 3), [.module 0]) := by decide +kernel

lemma first_spec : FirstReachable oneModule first ∧ first.count = 1 := by
  obtain ⟨hinit, hcount⟩ := eq_ok_of_map run_eq.1 none
  obtain ⟨s, hs, hone⟩ := Option.map_eq_some_iff.mp hcount
  have hfirst : first = s := by
    rw [first, hs]
    rfl
  rw [hs] at hinit
  rw [hfirst]
  exact ⟨.init ⟨[0x69], ⟨0, 0, 0, 0, 0, 0, 0, 0, 0⟩, objectHeap, objectHeap_counted, hinit⟩, hone⟩

lemma FirstReachable.next {s : Processes} (h : FirstReachable oneModule s) (call : ProcessCall)
    (hcall : call.Admits s) (hrun : call.run oneModule s = .ok (s.next call)) :
    FirstReachable oneModule (s.next call) :=
  .step call h hcall hrun

lemma FirstReachable.next_of_not_stops {s : Processes} (h : FirstReachable oneModule s)
    {call : ProcessCall} (hcall : call.Admits s) (hstops : ∀ e, ¬ call.Stops s e) :
    FirstReachable oneModule (s.next call) := by
  obtain ⟨s', hs', -⟩ := ((call.run_spec (h.ok oneModule_valid) oneModule_valid hcall).mono
    hstops fun _ h => h).exists_ok
  refine h.next call hcall (eq_ok_getD ?_ s)
  rw [hs']
  rfl

lemma next_count {s : Processes} {call : ProcessCall}
    (hfork : ∀ p depth vm ctx, call ≠ .fork p depth vm ctx) : (s.next call).count = s.count := by
  unfold next
  cases hrun : call.run oneModule s with
  | error e => rfl
  | ok s' =>
    cases call with
    | syscall p ctx memory call =>
      obtain ⟨_, -, hleave⟩ := bind_eq_ok.mp hrun
      cases hleave
      rfl
    | execFlush p ctx =>
      obtain ⟨_, -, hleave⟩ := bind_eq_ok.mp hrun
      cases hleave
      rfl
    | fork p depth vm ctx => exact absurd rfl (hfork p depth vm ctx)
    | useHeap heap =>
      cases hrun
      rfl

lemma FirstReachable.next_of_not_fork {s : Processes} (h : FirstReachable oneModule s)
    (call : ProcessCall) (hcall : call.Admits s)
    (hfork : ∀ p depth vm ctx, call ≠ .fork p depth vm ctx) :
    FirstReachable oneModule (s.next call) ∧ (s.next call).count = s.count :=
  ⟨h.next_of_not_stops hcall fun _ ⟨p, depth, vm, ctx, heq, _⟩ => hfork p depth vm ctx heq,
    next_count hfork⟩

lemma busy_reachable : FirstReachable oneModule busy ∧ busy.count = 1 := by
  obtain ⟨hfirst, hcount⟩ := first_spec
  obtain ⟨hopened, hcount'⟩ := hfirst.next_of_not_fork
    (callOf 0 .openModule 0x1000 1) (hcount.ge : 0 < first.count) (by simp [callOf])
  have hp : 0 < (first.next (callOf 0 .openModule 0x1000 1)).count := by omega
  obtain ⟨hbusy, hcount''⟩ := hopened.next_of_not_fork (callOf 0 .dup 1 20) hp
    (by simp [callOf])
  exact ⟨hbusy, by rw [busy]; omega⟩

lemma tried_reachable : FirstReachable oneModule tried ∧ tried.count = 1 := by
  obtain ⟨hbusy, hcount⟩ := busy_reachable
  obtain ⟨hspent, hcount'⟩ := hbusy.next_of_not_fork
    (.useHeap VmState.exhausted.heap) exhausted_coherent.space.counted (by simp)
  obtain ⟨hrun, htried⟩ := eq_ok_of_map run_eq.2.1 (busy.next (.useHeap VmState.exhausted.heap))
  exact ⟨hspent.next _ ⟨by omega, exhausted_coherent, VmState.settled_neat.noEmpty⟩ hrun, htried⟩

lemma forked_reachable : FirstReachable oneModule forked ∧ forked.count = 2 := by
  obtain ⟨htried, hcount⟩ := tried_reachable
  obtain ⟨hready, hcount'⟩ := htried.next_of_not_fork
    (.useHeap VmState.settled.heap) VmState.settled_neat.coherent.space.counted (by simp)
  obtain ⟨hrun, hforked⟩ :=
    eq_ok_of_map run_eq.2.2.1 (tried.next (.useHeap VmState.settled.heap))
  exact ⟨hready.next _ ⟨by omega, VmState.settled_neat.coherent, VmState.settled_neat.noEmpty⟩ hrun,
    hforked⟩

lemma parted_reachable : FirstReachable oneModule parted := by
  obtain ⟨hforked, hcount⟩ := forked_reachable
  have hclosing : 1 < forked.count := by omega
  obtain ⟨hclosed, hcount'⟩ := hforked.next_of_not_fork (callOf 1 .close 20 0) hclosing
    (by simp [callOf])
  have hparent : 0 < (forked.next (callOf 1 .close 20 0)).count := by omega
  obtain ⟨hflushed, hcount''⟩ := hclosed.next_of_not_fork (.execFlush 0 forking) hparent
    (by simp)
  have hchild : 1 < ((forked.next (callOf 1 .close 20 0)).next (.execFlush 0 forking)).count := by
    omega
  exact (hflushed.next_of_not_fork (.execFlush 1 forking) hchild (by simp)).1

/-- The fork without memory made no process and the other made one. Of the two modules that are
open, the one that was marked is closed once, and the other has the descriptors that are left. -/
theorem references_accounted_parted :
    (tried.count, forked.count) = (1, 2) ∧
      ((parted.objects.refCount (.module 0), parted.objects.refCount (.module 1)),
        parted.objects.closes) = ((0, 3), [.module 0]) ∧ parted.Accounted oneModule :=
  ⟨by rw [tried_reachable.2, forked_reachable.2], run_eq.2.2.2,
    references_accounted oneModule_valid parted_reachable⟩

end Processes

end Fluke
