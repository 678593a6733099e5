import Fluke.User.Descriptor.Child
import Fluke.User.Descriptor.Ledger
import Fluke.User.Thread
import Fluke.User.Vm.Atomicity
import Fluke.User.Vm.Coherence

/-!
# Forking a process

`Process::fork` makes a process object, copies the virtual memory and the descriptors, and makes a
thread that has the registers of the one that runs. Each part may fail to be allocated; the owners
of the parts that are there destroy them, in the reverse order.

The child that comes out is a copy of the process but for its floating point state, which is the
one that every new thread has. A fork fails without a trace when there is no process object. What
fails later is undone as well, but the call does not return: the last statement of `VM::~VM` makes
another `VM`, which is destroyed in the same way.
-/

namespace Fluke

open Outcome

/-- `struct FXSave_region` -/
structure FXSaveRegion where
  fcw : ℕ
  fsw : ℕ
  ftw : ℕ
  fop : ℕ
  ip : ℕ
  dp : ℕ
  mxcsr : ℕ
  mxcsrMask : ℕ
  stMmRegs : Fin 8 → ℕ
  xmmRegs : Fin 16 → ℕ

/-- `sizeof(struct FXSave_region)` -/
def fxSaveSize : ℕ := 512

/-- `sizeof(Process)` -/
def processSize : ℕ := 128

/-- `sizeof(Thread)` -/
def threadSize : ℕ := 296

/-- What `fpu_alloc` stores -/
def FXSaveRegion.initial : FXSaveRegion :=
  { fcw := 0x033f, fsw := 0, ftw := 0, fop := 0, ip := 0, dp := 0, mxcsr := 0x1f80, mxcsrMask := 0
    stMmRegs := fun _ => 0, xmmRegs := fun _ => 0 }

/-- `fpu_alloc` -/
def fpuAlloc (heap : Heap) : Except Panic (Option (Block × FXSaveRegion) × Heap) := do
  let (block, heap) ← kalloc fxSaveSize heap
  .ok (block.map fun block => (block, .initial), heap)

/-- The thread of a child: `to_thread` -/
structure ChildThread where
  block : Block
  ctx : Registers
  pageMapTop : Frame
  fpuState : Block × FXSaveRegion

/-- `owned<Thread>::make` and `cpu_context_clone_current`, with what `Process::fork` sets
afterwards. Without memory for the floating point state the thread is given back. -/
def makeChildThread (ctx : Registers) (pageMapTop : Frame) (heap : Heap) :
    Except Panic (Option ChildThread × Heap) := do
  match ← kalloc threadSize heap with
  | (none, heap) => .ok (none, heap)
  | (some block, heap) =>
    match ← fpuAlloc heap with
    | (none, heap) => do
      let heap ← kfree block threadSize heap
      .ok (none, heap)
    | (some fpuState, heap) => .ok (some ⟨block, { ctx with r0 := 0 }, pageMapTop, fpuState⟩, heap)

/-- The loop of `VM::~VM` over the areas -/
def freeAreas (areas : List VmArea) (heap : Heap) : Except Panic Heap :=
  forEach (fun area heap => freeArea area.block heap) areas heap

/-- `VM::~VM` up to its last statement, with the current address space in CR3 -/
def Vm.dismantle (cr3 : Frame) (vm : Vm) (heap : Heap) : Except Panic Heap := do
  let pmm ← mmuDestroyAddressSpace cr3 vm.pageMap heap.pmm
  freeAreas vm.first { heap with pmm := pmm }

/-- `VM::~VM`, on a stack that so many calls fit on. The last statement, `*this = {}`, makes an
empty `VM`, whose destructor is called at the end of the statement. -/
def Vm.destroy (cr3 : Frame) : ℕ → Vm → Heap → Except Panic Heap
  | 0, _, _ => .error .outOfFuel
  | depth + 1, vm, heap => do
    let heap ← vm.dismantle cr3 heap
    Vm.destroy cr3 depth ⟨.null, []⟩ heap

/-- The end of `~owned<Process>`, when the descriptors are gone -/
def destroyChild (depth : ℕ) (cr3 : Frame) (vm : Vm) (block : Block) (heap : Heap) :
    Except Panic Heap := do
  let heap ← Vm.destroy cr3 depth vm heap
  kfree block processSize heap

/-- A child, as `Process::fork` returns it -/
structure ChildProcess where
  block : Block
  vm : Vm
  descriptors : DescriptorTable
  thread : ChildThread

/-- What `Process::fork` makes once it has the process object: the virtual memory, the descriptors
and the thread. When one of them cannot be made, the others are destroyed but for the virtual
memory, which is returned. -/
def buildChild (vm : Vm) (descriptors : DescriptorTable) (ctx : Registers) (s : Handles) :
    Except Panic (Result (DescriptorTable × ChildThread) × Vm × Handles) := do
  match ← vm.clone .null s.heap with
  | (.error e, copy, heap) =>
    -- the descriptors of the child are empty still
    .ok (.error e, copy, { s with heap := heap })
  | (.ok (), copy, heap) => do
    let (r, s) ← descriptors.fork (makeChildThread ctx copy.pageMap) { s with heap := heap }
    .ok (r, copy, s)

/-- `Process::fork` of the process with this virtual memory, these descriptors and these registers,
on a stack that so many calls of a destructor fit on. Its page map is the one in CR3. -/
def processFork (depth : ℕ) (vm : Vm) (descriptors : DescriptorTable) (ctx : Registers)
    (s : Handles) : Except Panic (Result ChildProcess × Handles) := do
  match ← kalloc processSize s.heap with
  | (none, heap) => .ok (.error .ENOMEM, { s with heap := heap })
  | (some block, heap) =>
    match ← buildChild vm descriptors ctx { s with heap := heap } with
    | (.error e, copy, s) => do
      let heap ← destroyChild depth vm.pageMap copy block s.heap
      .ok (.error e, { s with heap := heap })
    | (.ok (table, thread), copy, s) => .ok (.ok ⟨block, copy, table, thread⟩, s)

/-- However large the stack is, `VM::~VM` does not return. -/
lemma Vm.destroy_stuck (cr3 : Frame) (depth : ℕ) (vm : Vm) (heap : Heap) :
    Ensures (fun _ => True) (fun _ => False) (Vm.destroy cr3 depth vm heap) := by
  induction depth generalizing vm heap with
  | zero => trivial
  | succ depth ih => exact (ensures_trivial _).bind fun heap' _ => ih ⟨.null, []⟩ heap'

lemma destroyChild_stuck (depth : ℕ) (cr3 : Frame) (vm : Vm) (block : Block) (heap : Heap) :
    Ensures (fun _ => True) (fun _ => False) (destroyChild depth cr3 vm block heap) :=
  (Vm.destroy_stuck cr3 depth vm heap).bind fun _ hfalse => hfalse.elim

/-! ### The thread -/

lemma processClass_lt : 4 < 10 := by decide

lemma threadClass_lt : 6 < 10 := by decide

/-- The size class of processes -/
def processClass : Fin 10 := ⟨4, processClass_lt⟩

/-- The size class of threads and of floating point states -/
def threadClass : Fin 10 := ⟨6, threadClass_lt⟩

lemma allocCalcSizeClass_process : allocCalcSizeClass processSize = processClass := by decide

lemma allocCalcSizeClass_thread : allocCalcSizeClass threadSize = threadClass := by decide

lemma allocCalcSizeClass_fxSave : allocCalcSizeClass fxSaveSize = threadClass := by decide

/-- The blocks of a thread -/
def ChildThread.blocks (thread : ChildThread) : Fin 10 → Multiset Block :=
  Pi.single threadClass {thread.block} + Pi.single threadClass {thread.fpuState.1}

/-- The blocks of areas -/
def areaBlocks (areas : List VmArea) : Fin 10 → Multiset Block :=
  Pi.single vmAreaClass (areas.map VmArea.block : Multiset Block)

/-- The blocks of a child -/
def ChildProcess.blocks (child : ChildProcess) : Fin 10 → Multiset Block :=
  Pi.single processClass {child.block} + areaBlocks child.vm.first +
    (Pi.single subTableClass child.descriptors.blocks + child.thread.blocks)

section

variable {ctx : Registers} {pageMapTop : Frame} {heap heap' heap'' : Heap}

lemma HeapGrowth.of_pmm (h : heap'.pmm = heap.pmm) (hc : heap.pmm.Counted) :
    HeapGrowth heap heap' := by
  refine ⟨?_, ?_, fun g _ => ?_⟩
  · rw [h]
    exact hc
  · rw [h]
  · rw [h]

lemma fpuAlloc_initial (heap : Heap) : Ensures (fun _ => True)
    (fun r => ∀ state, r.1 = some state → state.2 = .initial) (fpuAlloc heap) := by
  unfold fpuAlloc
  refine (ensures_trivial _).bind fun r _ state hstate => ?_
  obtain ⟨b, -, rfl⟩ := Option.map_eq_some_iff.mp hstate
  rfl

lemma fpuAlloc_spent (hc : heap.pmm.Counted) :
    Ensures (fun _ => False) (fun r => HeapGrowth heap r.2 ∧ (r.1 = none → HeapSpent 0 0 heap r.2) ∧
      ∀ state, r.1 = some state → HeapSpent (Pi.single threadClass {state.1}) 0 heap r.2)
      (fpuAlloc heap) := by
  unfold fpuAlloc
  refine (kalloc_spent allocCalcSizeClass_fxSave hc).bind ?_
  rintro ⟨block, heap'⟩ ⟨hstep, hnone, hsome⟩
  refine ⟨hstep.growth, fun h => hnone (Option.map_eq_none_iff.mp h), fun state hstate => ?_⟩
  obtain ⟨b, hb, rfl⟩ := Option.map_eq_some_iff.mp hstate
  exact hsome b hb

/-- A thread with the registers of the parent, to which the call returns zero -/
structure IsChildThread (ctx : Registers) (pageMapTop : Frame) (thread : ChildThread) : Prop where
  ctx : thread.ctx = { ctx with r0 := 0 }
  pageMapTop : thread.pageMapTop = pageMapTop
  fpuState : thread.fpuState.2 = .initial

lemma makeChildThread_isChild (heap : Heap) : Ensures (fun _ => True)
    (fun r => ∀ thread, r.1 = some thread → IsChildThread ctx pageMapTop thread)
    (makeChildThread ctx pageMapTop heap) := by
  unfold makeChildThread
  refine (ensures_trivial _).bind ?_
  rintro ⟨_ | block, heap₁⟩ -
  · exact fun _ h => (by cases h)
  refine (fpuAlloc_initial heap₁).bind ?_
  rintro ⟨_ | state, heap₂⟩ hinitial
  · exact (ensures_trivial _).bind fun _ _ _ h => (by cases h)
  · intro thread hthread
    cases hthread
    exact ⟨rfl, rfl, hinitial state rfl⟩

lemma makeChildThread_spent (hc : heap.pmm.Counted) :
    Ensures (fun _ => False) (fun r => HeapGrowth heap r.2 ∧ (r.1 = none → HeapSpent 0 0 heap r.2) ∧
      ∀ thread, r.1 = some thread → HeapSpent thread.blocks 0 heap r.2)
      (makeChildThread ctx pageMapTop heap) := by
  unfold makeChildThread
  refine (kalloc_spent allocCalcSizeClass_thread hc).bind ?_
  rintro ⟨_ | block, heap₁⟩ ⟨hstep, hnone, hsome⟩
  · exact ⟨hstep.growth, fun _ => hnone rfl, fun _ h => (by cases h)⟩
  refine (fpuAlloc_spent hstep.counted).bind ?_
  rintro ⟨_ | state, heap₂⟩ ⟨hgrowth, hfpuNone, hfpuSome⟩
  · refine (kfree_givenBack allocCalcSizeClass_thread block heap₂).bind ?_
    rintro heap₃ ⟨hpmm, hback⟩
    have hgrowth' := HeapGrowth.of_pmm hpmm hgrowth.counted
    refine ⟨(hstep.growth.trans hgrowth).trans hgrowth', fun _ => ?_, fun _ h => (by cases h)⟩
    refine HeapSpent.giveBack ?_ hback
    exact ((hsome block rfl).trans (hfpuNone rfl)).congr (by abel) rfl
  · refine ⟨hstep.growth.trans hgrowth, fun h => (by cases h), fun thread hthread => ?_⟩
    cases hthread
    exact ((hsome block rfl).trans (hfpuSome state rfl)).congr rfl (add_zero 0)

/-! ### The address spaces -/

variable {vm copy : Vm} {pm child : Frame}

/-- An address space that is left alone while frames leave the free list -/
lemma SpaceOk.of_free_le {s s' : Pmm} (hs : SpaceOk pm s) (hc : s'.Counted)
    (hfree : (s'.freeList : Multiset Frame) ≤ s.freeList) (hsame : SpaceUnchanged pm s s') :
    SpaceOk pm s' := by
  have hframes : slotFrames userHalf s'.memory PDPT pm = slotFrames userHalf s.memory PDPT pm :=
    congrArg framesOfSlots (userSlots_congr hsame)
  refine ⟨⟨?_⟩, hc, fun i => ?_⟩
  · rw [hframes]
    exact Multiset.nodup_of_le (Multiset.cons_le_cons _ (add_le_add_right hfree _)) hs.apart.nodup
  · rw [userSlots_congr hsame]
    exact hs.tables i

lemma Coherent.of_free_le (h : Coherent vm heap) (hc : heap'.pmm.Counted)
    (hfree : (heap'.pmm.freeList : Multiset Frame) ≤ heap.pmm.freeList)
    (hsame : SpaceUnchanged vm.pageMap heap.pmm heap'.pmm) : Coherent vm heap' := by
  refine ⟨h.areas, h.space.of_free_le hc hfree hsame, fun va hva mode hcovers huser => ?_,
    fun va hva hmapped => ?_⟩
  · rw [userLookup_congr hsame]
    exact h.pages.mapped va hva mode hcovers huser
  · rw [userLookup_congr hsame] at hmapped
    exact h.pages.covered va hva hmapped

lemma HeapGrowth.unchanged (h : HeapGrowth heap heap') (hs : SpaceOk pm heap.pmm) :
    SpaceUnchanged pm heap.pmm heap'.pmm := fun g hg => h.memory g (hs.notMem_free hg)

lemma HeapGrowth.free_le (h : HeapGrowth heap heap') :
    (heap'.pmm.freeList : Multiset Frame) ≤ heap.pmm.freeList :=
  Multiset.coe_le.mpr h.suffix.sublist.subperm

lemma HeapGrowth.spaceOk (h : HeapGrowth heap heap') (hs : SpaceOk pm heap.pmm) :
    SpaceOk pm heap'.pmm :=
  hs.of_free_le h.counted h.free_le (h.unchanged hs)

lemma HeapGrowth.coherent (h : HeapGrowth heap heap') (hvm : Coherent vm heap) :
    Coherent vm heap' :=
  hvm.of_free_le h.counted h.free_le (h.unchanged hvm.space)

/-- Allocations before the copy is made do not matter. -/
lemma Cloned.before {s : Pmm} (h : Cloned pm child heap'.pmm s) (hs : SpaceOk pm heap.pmm)
    (hgrowth : HeapGrowth heap heap') : Cloned pm child heap.pmm s := by
  have hsame := hgrowth.unchanged hs
  have hview := sameUserView_of_frames hs (hgrowth.spaceOk hs) hsame
  refine ⟨fun va hva => ?_, fun va hva entry hentry => ?_, h.fresh.trans hgrowth.free_le, h.nodup,
    fun g hg => ?_, ?_, fun i hi => ?_⟩
  · rw [h.present va hva, (hview va hva).1]
  · obtain ⟨entry', hleaf, hperm, hcontents⟩ :=
      h.page va hva entry (by rw [(hview va hva).1]; exact hentry)
    exact ⟨entry', hleaf, hperm, hcontents.trans ((hview va hva).2.2 entry hentry)⟩
  · rw [← hsame g hg]
    rw [← spaceFrames_congr hsame] at hg
    exact h.source g hg
  · rw [h.tree, userSlots_congr hsame]
  · rw [h.kernel i hi, hsame pm (Multiset.mem_cons_self _ _)]

/-- Allocations after the copy has been made do not matter. -/
lemma Cloned.after {s : Pmm} (h : Cloned pm child s heap.pmm) (hs : SpaceOk pm heap.pmm)
    (hchild : SpaceOk child heap.pmm) (hgrowth : HeapGrowth heap heap') :
    Cloned pm child s heap'.pmm := by
  have hsame := hgrowth.unchanged hs
  have hsame' := hgrowth.unchanged hchild
  have hview := sameUserView_of_frames hchild (hgrowth.spaceOk hchild) hsame'
  refine ⟨fun va hva => ?_, fun va hva entry hentry => ?_, ?_, ?_, fun g hg => ?_, ?_,
    fun i hi => ?_⟩
  · rw [(hview va hva).1]
    exact h.present va hva
  · obtain ⟨entry', hleaf, hperm, hcontents⟩ := h.page va hva entry hentry
    refine ⟨entry', ?_, hperm, ((hview va hva).2.2 entry' hleaf).trans hcontents⟩
    rw [(hview va hva).1]
    exact hleaf
  · rw [spaceFrames_congr hsame']
    exact h.fresh
  · rw [spaceFrames_congr hsame', spaceFrames_congr hsame]
    exact h.nodup
  · have hframes : spaceFrames heap.pmm.memory pm = spaceFrames s.memory pm :=
      spaceFrames_congr h.source
    rw [hsame g (by rw [hframes]; exact hg)]
    exact h.source g hg
  · rw [userSlots_congr hsame, h.tree]
  · rw [hsame' child (Multiset.mem_cons_self _ _), h.kernel i hi]

/-! ### The areas -/

lemma areaBlocks_cons (area : VmArea) (areas : List VmArea) :
    areaBlocks (area :: areas) = Pi.single vmAreaClass {area.block} + areaBlocks areas := by
  rw [areaBlocks, areaBlocks, ← Pi.single_add, List.map_cons, ← Multiset.cons_coe,
    Multiset.singleton_add]

lemma areaBlocks_nil : areaBlocks [] = 0 := Pi.single_zero _

lemma cloneAreas_spent (areas : List VmArea) (hc : heap.pmm.Counted) :
    Ensures (fun _ => False) (fun out => HeapGrowth heap out.2.2 ∧
      HeapSpent (areaBlocks out.2.1) 0 heap out.2.2 ∧ ∀ e, out.1 = .error e → e = .ENOMEM)
      (cloneAreas areas heap) := by
  induction areas generalizing heap with
  | nil =>
    refine ⟨.refl hc, ?_, fun e he => (by cases he)⟩
    rw [areaBlocks_nil]
    exact .refl heap
  | cons area next ih =>
    unfold cloneAreas
    refine (kalloc_spent allocCalcSizeClass_vmArea hc).bind ?_
    rintro ⟨_ | block, heap₁⟩ ⟨hstep, hnone, hsome⟩
    · refine ⟨hstep.growth, ?_, fun e he => (by cases he; rfl)⟩
      rw [areaBlocks_nil]
      exact hnone rfl
    refine (ih hstep.counted).bind ?_
    rintro ⟨result, areas, heap₂⟩ ⟨hgrowth, hspent, herror⟩
    refine ⟨hstep.growth.trans hgrowth, ?_, herror⟩
    rw [areaBlocks_cons]
    exact ((hsome block rfl).trans hspent).congr rfl (add_zero 0)

lemma freeAreas_givenBack (areas : List VmArea) (heap : Heap) :
    Ensures (fun _ => False) (fun heap' => heap'.pmm = heap.pmm ∧
      GivenBack (areaBlocks areas) 0 heap heap') (freeAreas areas heap) := by
  unfold freeAreas
  induction areas generalizing heap with
  | nil =>
    refine ⟨rfl, ?_⟩
    rw [areaBlocks_nil]
    exact .refl heap
  | cons area next ih =>
    rw [forEach_cons]
    refine (kfree_givenBack allocCalcSizeClass_vmArea area.block heap).bind ?_
    rintro heap₁ ⟨hpmm, hback⟩
    refine (ih heap₁).imp ?_
    rintro heap₂ ⟨hpmm', hback'⟩
    refine ⟨hpmm'.trans hpmm, ?_⟩
    rw [areaBlocks_cons]
    have hboth := hback.trans hback'
    rw [add_zero] at hboth
    exact hboth

/-! ### The virtual memory of the child -/

/-- An address space has been copied; blocks have been taken from the heap as well. -/
structure VmCopied (vm : Vm) (child : Frame) (blocks : Fin 10 → Multiset Block)
    (heap heap' : Heap) : Prop where
  ok : SpaceOk child heap'.pmm
  noEmpty : NoEmptyTables heap'.pmm.memory child
  parent : Coherent vm heap'
  cloned : Cloned vm.pageMap child heap.pmm heap'.pmm
  spent : HeapSpent blocks (spaceFrames heap'.pmm.memory child) heap heap'

namespace VmCopied

variable {blocks more : Fin 10 → Multiset Block}

lemma ne (h : VmCopied vm child blocks heap heap') : child ≠ vm.pageMap := by
  intro heq
  refine Multiset.disjoint_left.mp (Multiset.nodup_add.mp h.cloned.nodup).2.2
    (Multiset.mem_cons_self _ _) ?_
  rw [heq]
  exact Multiset.mem_cons_self _ _

lemma before (h : VmCopied vm child blocks heap' heap'') (hvm : Coherent vm heap)
    (hgrowth : HeapGrowth heap heap') (hspent : HeapSpent more 0 heap heap') :
    VmCopied vm child (more + blocks) heap heap'' :=
  ⟨h.ok, h.noEmpty, h.parent, h.cloned.before hvm.space hgrowth,
    (hspent.trans h.spent).congr rfl (zero_add _)⟩

lemma after (h : VmCopied vm child blocks heap heap') (hgrowth : HeapGrowth heap' heap'')
    (hspent : HeapSpent more 0 heap' heap'') : VmCopied vm child (blocks + more) heap heap'' := by
  have hsame := hgrowth.unchanged h.ok
  refine ⟨hgrowth.spaceOk h.ok, fun i => ?_, hgrowth.coherent h.parent,
    h.cloned.after h.parent.space h.ok hgrowth, ?_⟩
  · rw [userSlots_congr hsame]
    exact h.noEmpty i
  · rw [spaceFrames_congr hsame]
    exact (h.spent.trans hspent).congr rfl (add_zero _)

lemma twoSpaces (h : VmCopied vm child blocks heap heap') :
    TwoSpaces vm.pageMap child heap'.pmm := by
  obtain ⟨-, -, hdisjoint⟩ := Multiset.nodup_add.mp h.cloned.nodup
  have hparent := h.parent.space.apart.nodup
  have hchild := h.ok.apart.nodup
  rw [← Multiset.cons_add] at hparent hchild
  obtain ⟨hnodup, hfree, hapart⟩ := Multiset.nodup_add.mp hparent
  obtain ⟨hnodup', -, hapart'⟩ := Multiset.nodup_add.mp hchild
  have hspaces := Multiset.nodup_add.mpr ⟨hnodup, hnodup', hdisjoint.symm⟩
  refine ⟨Multiset.nodup_add.mpr ⟨hspaces, hfree, ?_⟩, h.ok.counted, h.parent.space.tables,
    h.ok.tables⟩
  exact Multiset.disjoint_add_left.mpr ⟨hapart, hapart'⟩

/-- Taking apart what has been made of the virtual memory gives its areas and pages back. -/
lemma dismantle (h : VmCopied vm copy.pageMap (more + areaBlocks copy.first) heap heap')
    (hvm : Coherent vm heap) :
    Ensures (fun _ => False) (fun heap'' => Coherent vm heap'' ∧
      SpaceUnchanged vm.pageMap heap.pmm heap''.pmm ∧ HeapSpent more 0 heap heap'')
      (copy.dismantle vm.pageMap heap') := by
  have hdismantle : Ensures (fun _ => False) (fun heap'' =>
      Destroyed copy.pageMap heap'.pmm heap''.pmm ∧
      GivenBack (areaBlocks copy.first) (spaceFrames heap'.pmm.memory copy.pageMap) heap' heap'')
      (copy.dismantle vm.pageMap heap') := by
    unfold Vm.dismantle
    refine (mmuDestroyAddressSpace_spec h.ne h.ok h.noEmpty).bind fun s' hdestroyed => ?_
    have hpages : GivenBack 0 (spaceFrames heap'.pmm.memory copy.pageMap) heap'
        { heap' with pmm := s' } := GivenBack.of_pages hdestroyed.freed rfl
    refine (freeAreas_givenBack copy.first { heap' with pmm := s' }).imp ?_
    rintro heap₁ ⟨hpmm, hback⟩
    refine ⟨hpmm ▸ hdestroyed, ?_⟩
    have hboth := hpages.trans hback
    rw [zero_add, add_zero] at hboth
    exact hboth
  refine hdismantle.imp ?_
  rintro heap₁ ⟨hdestroyed, hback⟩
  have hspent : HeapSpent more 0 heap heap₁ :=
    HeapSpent.giveBack (h.spent.congr rfl (zero_add _).symm) hback
  have hsame : SpaceUnchanged vm.pageMap heap.pmm heap₁.pmm := by
    intro g hg
    have hold := h.cloned.source g hg
    rw [← spaceFrames_congr h.cloned.source] at hg
    have hchild : g ∉ spaceFrames heap'.pmm.memory copy.pageMap := fun hmem =>
      Multiset.disjoint_left.mp (Multiset.nodup_add.mp h.cloned.nodup).2.2 hmem hg
    rw [hdestroyed.frame g hchild (h.parent.space.notMem_free hg), hold]
  have hfree : (heap₁.pmm.freeList : Multiset Frame) ≤ heap.pmm.freeList := by
    obtain ⟨cut, hfree, -⟩ := hspent
    rw [hfree, add_zero]
    exact Multiset.le_add_right _ _
  exact ⟨hvm.of_free_le hdestroyed.counted hfree hsame, hsame, hspent⟩

end VmCopied

lemma Vm.clone_copied (h : Coherent vm heap) (hne : NoEmptyTables heap.pmm.memory vm.pageMap) :
    Ensures (· = .outOfMemory) (fun r =>
      VmCopied vm r.2.1.pageMap (areaBlocks r.2.1.first) heap r.2.2 ∧
        ∀ e, r.1 = .error e → e = .ENOMEM) (vm.clone .null heap) := by
  unfold Vm.clone
  refine ((mmuCloneAddressSpace_spec rfl h.space).mono (fun _ he => he.1) fun _ hr => hr).bind ?_
  rintro ⟨page, s'⟩ ⟨hnew, hcopy⟩
  have hcloned := hnew.cloned h.space hcopy
  have hfree : (s'.freeList : Multiset Frame) ≤ heap.pmm.freeList := by
    rw [← hnew.conserved]
    exact Multiset.le_add_left _ _
  have hcopied : VmCopied vm page 0 heap { heap with pmm := s' } :=
    ⟨hnew.ok, fun i => (hcopy i).noEmpty (hne i), h.of_free_le hnew.ok.counted hfree hcloned.source,
      hcloned, HeapSpent.of_pages hnew.conserved rfl⟩
  refine Ensures.bind ((cloneAreas_spent vm.first hnew.ok.counted).mono (fun _ he => he.elim)
    fun _ h => h) ?_
  rintro ⟨res, areas, heap₁⟩ ⟨hgrowth, hspent, herror⟩
  have hafter := hcopied.after hgrowth hspent
  rw [zero_add] at hafter
  exact ⟨hafter, herror⟩

/-! ### The fork -/

/-- The process and the objects are as they were; of what was taken for the child, only the process
object has not been given back. -/
structure ForkUndone (vm : Vm) (block : Block) (s s' : Handles) (heap : Heap) : Prop where
  objects : s' = { s with heap := s'.heap }
  coherent : Coherent vm heap
  unchanged : SpaceUnchanged vm.pageMap s.heap.pmm heap.pmm
  spent : HeapSpent (Pi.single processClass {block}) 0 s.heap heap

/-- There is a process object, and what is made next cannot be made for want of memory. -/
def ForkFailsLate (vm : Vm) (descriptors : DescriptorTable) (ctx : Registers) (s : Handles)
    (block : Block) (e : ErrorCode) (copy : Vm) (s' : Handles) : Prop :=
  ∃ heap, kalloc processSize s.heap = .ok (some block, heap) ∧
    buildChild vm descriptors ctx { s with heap := heap } = .ok (.error e, copy, s')

/-- How a fork stops: a page table has no page, the copy of a marked descriptor is destroyed, or
the virtual memory of the child is destroyed. -/
def ForkStops (vm : Vm) (descriptors : DescriptorTable) (ctx : Registers) (s : Handles)
    (e : Panic) : Prop :=
  e = .outOfMemory ∨ e = .invalidPointer ∧ descriptors.Marked ∨
    ∃ block error copy s', ForkFailsLate vm descriptors ctx s block error copy s'

/-- What becomes of a fork that fails -/
structure ForkFails (depth : ℕ) (vm : Vm) (descriptors : DescriptorTable) (ctx : Registers)
    (s : Handles) : Prop where
  /-- It returns an error just when there is no process object, and then it has done nothing. -/
  refused : ∀ e s', processFork depth vm descriptors ctx s = .ok (.error e, s') ↔
    e = .ENOMEM ∧ s' = s ∧ s.heap.pools processClass = [] ∧ s.heap.pmm.freeList = []
  /-- What fails later is undone, all but the process object, by a destructor that does not
  return. -/
  late : ∀ block e copy s', ForkFailsLate vm descriptors ctx s block e copy s' →
    e = .ENOMEM ∧
    Ensures (fun _ => False) (ForkUndone vm block s s') (copy.dismantle vm.pageMap s'.heap) ∧
    ∀ r, processFork depth vm descriptors ctx s ≠ .ok r
  stops : ∀ e, processFork depth vm descriptors ctx s = .error e →
    ForkStops vm descriptors ctx s e

/-- The child is a copy of the process, from which it is apart. -/
structure Forked (vm : Vm) (descriptors : DescriptorTable) (ctx : Registers) (s : Handles)
    (child : ChildProcess) (s' : Handles) : Prop where
  coherent : Coherent child.vm s'.heap
  areas : child.vm.first.map VmArea.extent = vm.first.map VmArea.extent
  pages : Cloned vm.pageMap child.vm.pageMap s.heap.pmm s'.heap.pmm
  table : child.descriptors.read = descriptors.read
  objects : s' = { s with
    heap := s'.heap, refCount := fun handle => s.refCount handle + descriptors.uses handle }
  thread : IsChildThread ctx child.vm.pageMap child.thread
  parent : Coherent vm s'.heap
  /-- What the process does from now on is not seen in the child, -/
  isolated : ∀ pmm, Reachable (· = s'.heap.pmm) SpaceOp.Admits (SpaceOp.run vm.pageMap) pmm →
    SameUserView child.vm.pageMap s'.heap.pmm pmm
  /-- and conversely. -/
  isolated' : ∀ pmm, Reachable (· = s'.heap.pmm) SpaceOp.Admits (SpaceOp.run child.vm.pageMap) pmm →
    SameUserView vm.pageMap s'.heap.pmm pmm
  spent : HeapSpent child.blocks (spaceFrames s'.heap.pmm.memory child.vm.pageMap) s.heap s'.heap

variable {descriptors : DescriptorTable} {other : HandleId → ℕ} {s : Handles}

lemma RefsOk.setHeap (h : RefsOk descriptors other s) (heap : Heap) :
    RefsOk descriptors other { s with heap := heap } := by
  refine ⟨h.count, fun g hg => ?_, h.sized⟩
  have hlive := h.live g hg
  cases g <;> exact hlive

/-- The table and the thread -/
lemma fork_child (hrefs : RefsOk descriptors other s) (hc : s.heap.pmm.Counted) :
    Ensures (fun e => e = .invalidPointer ∧ descriptors.Marked) (fun r =>
      ForkedTable descriptors s r ∧
      ((∀ e, r.1 = .error e → HeapSpent 0 0 s.heap r.2.heap) ∧
        ∀ table thread, r.1 = .ok (table, thread) →
          HeapSpent (Pi.single subTableClass table.blocks + thread.blocks) 0 s.heap r.2.heap) ∧
      ∀ table thread, r.1 = .ok (table, thread) → IsChildThread ctx pageMapTop thread)
      (descriptors.fork (makeChildThread ctx pageMapTop) s) := by
  have hgrowth : ∀ heap : Heap, heap.pmm.Counted → Ensures (fun _ => False)
      (fun r => HeapGrowth heap r.2) (makeChildThread ctx pageMapTop heap) := fun heap hheap =>
    (makeChildThread_spent hheap).imp fun _ hr => hr.1
  have hspent := DescriptorTable.fork_spent hrefs hc fun heap hheap =>
    @makeChildThread_spent ctx pageMapTop heap hheap
  have hthread := descriptors.fork_thread s fun heap =>
    @makeChildThread_isChild ctx pageMapTop heap
  exact (DescriptorTable.fork_spec hrefs hc hgrowth).and_left (hspent.and hthread)

/-- A child that was made from a process, but for its process object -/
structure ChildBuilt (vm : Vm) (descriptors : DescriptorTable) (ctx : Registers) (s : Handles)
    (table : DescriptorTable) (thread : ChildThread) (copy : Vm) (s' : Handles) : Prop where
  coherent : Coherent copy s'.heap
  areas : copy.first.map VmArea.extent = vm.first.map VmArea.extent
  copied : VmCopied vm copy.pageMap
    (areaBlocks copy.first + (Pi.single subTableClass table.blocks + thread.blocks)) s.heap s'.heap
  table : table.read = descriptors.read
  objects : s' = { s with
    heap := s'.heap, refCount := fun handle => s.refCount handle + descriptors.uses handle }
  thread : IsChildThread ctx copy.pageMap thread

lemma buildChild_spec (h : Coherent vm s.heap) (hne : NoEmptyTables s.heap.pmm.memory vm.pageMap)
    (hrefs : RefsOk descriptors other s) :
    Ensures (fun e => e = .outOfMemory ∨ e = .invalidPointer ∧ descriptors.Marked)
      (fun r => (∀ e, r.1 = .error e → e = .ENOMEM ∧ r.2.2 = { s with heap := r.2.2.heap } ∧
          VmCopied vm r.2.1.pageMap (areaBlocks r.2.1.first) s.heap r.2.2.heap) ∧
        ∀ table thread, r.1 = .ok (table, thread) →
          ChildBuilt vm descriptors ctx s table thread r.2.1 r.2.2)
      (buildChild vm descriptors ctx s) := by
  unfold buildChild
  have hclone : Ensures (fun e => e = .outOfMemory ∨ e = .invalidPointer ∧ descriptors.Marked) _
      (vm.clone .null s.heap) :=
    ((Vm.clone_copied h hne).and (Vm.clone_spec h)).mono (fun _ he => Or.inl he) fun _ h => h
  refine hclone.bind ?_
  rintro ⟨e | _, copy, heap₁⟩ ⟨⟨hcopied, herror⟩, hcoherent⟩
  · -- the areas could not all be copied
    refine ⟨fun e' he' => ?_, fun _ _ hok => (by cases hok)⟩
    cases he'
    exact ⟨herror e rfl, rfl, hcopied⟩
  obtain ⟨hchild, hextents⟩ := hcoherent rfl
  refine Ensures.bind ((fork_child (hrefs.setHeap heap₁) hchild.space.counted).mono
    (fun _ he => Or.inr he) fun _ h => h) ?_
  rintro ⟨e | ⟨table, thread⟩, s₂⟩ ⟨htable, ⟨hfailed, hdone⟩, hthread⟩
  · -- no descriptor table or no thread
    obtain ⟨herror, hobjects, hgrowth⟩ := htable.failed e rfl
    have hcopied' := hcopied.after hgrowth (hfailed e rfl)
    rw [add_zero] at hcopied'
    refine ⟨fun e' he' => ?_, fun _ _ hok => (by cases hok)⟩
    cases he'
    refine ⟨herror, ?_, hcopied'⟩
    dsimp only at hobjects ⊢
    rw [hobjects]
  · refine ⟨fun _ he => (by cases he), fun table' thread' hok => ?_⟩
    cases hok
    obtain ⟨hread, hmore⟩ := htable.done table thread rfl
    have hcount : s₂.refCount = fun handle => s.refCount handle + descriptors.uses handle :=
      funext hmore.refCount
    have hobjects := hmore.eq
    rw [hcount] at hobjects
    exact ⟨hmore.heap.coherent hchild, hextents,
      hcopied.after hmore.heap (hdone table thread rfl), hread, hobjects,
      hthread table thread rfl⟩

/-- With a process object the child is made, or the call does not return. -/
lemma processFork_of_block (h : Coherent vm s.heap)
    (hne : NoEmptyTables s.heap.pmm.memory vm.pageMap) (hrefs : RefsOk descriptors other s)
    (depth : ℕ) {block : Block} {heap : Heap}
    (hblock : kalloc processSize s.heap = .ok (some block, heap)) :
    Ensures (fun e => e = .outOfMemory ∨ e = .invalidPointer ∧ descriptors.Marked)
      (fun r => ∀ e, r.1 = .error e → e = .ENOMEM ∧
        Ensures (fun _ => False) (ForkUndone vm block s r.2.2)
          (r.2.1.dismantle vm.pageMap r.2.2.heap))
      (buildChild vm descriptors ctx { s with heap := heap }) ∧
    Ensures (ForkStops vm descriptors ctx s)
      (fun r => ∃ child, r.1 = .ok child ∧ Forked vm descriptors ctx s child r.2)
      (processFork depth vm descriptors ctx s) := by
  obtain ⟨hstep, -, hsome⟩ :=
    (kalloc_spent allocCalcSizeClass_process h.space.counted).of_eq_ok hblock
  have hgrowth := hstep.growth
  have hspent := hsome block rfl
  have hne' : NoEmptyTables heap.pmm.memory vm.pageMap := fun i => by
    rw [userSlots_congr (hgrowth.unchanged h.space)]
    exact hne i
  have hbuilt := @buildChild_spec ctx vm descriptors other _ (hgrowth.coherent h) hne'
    (hrefs.setHeap heap)
  refine ⟨hbuilt.imp fun r hr e he => ?_, ?_⟩
  · obtain ⟨herror, hobjects, hcopied⟩ := hr.1 e he
    refine ⟨herror, ((hcopied.before h hgrowth hspent).dismantle h).imp fun heap' hback => ?_⟩
    exact ⟨hobjects, hback.1, hback.2.1, hback.2.2⟩
  · unfold processFork
    rw [hblock, ok_bind]
    dsimp only
    refine Ensures.bind (hbuilt.with_eq.mono ?_ fun _ h => h) ?_
    · rintro e ⟨rfl | hmarked, -⟩
      · exact Or.inl rfl
      · exact Or.inr (Or.inl hmarked)
    rintro ⟨e | ⟨table, thread⟩, copy, s'⟩ ⟨⟨-, hdone⟩, heq⟩
    · have hlate : ForkFailsLate vm descriptors ctx s block e copy s' := ⟨heap, hblock, heq⟩
      refine Ensures.bind ((destroyChild_stuck depth vm.pageMap copy block s'.heap).mono
        (fun _ _ => Or.inr (Or.inr ⟨block, e, copy, s', hlate⟩)) fun _ h => h) ?_
      exact fun _ hfalse => hfalse.elim
    · have hchild := hdone table thread rfl
      have hcopied := hchild.copied.before h hgrowth hspent
      have htwo := hcopied.twoSpaces
      refine ⟨_, rfl, hchild.coherent, hchild.areas, hcopied.cloned, hchild.table, hchild.objects,
        hchild.thread, hcopied.parent, fun pmm hrun => htwo.run hrun,
        fun pmm hrun => htwo.symm.run hrun, ?_⟩
      refine hcopied.spent.congr ?_ rfl
      rw [ChildProcess.blocks, add_assoc]

/-- Without a process object nothing happens. -/
lemma processFork_of_none (depth : ℕ) (hpool : s.heap.pools processClass = [])
    (hfree : s.heap.pmm.freeList = []) :
    processFork depth vm descriptors ctx s = .ok (.error .ENOMEM, s) := by
  rw [processFork, kalloc_of_none allocCalcSizeClass_process hpool hfree, ok_bind]

lemma processFork_spec (h : Coherent vm s.heap) (hne : NoEmptyTables s.heap.pmm.memory vm.pageMap)
    (hrefs : RefsOk descriptors other s) (depth : ℕ) :
    Ensures (ForkStops vm descriptors ctx s)
      (fun r => (∀ e, r.1 = .error e → e = .ENOMEM ∧ r.2 = s ∧
          s.heap.pools processClass = [] ∧ s.heap.pmm.freeList = []) ∧
        ∀ child, r.1 = .ok child → Forked vm descriptors ctx s child r.2)
      (processFork depth vm descriptors ctx s) := by
  rcases kalloc_cases allocCalcSizeClass_process h.space.counted with
    ⟨⟨hpool, hfree⟩, -⟩ | ⟨block, heap, hblock⟩
  · rw [processFork_of_none depth hpool hfree]
    refine ⟨fun e he => ?_, fun _ hok => (by cases hok)⟩
    cases he
    exact ⟨rfl, rfl, hpool, hfree⟩
  · refine (processFork_of_block h hne hrefs depth hblock).2.imp ?_
    rintro ⟨_, s'⟩ ⟨child, rfl, hforked⟩
    refine ⟨fun _ he => (by cases he), fun child' hok => ?_⟩
    cases hok
    exact hforked

end

/-- A fork that fails: it returns `ENOMEM`, and nothing has happened, just when there is no process
object. When an area, a sub-table, the thread or its floating point state cannot be allocated, all
that was made of the child is given back but the process object, and the call does not return,
however large the stack is. Otherwise a fork stops for want of a page for a page table or at a
marked descriptor that it has copied. -/
theorem processFork_failed {vm : Vm} {descriptors : DescriptorTable} {other : HandleId → ℕ}
    {s : Handles} (h : Coherent vm s.heap) (hne : NoEmptyTables s.heap.pmm.memory vm.pageMap)
    (hrefs : RefsOk descriptors other s) (ctx : Registers) (depth : ℕ) :
    ForkFails depth vm descriptors ctx s where
  refused e s' := by
    constructor
    · exact fun hfork => ((processFork_spec h hne hrefs depth).of_eq_ok hfork).1 e rfl
    · rintro ⟨rfl, rfl, hpool, hfree⟩
      exact processFork_of_none depth hpool hfree
  late block e copy s' := by
    rintro ⟨heap, hblock, hbuild⟩
    obtain ⟨hbuilt, -⟩ := @processFork_of_block ctx vm descriptors other s h hne hrefs depth
      block heap hblock
    obtain ⟨herror, hundone⟩ := hbuilt.of_eq_ok hbuild e rfl
    refine ⟨herror, hundone, fun r hfork => ?_⟩
    rw [processFork, hblock, ok_bind] at hfork
    dsimp only at hfork
    rw [hbuild, ok_bind] at hfork
    obtain ⟨heap', hdestroy, -⟩ := bind_eq_ok.mp hfork
    exact (destroyChild_stuck depth vm.pageMap copy block s'.heap).of_eq_ok hdestroy
  stops := (ensures_iff.mp (processFork_spec h hne hrefs depth)).2

/-- Memory for the objects that descriptors refer to -/
def objectHeap : Heap where
  pmm := Pmm.blank (framesFrom 0x90000 2)
  pools := fun _ => []
  stats := fun _ => ⟨0, 0⟩

/-- One module, which is called `"i"` -/
def oneModule : List BootModule := [⟨[0x69], 1⟩]

/-- The state after a system call that returns -/
def CallState.next (c : CallState) (call : DescriptorCall) (a0 a1 : ℕ) : CallState :=
  ((call.run oneModule (fun _ => some 0x69)
    { c with ctx := ⟨0, a0, a1, 0, 0, 0, 0, 0, 0⟩ }).toOption.getD (.ok 0, c)).2

lemma CallState.Settled.next {c : CallState} {other : HandleId → ℕ} (h : c.Settled other)
    (call : DescriptorCall) (a0 a1 : ℕ) : (c.next call a0 a1).Settled other := by
  have hmodules : ∀ m ∈ oneModule, m.Valid := by simp [oneModule, BootModule.Valid]
  have hctx : CallState.Settled { c with ctx := ⟨0, a0, a1, 0, 0, 0, 0, 0, 0⟩ } other := h
  obtain ⟨r, hr, hsettles⟩ :=
    (call.run_settles hctx hmodules fun _ => some 0x69).exists_ok
  unfold CallState.next
  rw [hr]
  exact hsettles.settled

/-- A process that has opened a module and duplicated the descriptor, into a sub-table -/
def opened : CallState :=
  (CallState.next ⟨⟨0, 0, 0, 0, 0, 0, 0, 0, 0⟩, .empty, Objects.none objectHeap⟩ .openModule
    0x1000 1).next .dup 0 20

/-- It has claimed an interrupt, the descriptor for which is marked. -/
def claimed : CallState := opened.next .claimIrq 3 0

lemma opened_settled : opened.Settled fun _ => 0 :=
  ((@CallState.settled_none _ objectHeap rfl).next _ _ _).next _ _ _

lemma claimed_settled : claimed.Settled fun _ => 0 := opened_settled.next _ _ _

/-- The objects of a process, and the heap -/
def CallState.handles (c : CallState) (heap : Heap) : Handles :=
  { c.objects.toHandles with heap := heap }

lemma CallState.Settled.handles {c : CallState} {other : HandleId → ℕ} (h : c.Settled other)
    (heap : Heap) : RefsOk c.table other (c.handles heap) := h.refsOk.setHeap heap

/-- Room for a process object and for the pages and areas of two areas, but not for a sub-table -/
def scarceHeap : Heap :=
  { VmState.settled.heap with
    pmm := { VmState.settled.heap.pmm with
      freeList := VmState.settled.heap.pmm.freeList.take 6
      freeCount := 6 }
    pools := Function.update VmState.settled.heap.pools processClass
      [⟨Frame.offset 0xa0000 0, 0⟩] }

lemma scarceHeap_pool : scarceHeap.pools processClass = [⟨Frame.offset 0xa0000 0, 0⟩] := by
  unfold scarceHeap
  exact Function.update_self processClass _ VmState.settled.heap.pools

/-- The heap, when the process object is taken -/
def scarceHeap.taken : Heap :=
  scarceHeap.setPool processClass [] { scarceHeap.stats processClass with
    freeCount := (scarceHeap.stats processClass).freeCount - 1 }

/-- The pages are counted, and a child cannot be made of them. -/
lemma scarceHeap_eq : scarceHeap.pmm.freeCount = scarceHeap.pmm.freeList.length ∧
    failsWith .ENOMEM (buildChild VmState.settled.vm opened.table
      ⟨57, 0, 0, 0, 0, 0, 0, 0x400000, 0x7000⟩ (opened.handles scarceHeap.taken)) := by
  decide +kernel

lemma scarceHeap_coherent : Coherent VmState.settled.vm scarceHeap := by
  refine VmState.settled_neat.coherent.of_free_le scarceHeap_eq.1 ?_ fun _ _ => rfl
  exact Multiset.coe_le.mpr (List.take_sublist 6 _).subperm

lemma exhausted_coherent : Coherent VmState.settled.vm VmState.exhausted.heap :=
  VmState.settled_neat.coherent.of_free_le rfl (Multiset.zero_le _) fun _ _ => rfl

/-- Without any memory the fork of a process with two areas and a sub-table returns; when the
sub-table of the child is what cannot be allocated, it does not, on any stack. -/
theorem processFork_failed_scarce :
    (∀ depth, processFork depth VmState.settled.vm opened.table
      ⟨57, 0, 0, 0, 0, 0, 0, 0x400000, 0x7000⟩ (opened.handles VmState.exhausted.heap) =
        .ok (.error .ENOMEM, opened.handles VmState.exhausted.heap)) ∧
    ∃ block copy s', ForkFailsLate VmState.settled.vm opened.table
        ⟨57, 0, 0, 0, 0, 0, 0, 0x400000, 0x7000⟩ (opened.handles scarceHeap) block .ENOMEM copy s' ∧
      Ensures (fun _ => False)
        (ForkUndone VmState.settled.vm block (opened.handles scarceHeap) s')
        (copy.dismantle VmState.settled.vm.pageMap s'.heap) ∧
      ∀ depth r, processFork depth VmState.settled.vm opened.table
        ⟨57, 0, 0, 0, 0, 0, 0, 0x400000, 0x7000⟩ (opened.handles scarceHeap) ≠ .ok r := by
  have hexhausted := processFork_failed (s := opened.handles VmState.exhausted.heap)
    exhausted_coherent VmState.settled_neat.noEmpty (opened_settled.handles _)
    ⟨57, 0, 0, 0, 0, 0, 0, 0x400000, 0x7000⟩
  have hscarce := processFork_failed (s := opened.handles scarceHeap)
    scarceHeap_coherent VmState.settled_neat.noEmpty (opened_settled.handles _)
    ⟨57, 0, 0, 0, 0, 0, 0, 0x400000, 0x7000⟩
  have hblock : kalloc processSize scarceHeap =
      .ok (some ⟨Frame.offset 0xa0000 0, 0⟩, scarceHeap.taken) := by
    rw [kalloc, allocCalcSizeClass_process, kallocClass, checkSizeClass_fin, ok_bind]
    rw [scarceHeap_pool]
    rfl
  obtain ⟨⟨copy, s'⟩, hbuild⟩ := failsWith_iff.mp scarceHeap_eq.2
  have hlate : ForkFailsLate VmState.settled.vm opened.table
      ⟨57, 0, 0, 0, 0, 0, 0, 0x400000, 0x7000⟩ (opened.handles scarceHeap)
      ⟨Frame.offset 0xa0000 0, 0⟩ .ENOMEM copy s' := ⟨_, hblock, hbuild⟩
  refine ⟨fun depth => ((hexhausted depth).refused _ _).mpr ⟨rfl, rfl, rfl, rfl⟩, _, copy, s',
    hlate, ((hscarce 0).late _ _ _ _ hlate).2.1, fun depth => ?_⟩
  exact ((hscarce depth).late _ _ _ _ hlate).2.2

/-- A fork that returns a child has copied the process: its areas, the permissions and the contents
of its pages, its descriptors and its registers, with zero as the result of the call. The process
stays as it was, each object is referred to by as many descriptors more as the child has, and
neither of the two sees what the other does with its memory. -/
theorem processFork_forked {vm : Vm} {descriptors : DescriptorTable} {other : HandleId → ℕ}
    {s : Handles} (h : Coherent vm s.heap) (hne : NoEmptyTables s.heap.pmm.memory vm.pageMap)
    (hrefs : RefsOk descriptors other s) {ctx : Registers} {depth : ℕ} {child : ChildProcess}
    {s' : Handles} (hfork : processFork depth vm descriptors ctx s = .ok (.ok child, s')) :
    Forked vm descriptors ctx s child s' :=
  ((processFork_spec h hne hrefs depth).of_eq_ok hfork).2 child rfl

/-- The process with a word written to its first page -/
def writtenHeap : Heap :=
  { VmState.settled.heap with
    pmm := userStore VmState.settled.vm.pageMap 0x1008 0x1234 VmState.settled.heap.pmm }

lemma writtenHeap_slots : userSlots writtenHeap.pmm.memory VmState.settled.vm.pageMap =
    userSlots VmState.settled.heap.pmm.memory VmState.settled.vm.pageMap :=
  userStore_slots VmState.settled_neat.coherent.space (by decide) _

lemma writtenHeap_coherent : Coherent VmState.settled.vm writtenHeap := by
  have h := VmState.settled_neat.coherent
  have hlookup : ∀ va, userLookup writtenHeap.pmm.memory VmState.settled.vm.pageMap va =
      userLookup VmState.settled.heap.pmm.memory VmState.settled.vm.pageMap va := fun va => by
    rw [userLookup, userTree, writtenHeap_slots]
    rfl
  refine ⟨h.areas, (userStore_step h.space (by decide) _).2, fun va hva mode hcovers huser => ?_,
    fun va hva hmapped => ?_⟩
  · rw [hlookup]
    exact h.pages.mapped va hva mode hcovers huser
  · rw [hlookup] at hmapped
    exact h.pages.covered va hva hmapped

lemma writtenHeap_noEmpty :
    NoEmptyTables writtenHeap.pmm.memory VmState.settled.vm.pageMap := by
  intro i
  rw [writtenHeap_slots]
  exact VmState.settled_neat.noEmpty i

/-- The fork returns a child that passes the check. -/
def forks (check : ChildProcess → Handles → Bool)
    (x : Except Panic (Result ChildProcess × Handles)) : Bool :=
  match x with
  | .ok (.ok child, s') => check child s'
  | _ => false

lemma forks_iff {check : ChildProcess → Handles → Bool}
    {x : Except Panic (Result ChildProcess × Handles)} :
    forks check x ↔ ∃ child s', x = .ok (.ok child, s') ∧ check child s' := by
  unfold forks
  split
  · next child s' => exact ⟨fun h => ⟨child, s', rfl, h⟩, fun ⟨_, _, heq, h⟩ => by
      cases heq
      exact h⟩
  · next hno => exact iff_of_false Bool.false_ne_true fun ⟨child, s', heq, _⟩ => hno child s' heq

/-- A process with two areas, a word in its memory, a module that it refers to twice and an
interrupt has a child. -/
theorem processFork_forked_written : ∃ child s',
    processFork 0 VmState.settled.vm claimed.table ⟨57, 0, 0, 0, 0, 0, 0, 0x400000, 0x7000⟩
      (claimed.handles writtenHeap) = .ok (.ok child, s') ∧
    (child.vm.first.map (fun area => (area.begin, area.end_)) =
        [(0x1000, 0x3000), (0x5000, 0x8000)] ∧
      s'.heap.pmm.memory (entryTarget
        ((userLookup s'.heap.pmm.memory child.vm.pageMap 0x1000).getD 0)) 1 = 0x1234 ∧
      child.descriptors.read (.indirect 0 12) = some ⟨.module 0, false⟩ ∧
      child.descriptors.read (.direct 1) = some ⟨.irq 3, true⟩ ∧
      s'.refCount (.module 0) = 4 ∧ s'.refCount (.irq 3) = 2) ∧
    Forked VmState.settled.vm claimed.table ⟨57, 0, 0, 0, 0, 0, 0, 0x400000, 0x7000⟩
      (claimed.handles writtenHeap) child s' := by
  have hfork : forks (fun child s' => decide
      (child.vm.first.map (fun area => (area.begin, area.end_)) =
          [(0x1000, 0x3000), (0x5000, 0x8000)] ∧
        s'.heap.pmm.memory (entryTarget
          ((userLookup s'.heap.pmm.memory child.vm.pageMap 0x1000).getD 0)) 1 = 0x1234 ∧
        child.descriptors.read (.indirect 0 12) = some ⟨.module 0, false⟩ ∧
        child.descriptors.read (.direct 1) = some ⟨.irq 3, true⟩ ∧
        s'.refCount (.module 0) = 4 ∧ s'.refCount (.irq 3) = 2))
      (processFork 0 VmState.settled.vm claimed.table ⟨57, 0, 0, 0, 0, 0, 0, 0x400000, 0x7000⟩
        (claimed.handles writtenHeap)) := by decide +kernel
  obtain ⟨child, s', hfork, hcheck⟩ := forks_iff.mp hfork
  exact ⟨child, s', hfork, of_decide_eq_true hcheck,
    processFork_forked (s := claimed.handles writtenHeap) writtenHeap_coherent
      writtenHeap_noEmpty (claimed_settled.handles _) hfork⟩

end Fluke
