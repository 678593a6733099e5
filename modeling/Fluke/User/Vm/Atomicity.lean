import Fluke.User.Vm.Coherence

/-!
# Operations that fail

An operation on a virtual memory that returns an error leaves the areas and the page tables as
they were, and no block of an area is lost. The exception is `VM::alloc_fixed_overwrite`, which
asks for a second block after the range was cleared. It gets none only if the first block was
used to split an area, no other block was left and clearing the range did not free a page.
-/

namespace Fluke

open Outcome

/-! ### The blocks of areas -/

/-- Blocks of areas were taken from the pool, which was refilled from the free list when it was
empty. All of them are back in the pool but for those in `held`. -/
structure Holding (held : Multiset Block) (heap heap' : Heap) : Prop where
  pool : ∃ taken : Multiset Frame,
    (heap.pmm.freeList : Multiset Frame) = taken + heap'.pmm.freeList ∧
    (heap'.pools vmAreaClass : Multiset Block) + held =
      heap.pools vmAreaClass + taken.bind (blocksOf vmAreaClass)
  others : ∀ c, c ≠ vmAreaClass → heap'.pools c = heap.pools c

lemma Holding.refl (heap : Heap) : Holding 0 heap heap :=
  ⟨⟨0, by simp, by simp⟩, fun _ _ => rfl⟩

/-- What `owned<VM_area>::make` leaves when it returns an area. -/
structure Made (b : Block) (heap heap' : Heap) : Prop where
  step : HeapStep heap heap'
  holding : Holding {b} heap heap'
  last : heap'.pools vmAreaClass = [] → heap.pools vmAreaClass = [b] ∧ heap'.pmm = heap.pmm

/-- Either an area is made, or there are neither blocks nor pages left. -/
lemma makeArea_cases {heap : Heap} (hcount : heap.pmm.Counted) :
    (heap.pools vmAreaClass = [] ∧ heap.pmm.freeList = [] ∧ makeArea heap = .ok (none, heap)) ∨
    ∃ b heap', makeArea heap = .ok (some b, heap') ∧ Made b heap heap' := by
  cases hpool : heap.pools vmAreaClass with
  | cons b next =>
    refine Or.inr ⟨b, _, makeArea_cons hpool, ?_, ⟨⟨0, ?_, ?_⟩, fun c hc => ?_⟩, fun h => ?_⟩
    · exact ⟨hcount, List.suffix_rfl, Nat.le_succ _, fun _ _ => rfl⟩
    · rw [zero_add]
      rfl
    · rw [Heap.setPool_pools_self, hpool, Multiset.zero_bind, add_zero, ← Multiset.cons_coe,
        Multiset.add_comm, Multiset.singleton_add]
    · exact Heap.setPool_pools_of_ne heap _ _ hc
    · rw [Heap.setPool_pools_self] at h
      subst h
      exact ⟨hpool, rfl⟩
  | nil =>
    have hmake := makeArea_nil hpool
    have hstep := makeArea_spec hcount
    rw [hmake] at hstep ⊢
    unfold allocFromFreshPage at hstep ⊢
    rw [hpool] at hstep ⊢
    rcases allocPage_eq hcount with ⟨hfree, heq⟩ | ⟨page, next, hfree, heq⟩
    · rw [heq]
      exact Or.inl ⟨rfl, hfree, rfl⟩
    · rw [heq] at hstep ⊢
      refine Or.inr ⟨_, _, rfl, hstep, ⟨⟨{page}, ?_, ?_⟩, fun c hc => ?_⟩, fun h => ?_⟩
      · rw [hfree, ← Multiset.cons_coe, Multiset.singleton_add]
        rfl
      · rw [Heap.setPool_pools_self, hpool, Multiset.singleton_bind, blocksOf_eq,
          Multiset.coe_nil, zero_add, Multiset.add_comm, Multiset.singleton_add]
      · exact Heap.setPool_pools_of_ne _ _ _ hc
      · -- a fresh page leaves 127 blocks
        rw [Heap.setPool_pools_self] at h
        have hlength := congrArg List.length h
        rw [List.length_reverse, List.length_map, freshOffsets, List.length_map,
          List.length_range'] at hlength
        exact absurd hlength (by decide)

lemma Made.freed {b : Block} {heap heap' : Heap} (h : Made b heap heap') :
    Ensures (fun _ => False) (fun heap'' => Holding 0 heap heap'') (freeArea b heap') := by
  rw [freeArea_eq]
  obtain ⟨taken, hpages, hblocks⟩ := h.holding.pool
  refine ⟨⟨taken, hpages, ?_⟩, fun c hc => ?_⟩
  · rw [Heap.setPool_pools_self, add_zero, ← hblocks, ← Multiset.cons_coe, Multiset.add_comm,
      Multiset.singleton_add]
  · rw [Heap.setPool_pools_of_ne heap' _ _ hc]
    exact h.holding.others c hc

/-! ### Errors that leave everything as it was -/

/-- Every table and every page of the address space holds what it held. -/
def SpaceUnchanged (pm : Frame) (s s' : Pmm) : Prop :=
  ∀ g ∈ spaceFrames s.memory pm, s'.memory g = s.memory g

/-- An operation that returns an error did nothing. -/
def ErrorAtomic {α : Type} (vm : Vm) (heap : Heap) (out : VmOut α) : Prop :=
  ∀ e, out.1 = .error e → out.2.1 = vm.first ∧
    SpaceUnchanged vm.pageMap heap.pmm out.2.2.pmm ∧ Holding 0 heap out.2.2

section

variable {vm : Vm} {heap heap' : Heap} {address len : ℕ} {flags : BitVec 32}

lemma errorAtomic_same {α : Type} (e : ErrorCode) :
    ErrorAtomic vm heap ((.error e, vm.first, heap) : VmOut α) :=
  fun _ _ => ⟨rfl, fun _ _ => rfl, Holding.refl heap⟩

lemma errorAtomic_ok {α : Type} (a : α) (areas : List VmArea) :
    ErrorAtomic vm heap ((.ok a, areas, heap') : VmOut α) :=
  fun _ h => (by cases h)

/-- A block was taken and given back. -/
lemma Made.errorAtomic {α : Type} {b : Block} (h : Made b heap heap')
    (hs : SpaceOk vm.pageMap heap.pmm) (e : ErrorCode) :
    Ensures (fun _ => True) (fun heap'' => ErrorAtomic vm heap ((.error e, vm.first, heap'') :
      VmOut α)) (freeArea b heap') := by
  refine ((freeArea_spec b heap').and h.freed).mono (fun _ _ => trivial) fun heap'' hfreed => ?_
  refine fun _ _ => ⟨rfl, fun g hg => ?_, hfreed.2⟩
  dsimp only
  rw [hfreed.1]
  exact h.step.memory g (hs.notMem_free hg)

lemma vmClearForInsert_failed (areas : List VmArea) (address end_ : ℕ)
    (hcount : heap.pmm.Counted) :
    Ensures (fun _ => True) (fun r => ∀ e, r.1 = .error e → r.2 = heap)
      (vmClearForInsert areas address end_ heap) := by
  unfold vmClearForInsert
  rcases makeArea_cases hcount with ⟨-, -, hmake⟩ | ⟨spare, heap₁, hmake, -⟩
  · rw [hmake]
    exact fun _ _ => rfl
  · rw [hmake, ok_bind]
    refine (ensures_trivial _).bind fun r _ => ?_
    dsimp only
    split_ifs
    · exact fun _ h => (by cases h)
    · exact (ensures_trivial _).bind fun _ _ _ h => (by cases h)

lemma Vm.free_errorAtomic (hs : SpaceOk vm.pageMap heap.pmm) :
    Ensures (fun _ => True) (ErrorAtomic vm heap) (vm.free address len heap) := by
  unfold Vm.free
  refine (ensures_trivial _).bind fun _ _ => ?_
  split_ifs
  · exact errorAtomic_same _
  refine (vmClearForInsert_failed vm.first address _ hs.counted).bind ?_
  rintro ⟨e | route, heap₁⟩ hfailed
  · cases hfailed e rfl
    exact errorAtomic_same _
  · exact (ensures_trivial _).bind fun _ _ => errorAtomic_ok _ _

lemma Vm.allocFixedNoreplace_errorAtomic (hs : SpaceOk vm.pageMap heap.pmm) :
    Ensures (fun _ => True) (ErrorAtomic vm heap)
      (vm.allocFixedNoreplace address len flags heap) := by
  have hinsert : ∀ end_ mode, Ensures (fun _ => True) (ErrorAtomic vm heap)
      (vmInsertArea vm.first address end_ mode heap) := by
    intro end_ mode
    unfold vmInsertArea
    rcases makeArea_cases hs.counted with ⟨-, -, hmake⟩ | ⟨block, heap₁, hmake, hmade⟩
    · rw [hmake]
      exact errorAtomic_same _
    · rw [hmake, ok_bind]
      dsimp only
      split
      · exact errorAtomic_ok _ _
      · split_ifs
        · exact (hmade.errorAtomic hs _).bind fun _ h => h
        · exact errorAtomic_ok _ _
  unfold Vm.allocFixedNoreplace
  refine (ensures_trivial _).bind fun _ _ => ?_
  split_ifs
  · exact errorAtomic_same _
  refine (hinsert _ _).bind ?_
  rintro ⟨e | ⟨⟩, areas, heap₁⟩ hout
  · exact hout
  · exact (ensures_trivial _).bind fun _ _ => errorAtomic_ok _ _

lemma Vm.placeMovable_errorAtomic (hs : SpaceOk vm.pageMap heap.pmm) {b : Block}
    (hmade : Made b heap heap') (hint : ℕ) (length : ℤ) (list : List VmArea) :
    Ensures (fun _ => True) (ErrorAtomic vm heap)
      (vm.placeMovable hint length flags b list heap') := by
  unfold Vm.placeMovable
  cases findRegion hint length list 0 none with
  | none => exact (hmade.errorAtomic hs _).bind fun _ h => h
  | some found =>
    obtain ⟨region, i⟩ := found
    dsimp only
    unfold Vm.insertMovable
    generalize clamp hint region.end_ _ = address
    dsimp only
    refine (ensures_trivial _).bind fun _ _ => (ensures_trivial _).bind fun _ _ => ?_
    exact (ensures_trivial _).bind fun _ _ => errorAtomic_ok _ _

lemma Vm.allocMovable_errorAtomic (hint : ℕ) (length : ℤ) (hs : SpaceOk vm.pageMap heap.pmm) :
    Ensures (fun _ => True) (ErrorAtomic vm heap) (vm.allocMovable hint length flags heap) := by
  rw [Vm.allocMovable]
  generalize effectiveHint hint = hint
  generalize vmListBegin :: vm.first = list
  split_ifs
  · exact errorAtomic_same _
  rcases makeArea_cases hs.counted with ⟨-, -, hmake⟩ | ⟨block, heap₁, hmake, hmade⟩
  · rw [hmake, ok_bind]
    exact errorAtomic_same _
  · rw [hmake, ok_bind]
    exact Vm.placeMovable_errorAtomic hs hmade hint length list

end

/-! ### What clearing a range frees -/

section

variable {pm : Frame} {address len : ℕ} {s s' : Pmm}

lemma userFrames_eq (memory : Frame → Page) (pm : Frame) :
    userFrames memory pm = Radix.collectSlots entryTarget (userSlots memory pm) := rfl

/-- Nothing was free and no page of the range was mapped when nothing is free after clearing. -/
lemma ClearedRange.of_freeList_nil (h : ClearedRange pm address len s s')
    (hr : UserRange address len) (hfree : s'.freeList = []) :
    s.freeList = [] ∧ ¬ RangeMapped pm address len s := by
  have hle : ∀ i, (userSlots s'.memory pm i).collect entryTarget ≤
      (userSlots s.memory pm i).collect entryTarget := by
    intro i
    rw [h.slots i]
    exact Radix.collect_erase_le entryTarget _ _
  have hcard := congrArg Multiset.card h.step.conserved
  rw [hfree, Multiset.coe_nil, add_zero, Multiset.card_add, Multiset.coe_card, userFrames_eq,
    userFrames_eq] at hcard
  constructor
  · have hle := Multiset.card_le_card (Radix.collectSlots_le hle)
    exact List.eq_nil_of_length_eq_zero (by omega)
  · rintro ⟨va, hlo, hhi, hmapped⟩
    rw [userLookup, userTree, pathOf_PML4, Radix.lookup_table_cons] at hmapped
    have hlt := Radix.card_collectSlots_lt (i := tableIndex PML4 va) hle (by
      rw [h.slots]
      exact Radix.card_collect_erase_lt entryTarget
        ((hr.pathOf_mem_pathsIn (hhi.trans_le hr.le)).mpr ⟨hlo, hhi⟩) hmapped)
    omega

/-- Clearing a range without pages frees nothing. -/
lemma ClearedRange.freeList_eq (h : ClearedRange pm address len s s')
    (hne : NoEmptyTables s.memory pm) (hnone : ¬ RangeMapped pm address len s) :
    (s'.freeList : Multiset Frame) = s.freeList := by
  have hsame : userSlots s'.memory pm = userSlots s.memory pm := by
    funext i
    rw [h.slots i]
    refine (hne i).erase_eq_self ?_
    rintro p ⟨va, hlo, hhi, hpath⟩
    by_contra hmapped
    refine hnone ⟨va, hlo, hhi, ?_⟩
    rwa [userLookup, hpath, userTree, Radix.lookup_table_cons]
  have hconserved := h.step.conserved
  rw [userFrames_eq, userFrames_eq, hsame] at hconserved
  exact add_left_cancel hconserved

end

/-! ### `VM::alloc_fixed_overwrite` -/

/-- The range lies strictly inside an area, one block is left for areas, no page is free, and no
page of the range is mapped. -/
structure Starved (vm : Vm) (address len : ℕ) (heap : Heap) : Prop where
  inside : StrictlyInside vm.first address (address + len)
  block : ∃ b, heap.pools vmAreaClass = [b]
  pages : heap.pmm.freeList = []
  unmapped : ¬ RangeMapped vm.pageMap address len heap.pmm

section

variable {areas : List VmArea} {vm : Vm} {heap : Heap} {address len end_ : ℕ}
  {flags : BitVec 32}

/-- The loop gives blocks to the pool and takes none. -/
lemma clearLoop_pools (spare : Block) (areas : List VmArea) (heap : Heap) :
    Ensures (fun _ => True)
      (fun r => heap.pools vmAreaClass <:+ r.2.pools vmAreaClass)
      (clearLoop address end_ spare areas heap) := by
  induction areas generalizing heap with
  | nil => exact List.suffix_rfl
  | cons area next ih =>
    unfold clearLoop
    cases area.findOverlap address end_ with
    | after => exact List.suffix_rfl
    | startsWith => exact (ensures_trivial _).bind fun _ _ => List.suffix_rfl
    | contains => exact List.suffix_rfl
    | whole =>
      dsimp only
      rw [freeArea_eq, ok_bind]
      refine (ih _).imp fun r hr => ?_
      rw [Heap.setPool_pools_self] at hr
      exact (List.suffix_cons _ _).trans hr
    | endsWith =>
      exact (ensures_trivial _).bind fun _ _ => (ih heap).bind fun r hr => hr
    | before => exact (ih heap).bind fun r hr => hr

/-- The loop splits the area around the range, and does nothing to the areas before it. -/
lemma clearLoop_inside (hwf : WellFormed areas) (hlt : address < end_)
    (hinside : StrictlyInside areas address end_) (spare : Block) (heap : Heap) :
    ∃ route, clearLoop address end_ spare areas heap = .ok (route, heap) ∧
      route.usedSpare = true := by
  induction areas with
  | nil =>
    obtain ⟨area, harea, -⟩ := hinside
    cases harea
  | cons area next ih =>
    obtain ⟨harea, hafter, hnext⟩ := wellFormed_cons.mp hwf
    obtain ⟨outer, houter, hlo, hhi⟩ := hinside
    unfold clearLoop
    rcases List.mem_cons.mp houter with rfl | houter
    · have hoverlap : outer.findOverlap address end_ = .contains := by
        rcases findOverlap_cases outer address end_ with ⟨-, h⟩ | ⟨-, h⟩ | ⟨-, h, -⟩ |
          ⟨-, h, -⟩ | ⟨-, -, -, h⟩ | ⟨h, -⟩
        · omega
        · omega
        · omega
        · omega
        · omega
        · exact h
      rw [hoverlap]
      exact ⟨_, rfl, rfl⟩
    · have hbefore : area.end_ ≤ outer.begin := hafter outer houter
      have hareaLt := harea.lt
      have hoverlap : area.findOverlap address end_ = .before := by
        rcases findOverlap_cases area address end_ with ⟨-, h⟩ | ⟨h, -⟩ | ⟨-, h, -⟩ |
          ⟨-, h, -⟩ | ⟨-, -, h, -⟩ | ⟨-, -, h⟩
        · omega
        · exact h
        · omega
        · omega
        · omega
        · omega
      obtain ⟨route, hroute, hused⟩ := ih hnext ⟨outer, houter, hlo, hhi⟩
      rw [hoverlap]
      dsimp only
      rw [hroute, ok_bind]
      exact ⟨_, rfl, hused⟩

/-- When no block and no page is left after the range was cleared, the first block was the last
one and went into the area behind the range. -/
lemma vmClearForInsert_last (hr : AreaRange address end_) (hwf : WellFormed vm.first)
    (hcount : heap.pmm.Counted) :
    Ensures (fun _ => True) (fun r => ∀ route, r.1 = .ok route →
      r.2.pools vmAreaClass = [] →
        StrictlyInside vm.first address end_ ∧ (∃ b, heap.pools vmAreaClass = [b]) ∧
          r.2.pmm = heap.pmm) (vmClearForInsert vm.first address end_ heap) := by
  unfold vmClearForInsert
  rcases makeArea_cases hcount with ⟨-, -, hmake⟩ | ⟨spare, heap₁, hmake, hmade⟩
  · rw [hmake]
    exact fun _ h => (by cases h)
  rw [hmake, ok_bind]
  refine (((clearLoop_spec hr spare hwf heap₁).mono (fun _ h => h.elim) fun _ h => h).and
    (clearLoop_pools spare vm.first heap₁)).bind ?_
  rintro ⟨route, heap₂⟩ ⟨⟨hcleared, hpmm⟩, hpools⟩
  dsimp only at hcleared hpmm hpools ⊢
  split_ifs with hused
  · intro _ _ hnil
    dsimp only at hnil
    rw [hnil, List.suffix_nil] at hpools
    obtain ⟨hlast, hpmm'⟩ := hmade.last hpools
    exact ⟨hcleared.inside hused, ⟨spare, hlast⟩, hpmm.trans hpmm'⟩
  · rw [freeArea_eq]
    intro _ _ hnil
    rw [Heap.setPool_pools_self] at hnil
    cases hnil

/-- When there is no second block after the range was cleared, the operation was starved. -/
lemma starved_of_cleared {heap₁ : Heap} {pmm : Pmm} (hur : UserRange address len)
    (hlast : StrictlyInside vm.first address (address + len) ∧
      (∃ b, heap.pools vmAreaClass = [b]) ∧ heap₁.pmm = heap.pmm)
    (hclear : ClearedRange vm.pageMap address len heap₁.pmm pmm) (hfree : pmm.freeList = []) :
    Starved vm address len heap := by
  obtain ⟨hinside, hblock, hpmm⟩ := hlast
  have hnone := hclear.of_freeList_nil hur hfree
  rw [hpmm] at hnone
  exact ⟨hinside, hblock, hnone.1, hnone.2⟩

lemma Vm.allocFixedOverwrite_errorAtomic (hargs : VmArgs address len)
    (hwf : WellFormed vm.first) (hs : SpaceOk vm.pageMap heap.pmm)
    (hstarved : ¬ Starved vm address len heap) :
    Ensures (fun _ => True) (ErrorAtomic vm heap)
      (vm.allocFixedOverwrite address len flags heap) := by
  unfold Vm.allocFixedOverwrite
  rw [hargs.assertValid_eq, ok_bind]
  split_ifs with hrange
  · exact errorAtomic_same _
  have hlt : address < addrMax := by
    by_contra hge
    exact hrange (by simp [not_lt.mp hge])
  rw [hargs.uaddIsize_eq hlt] at hrange ⊢
  have hle : address + len ≤ addrMax := by
    by_contra hgt
    exact hrange (by simp [not_le.mp hgt])
  have har := hargs.areaRange hle
  have hur := hargs.userRange hle
  refine Ensures.bind (((vmClearForInsert_failed vm.first address (address + len) hs.counted).and
    (vmClearForInsert_last har hwf hs.counted)).and
    ((vmClearForInsert_spec har hs).mono (fun _ _ => trivial) fun _ h => h)) ?_
  rintro ⟨e | route, heap₁⟩ ⟨⟨hfailed, hlast⟩, hkept, -⟩
  · cases hfailed e rfl
    exact errorAtomic_same _
  dsimp only
  unfold clearRange
  rw [bind_assoc]
  refine Ensures.bind ((mmuClear_spec hur hkept.ok).mono (fun _ h => h.elim) fun _ h => h)
    fun pmm hclear => ?_
  rw [ok_bind]
  rcases @makeArea_cases { heap₁ with pmm := pmm } hclear.ok.counted with
    ⟨hnil, hfree, -⟩ | ⟨block, heap₂, hmake, -⟩
  · exact absurd (starved_of_cleared hur (hlast route rfl hnil) hclear hfree) hstarved
  · rw [hmake, ok_bind]
    exact (ensures_trivial _).bind fun _ _ => errorAtomic_ok _ _

/-- Without a second block the range stays cleared. -/
lemma Starved.fails (h : Starved vm address len heap) (hargs : VmArgs address len)
    (hwf : WellFormed vm.first) (hs : SpaceOk vm.pageMap heap.pmm)
    (hne : NoEmptyTables heap.pmm.memory vm.pageMap) :
    ∃ areas heap', vm.allocFixedOverwrite address len flags heap =
      .ok (.error .ENOMEM, areas, heap') ∧ areas ≠ vm.first := by
  obtain ⟨outer, houter, hlo, hhi⟩ := h.inside
  have hlower : addrMin ≤ address := (hwf.ok outer houter).lower.trans hlo.le
  have hle : address + len ≤ addrMax := hhi.le.trans (hwf.ok outer houter).upper
  have hpos := hargs.pos
  have hlt : address < addrMax := by omega
  have har := hargs.areaRange hle
  have hur := hargs.userRange hle
  have hrange : ¬ (address < addrMin || address ≥ addrMax || address + len > addrMax) = true := by
    simp [hlower, hlt, hle]
  obtain ⟨spare, hpool⟩ := h.block
  obtain ⟨heap₁, hmake, hpmm, hnil⟩ : ∃ heap₁, makeArea heap = .ok (some spare, heap₁) ∧
      heap₁.pmm = heap.pmm ∧ heap₁.pools vmAreaClass = [] :=
    ⟨_, makeArea_cons hpool, rfl, Heap.setPool_pools_self heap _ _ _⟩
  obtain ⟨route, hroute, hused⟩ := clearLoop_inside hwf har.lt h.inside spare heap₁
  have hcleared : AreasCleared address (address + len) vm.first route := by
    have hspec := clearLoop_spec har spare hwf heap₁
    rw [hroute] at hspec
    exact hspec.1
  have hinsert : vmClearForInsert vm.first address (address + len) heap =
      .ok (.ok route, heap₁) := by
    rw [vmClearForInsert, hmake, ok_bind]
    dsimp only
    rw [hroute, ok_bind]
    dsimp only
    rw [if_pos hused, ok_bind]
  obtain ⟨pmm, hclear, hstep⟩ := (mmuClear_spec hur (hpmm ▸ hs)).exists_ok
  have hfree : pmm.freeList = [] := by
    have heq := hstep.freeList_eq (by rwa [hpmm]) (by rw [hpmm]; exact h.unmapped)
    rw [hpmm, h.pages] at heq
    exact (Multiset.coe_eq_zero _).mp heq
  have hnone : makeArea { heap₁ with pmm := pmm } = .ok (none, { heap₁ with pmm := pmm }) :=
    kalloc_of_none allocCalcSizeClass_vmArea hnil hfree
  refine ⟨route.passed ++ route.rest, { heap₁ with pmm := pmm }, ?_, fun heq => ?_⟩
  · unfold Vm.allocFixedOverwrite
    rw [hargs.assertValid_eq, ok_bind, hargs.uaddIsize_eq hlt, if_neg hrange, hinsert, ok_bind]
    dsimp only
    rw [clearRange, hclear, ok_bind, ok_bind, hnone, ok_bind]
  · -- the range is not covered any more
    have hcovers : Covers vm.first address outer.flags :=
      ⟨outer, houter, hlo.le, by omega, rfl⟩
    rw [← heq, hcleared.covers] at hcovers
    exact hcovers.2 ⟨le_rfl, by omega⟩

/-- `VM::free`, `VM::alloc_fixed_noreplace` and `VM::alloc_movable` leave everything as it was when
they return an error; `VM::alloc_fixed_overwrite` does so unless it is starved. -/
theorem Vm.errorAtomic_iff (hargs : VmArgs address len) (hwf : WellFormed vm.first)
    (hs : SpaceOk vm.pageMap heap.pmm) (hne : NoEmptyTables heap.pmm.memory vm.pageMap) :
    Ensures (fun _ => True) (ErrorAtomic vm heap) (vm.free address len heap) ∧
    Ensures (fun _ => True) (ErrorAtomic vm heap)
      (vm.allocFixedNoreplace address len flags heap) ∧
    (∀ hint (length : ℤ), Ensures (fun _ => True) (ErrorAtomic vm heap)
      (vm.allocMovable hint length flags heap)) ∧
    (Ensures (fun _ => True) (ErrorAtomic vm heap) (vm.allocFixedOverwrite address len flags heap) ↔
      ¬ Starved vm address len heap) := by
  refine ⟨Vm.free_errorAtomic hs, Vm.allocFixedNoreplace_errorAtomic hs,
    fun hint length => Vm.allocMovable_errorAtomic hint length hs, fun hatomic hstarved => ?_,
    Vm.allocFixedOverwrite_errorAtomic hargs hwf hs⟩
  obtain ⟨areas, heap', hout, hareas⟩ := hstarved.fails hargs hwf hs hne
  rw [hout] at hatomic
  exact hareas (hatomic .ENOMEM rfl).1

end

namespace VmState

/-- Two areas, no block for another one and no free frame -/
def exhausted : VmState where
  vm := settled.vm
  heap :=
    { settled.heap with
      pmm := { settled.heap.pmm with
        freeList := []
        freeCount := 0 }
      pools := fun _ => [] }

lemma exhausted_spaceOk : SpaceOk exhausted.vm.pageMap exhausted.heap.pmm := by
  have hs := settled_neat.coherent.space
  refine ⟨⟨Multiset.nodup_of_le ?_ hs.apart.nodup⟩, rfl, hs.tables⟩
  exact Multiset.cons_le_cons _ (Multiset.add_le_add_left (Multiset.zero_le _))

/-- Without blocks, all operations fail and change nothing. With blocks, a range that is in use
cannot be mapped, and the attempt changes nothing. -/
theorem errorAtomic_settled :
    (∃ out, exhausted.vm.free 0x2000 0x4000 exhausted.heap = .ok (.error .ENOMEM, out) ∧
      ErrorAtomic exhausted.vm exhausted.heap ((.error .ENOMEM, out) : VmOut Unit)) ∧
    (∃ out, exhausted.vm.allocMovable 0x3000 0x1000 protWrite exhausted.heap =
        .ok (.error .ENOMEM, out) ∧
      ErrorAtomic exhausted.vm exhausted.heap ((.error .ENOMEM, out) : VmOut ℕ)) ∧
    (¬ Starved exhausted.vm 0x2000 0x4000 exhausted.heap ∧
      ∃ out, exhausted.vm.allocFixedOverwrite 0x2000 0x4000 protWrite exhausted.heap =
          .ok (.error .ENOMEM, out) ∧
        ErrorAtomic exhausted.vm exhausted.heap ((.error .ENOMEM, out) : VmOut Unit)) ∧
    ∃ out, settled.vm.allocFixedNoreplace 0x2000 0x4000 protWrite settled.heap =
        .ok (.error .EEXIST, out) ∧
      ErrorAtomic settled.vm settled.heap ((.error .EEXIST, out) : VmOut Unit) := by
  have hargs : VmArgs 0x2000 0x4000 := ⟨by decide, by decide, by decide, by decide⟩
  have hcoherent := settled_neat.coherent
  obtain ⟨hfree, -, hmovable, hoverwrite⟩ := @Vm.errorAtomic_iff exhausted.vm exhausted.heap _ _
    protWrite hargs hcoherent.areas exhausted_spaceOk settled_neat.noEmpty
  obtain ⟨-, hnoreplace, -⟩ := @Vm.errorAtomic_iff settled.vm settled.heap _ _ protWrite hargs
    hcoherent.areas hcoherent.space settled_neat.noEmpty
  have hstarved : ¬ Starved exhausted.vm 0x2000 0x4000 exhausted.heap := by
    rintro ⟨-, ⟨b, hb⟩, -⟩
    cases hb
  refine ⟨exists_of_failsWith hfree (by decide +kernel),
    exists_of_failsWith (hmovable _ _) (by decide +kernel),
    ⟨hstarved, exists_of_failsWith (hoverwrite.mpr hstarved) (by decide +kernel)⟩,
    exists_of_failsWith hnoreplace (by decide +kernel)⟩

/-- A range without access is reserved, one block is left and no page is free. -/
def depleted : VmState where
  vm := reserved.vm
  heap := blank.heap.setPool vmAreaClass [⟨⟨0x2000, aligned_page2⟩, 32⟩] ⟨1, 2⟩

lemma depleted_starved : Starved depleted.vm 0x2000 0x1000 depleted.heap where
  inside := ⟨_, List.mem_cons_self, by decide, by decide⟩
  block := ⟨_, Heap.setPool_pools_self blank.heap _ _ _⟩
  pages := rfl
  unmapped := by
    rintro ⟨va, -, -, hmapped⟩
    exact hmapped (userLookup_blank [] _ va)

lemma depleted_wellFormed : WellFormed depleted.vm.first := by
  refine ⟨fun area harea => ?_, List.pairwise_singleton _ _⟩
  rw [List.mem_singleton.mp harea]
  exact ⟨by decide, by decide, by decide, by decide, by decide⟩

/-- The middle of the reserved range is to be replaced: the call fails and splits the area. -/
theorem overwrite_notAtomic : WellFormed depleted.vm.first ∧
    SpaceOk depleted.vm.pageMap depleted.heap.pmm ∧ VmArgs 0x2000 0x1000 ∧
    ∃ out, depleted.vm.allocFixedOverwrite 0x2000 0x1000 0 depleted.heap = .ok out ∧
      out.1 = .error .ENOMEM ∧ out.2.1 ≠ depleted.vm.first := by
  have hargs : VmArgs 0x2000 0x1000 := ⟨by decide, by decide, by decide, by decide⟩
  have hs : SpaceOk depleted.vm.pageMap depleted.heap.pmm := blank_initial.space
  refine ⟨depleted_wellFormed, hs, hargs, ?_⟩
  obtain ⟨areas, heap', hout, hareas⟩ :=
    depleted_starved.fails hargs depleted_wellFormed hs (noEmptyTables_blank [] _)
  exact ⟨_, hout, rfl, hareas⟩

end VmState

end Fluke
