import Fluke.Mem.Pmm
import Mathlib.Order.CompletePartialOrder

/-!
# Kernel blocks

Blocks of ten size classes, `8 * 2 ^ c` bytes each. A pool holds the free blocks of a class; an
empty pool is refilled by cutting a page into blocks. What the blocks hold is not kept: their
owners are modelled as records of their own.

The pools and the free pages are lists here. The pointers in free blocks and pages that make up
these lists, and the bytes that blocks are filled with, are in `Fluke.Mem.AllocLinks`;
`HeapRun.Spells.step` says that the pointers spell the lists after every call.
-/

namespace Fluke

open Outcome

/-- `ALLOC_MAX` -/
abbrev allocMax : ℕ := pageSize

/-- `alloc_calc_size_class`; the count of leading zeroes of a non-zero `x` is `63 - log2 x`. -/
def allocCalcSizeClass (allocation : ℕ) : ℤ :=
  if allocation < 8 then 0
  else if allocation > allocMax then -1
  else 61 - (63 - Nat.log2 (allocation - 1) : ℤ)

/-- The size of a block of a class: `8 << size_class` -/
def blockSize (sizeClass : Fin 10) : ℕ := 8 <<< sizeClass.val

/-- A block, by its page and its place in the page. -/
structure Block where
  page : Frame
  offset : ℕ
  deriving DecidableEq

/-- `struct Pool_data` -/
structure PoolData where
  freeCount : ℕ
  totalCount : ℕ

/-- The physical pages, with `pools` and `stats` -/
structure Heap where
  pmm : Pmm
  pools : Fin 10 → List Block
  stats : Fin 10 → PoolData

/-- Replace one pool and its counts. -/
def Heap.setPool (s : Heap) (c : Fin 10) (pool : List Block) (data : PoolData) : Heap :=
  { s with
    pools := Function.update s.pools c pool
    stats := Function.update s.stats c data }

@[simp] lemma Heap.setPool_pools_self (heap : Heap) (c : Fin 10) (pool : List Block)
    (data : PoolData) : (heap.setPool c pool data).pools c = pool := by
  simp [Heap.setPool]

lemma Heap.setPool_pools_of_ne (heap : Heap) {c c' : Fin 10} (pool : List Block)
    (data : PoolData) (h : c' ≠ c) : (heap.setPool c pool data).pools c' = heap.pools c' := by
  simp [Heap.setPool, h]

/-- `entry_count` -/
def entryCount (c : Fin 10) : ℕ := (pageSize / 8) >>> c.val

/-- The offsets `size, 2 * size, …` below `PAGE_SIZE`, as the loop visits them. -/
def freshOffsets (c : Fin 10) : List ℕ :=
  (List.range' 1 (entryCount c - 1)).map fun i => i * blockSize c

/-- `alloc_from_fresh_page`; each entry is put in front of the last. -/
def allocFromFreshPage (c : Fin 10) (s : Heap) : Except Panic (Option Block × Heap) := do
  assert (s.pools c).isEmpty .poolEmpty
  match ← allocPage s.pmm with
  | (none, pmm) => .ok (none, { s with pmm := pmm })
  | (some page, pmm) =>
    let last := ((freshOffsets c).map fun offset => Block.mk page offset).reverse
    let data := s.stats c
    .ok (some ⟨page, 0⟩, { s with pmm := pmm }.setPool c last
      ⟨data.freeCount + (entryCount c - 1), data.totalCount + entryCount c⟩)

/-- A size class, checked: `assert(0 <= size_class && size_class < 10)` -/
def checkSizeClass (sizeClass : ℤ) : Except Panic (Fin 10) :=
  if h : 0 ≤ sizeClass ∧ sizeClass < 10 then .ok ⟨sizeClass.toNat, by omega⟩
  else .error (.assertion .sizeClass)

/-- `kalloc_class` -/
def kallocClass (sizeClass : ℤ) (s : Heap) : Except Panic (Option Block × Heap) := do
  let c ← checkSizeClass sizeClass
  match s.pools c with
  | entry :: next =>
    let data := s.stats c
    .ok (some entry, s.setPool c next { data with freeCount := data.freeCount - 1 })
  | [] => allocFromFreshPage c s

/-- `kfree_class`; a block is never null. -/
def kfreeClass (ptr : Block) (sizeClass : ℤ) (s : Heap) : Except Panic Heap := do
  let c ← checkSizeClass sizeClass
  let data := s.stats c
  .ok (s.setPool c (ptr :: s.pools c) { data with freeCount := data.freeCount + 1 })

/-- `kalloc` -/
def kalloc (size : ℕ) (s : Heap) : Except Panic (Option Block × Heap) :=
  kallocClass (allocCalcSizeClass size) s

/-- `kfree` -/
def kfree (ptr : Block) (size : ℕ) (s : Heap) : Except Panic Heap :=
  kfreeClass ptr (allocCalcSizeClass size) s

lemma checkSizeClass_fin (c : Fin 10) : checkSizeClass c = .ok c := by
  unfold checkSizeClass
  rw [dif_pos (by omega)]
  rfl

lemma checkSizeClass_eq_ok {sizeClass : ℤ} {c : Fin 10} (h : checkSizeClass sizeClass = .ok c) :
    sizeClass = c := by
  unfold checkSizeClass at h
  split_ifs at h with hc
  cases h
  show sizeClass = (sizeClass.toNat : ℤ)
  omega

/-- The class of a size that `kalloc` serves holds blocks of at least that size. -/
lemma allocCalcSizeClass_spec {size : ℕ} (h : size ≤ allocMax) :
    ∃ c : Fin 10, allocCalcSizeClass size = c ∧ size ≤ blockSize c := by
  simp only [allocMax, pageSize] at h
  unfold allocCalcSizeClass
  split_ifs with h1 h2
  · refine ⟨0, rfl, ?_⟩
    show size ≤ 8
    omega
  · simp only [allocMax, pageSize] at h2
    omega
  · have hne : size - 1 ≠ 0 := by omega
    have hlo : 2 ≤ Nat.log2 (size - 1) := (Nat.le_log2 hne).mpr (by omega)
    have hhi : Nat.log2 (size - 1) < 12 := (Nat.log2_lt hne).mpr (by omega)
    have hlt : size - 1 < 2 ^ (Nat.log2 (size - 1) + 1) := Nat.lt_log2_self
    refine ⟨⟨Nat.log2 (size - 1) - 2, by omega⟩, ?_, ?_⟩
    · show _ = ((Nat.log2 (size - 1) - 2 : ℕ) : ℤ)
      omega
    · show size ≤ 8 <<< (Nat.log2 (size - 1) - 2)
      have hpow : 8 * 2 ^ (Nat.log2 (size - 1) - 2) = 2 ^ (Nat.log2 (size - 1) + 1) := by
        rw [show (8 : ℕ) = 2 ^ 3 by norm_num, ← pow_add]
        congr 1
        omega
      rw [Nat.shiftLeft_eq, hpow]
      omega

/-! ### What block allocation does to the pages -/

/-- Pages may have left the free list; nothing else is written to. -/
structure HeapStep (s s' : Heap) : Prop where
  counted : s'.pmm.Counted
  suffix : s'.pmm.freeList <:+ s.pmm.freeList
  length : s.pmm.freeList.length ≤ s'.pmm.freeList.length + 1
  memory : ∀ g ∉ s.pmm.freeList, s'.pmm.memory g = s.pmm.memory g

lemma HeapStep.refl {s : Heap} (h : s.pmm.Counted) : HeapStep s s :=
  ⟨h, List.suffix_rfl, Nat.le_succ _, fun _ _ => rfl⟩

lemma allocFromFreshPage_spec {s : Heap} (h : s.pmm.Counted) {c : Fin 10}
    (hpool : s.pools c = []) :
    Ensures (fun _ => False) (fun r => HeapStep s r.2) (allocFromFreshPage c s) := by
  unfold allocFromFreshPage
  rw [hpool]
  rcases allocPage_eq h with ⟨-, heq⟩ | ⟨page, next, hfree, heq⟩
  · rw [heq]
    exact HeapStep.refl h
  · rw [heq]
    refine ⟨rfl, ?_, ?_, fun g hg => ?_⟩
    · rw [hfree]
      exact List.suffix_cons page next
    · rw [hfree]
      exact le_rfl
    · refine Pmm.setPage_of_ne _ _ fun heq => hg ?_
      rw [heq, hfree]
      exact List.mem_cons_self

/-- Blocks of a fixed class can always be asked for. -/
lemma kallocClass_spec {s : Heap} (h : s.pmm.Counted) (c : Fin 10) :
    Ensures (fun _ => False) (fun r => HeapStep s r.2) (kallocClass c s) := by
  unfold kallocClass
  rw [checkSizeClass_fin, ok_bind]
  cases hpool : s.pools c with
  | nil => exact allocFromFreshPage_spec h hpool
  | cons entry next => exact ⟨h, List.suffix_rfl, Nat.le_succ _, fun _ _ => rfl⟩

lemma kfreeClass_spec (ptr : Block) (c : Fin 10) (s : Heap) :
    Ensures (fun _ => False) (fun s' => s'.pmm = s.pmm) (kfreeClass ptr c s) := by
  unfold kfreeClass
  rw [checkSizeClass_fin, ok_bind]
  rfl

lemma kalloc_spec {size : ℕ} (hsize : size ≤ allocMax) {s : Heap} (h : s.pmm.Counted) :
    Ensures (fun _ => False) (fun r => HeapStep s r.2) (kalloc size s) := by
  obtain ⟨c, hc, -⟩ := allocCalcSizeClass_spec hsize
  rw [kalloc, hc]
  exact kallocClass_spec h c

/-- Without a block of its class and without a page, a request fails and changes nothing. -/
lemma kalloc_of_none {size : ℕ} {c : Fin 10} (hsize : allocCalcSizeClass size = c) {s : Heap}
    (hpool : s.pools c = []) (hfree : s.pmm.freeList = []) :
    kalloc size s = .ok (none, s) := by
  rw [kalloc, hsize, kallocClass, checkSizeClass_fin, ok_bind, hpool]
  dsimp only
  rw [allocFromFreshPage, hpool, allocPage, hfree]
  rfl

/-- Otherwise it is served. -/
lemma kalloc_cases {size : ℕ} {c : Fin 10} (hsize : allocCalcSizeClass size = c) {s : Heap}
    (h : s.pmm.Counted) :
    (s.pools c = [] ∧ s.pmm.freeList = []) ∧ kalloc size s = .ok (none, s) ∨
      ∃ block heap, kalloc size s = .ok (some block, heap) := by
  cases hpool : s.pools c with
  | cons block next =>
    right
    rw [kalloc, hsize, kallocClass, checkSizeClass_fin, ok_bind, hpool]
    exact ⟨_, _, rfl⟩
  | nil =>
    rcases allocPage_eq h with ⟨hfree, -⟩ | ⟨page, next, -, heq⟩
    · exact Or.inl ⟨⟨rfl, hfree⟩, kalloc_of_none hsize hpool hfree⟩
    · right
      rw [kalloc, hsize, kallocClass, checkSizeClass_fin, ok_bind, hpool]
      dsimp only
      rw [allocFromFreshPage, hpool, heq]
      exact ⟨_, _, rfl⟩

lemma kfree_spec {size : ℕ} (hsize : size ≤ allocMax) (ptr : Block) (s : Heap) :
    Ensures (fun _ => False) (fun s' => s'.pmm = s.pmm) (kfree ptr size s) := by
  obtain ⟨c, hc, -⟩ := allocCalcSizeClass_spec hsize
  rw [kfree, hc]
  exact kfreeClass_spec ptr c s

/-! ### The blocks of a page -/

lemma entryCount_mul_blockSize : ∀ c : Fin 10, entryCount c * blockSize c = pageSize := by decide

lemma blockSize_pos : ∀ c : Fin 10, 0 < blockSize c := by decide

lemma entryCount_pos : ∀ c : Fin 10, 0 < entryCount c := by decide

/-- All blocks that a page of a class is cut into. -/
def blocksOf (c : Fin 10) (page : Frame) : Multiset Block :=
  (Multiset.range (entryCount c)).map fun i => ⟨page, i * blockSize c⟩

lemma mem_blocksOf {c : Fin 10} {page : Frame} {b : Block} :
    b ∈ blocksOf c page ↔ b.page = page ∧ ∃ i < entryCount c, b.offset = i * blockSize c := by
  unfold blocksOf
  simp only [Multiset.mem_map, Multiset.mem_range]
  constructor
  · rintro ⟨i, hi, rfl⟩
    exact ⟨rfl, i, hi, rfl⟩
  · rintro ⟨rfl, i, hi, hoffset⟩
    exact ⟨i, hi, by cases b; simp_all⟩

lemma nodup_blocksOf (c : Fin 10) (page : Frame) : (blocksOf c page).Nodup := by
  refine (Multiset.nodup_range _).map fun i j h => ?_
  exact Nat.eq_of_mul_eq_mul_right (blockSize_pos c) (Block.mk.inj h).2

/-- A fresh page: its first block is handed out, the others make up the pool. -/
lemma blocksOf_eq (c : Fin 10) (page : Frame) : blocksOf c page = ⟨page, 0⟩ ::ₘ
    (((freshOffsets c).map fun offset => Block.mk page offset).reverse : Multiset Block) := by
  obtain ⟨n, hn⟩ := Nat.exists_eq_add_one_of_ne_zero (entryCount_pos c).ne'
  have hrange : List.range (n + 1) = 0 :: List.range' 1 n := by
    rw [List.range_eq_range', List.range'_succ]
  unfold blocksOf freshOffsets
  rw [hn, Multiset.coe_reverse, Multiset.cons_coe, Multiset.range, hrange, Multiset.map_coe]
  simp only [Nat.add_sub_cancel, List.map_cons, List.map_map, Nat.zero_mul]
  rfl

/-! ### Everything that is handed out -/

/-- The heap, the pages and the blocks in use. -/
structure AllocState where
  heap : Heap
  pages : Multiset Frame
  blocks : Multiset (Fin 10 × Block)

/-- The four operations of the two allocators. -/
inductive AllocOp where
  | allocPage
  | freePage (page : Frame)
  | kallocClass (sizeClass : ℤ)
  | kfreeClass (c : Fin 10) (ptr : Block)

/-- One operation, and what is in use after it. -/
def AllocState.step : AllocOp → AllocState → Except Panic AllocState
  | .allocPage, s => do
    let (page, pmm) ← allocPage s.heap.pmm
    .ok { s with
      heap := { s.heap with pmm := pmm }
      pages := (page.toList : Multiset Frame) + s.pages }
  | .freePage page, s =>
    .ok { s with
      heap := { s.heap with pmm := freePage page s.heap.pmm }
      pages := s.pages.erase page }
  | .kallocClass sizeClass, s => do
    let c ← checkSizeClass sizeClass
    let (ptr, heap) ← kallocClass sizeClass s.heap
    .ok { s with heap := heap, blocks := (ptr.toList.map fun b => (c, b) : List _) + s.blocks }
  | .kfreeClass c ptr, s => do
    let heap ← kfreeClass ptr c s.heap
    .ok { s with heap := heap, blocks := s.blocks.erase (c, ptr) }

/-- What is given back is in use, and a block goes back under its own class. -/
def AllocState.Admits : AllocOp → AllocState → Prop
  | .freePage page, s => page ∈ s.pages
  | .kfreeClass c ptr, s => (c, ptr) ∈ s.blocks
  | _, _ => True

/-- The blocks of a class among those in use. -/
def ofClass (blocks : Multiset (Fin 10 × Block)) (c : Fin 10) : Multiset Block :=
  (blocks.filter fun b => b.1 = c).map Prod.snd

/-- The blocks of a class in use. -/
abbrev AllocState.live (s : AllocState) (c : Fin 10) : Multiset Block := ofClass s.blocks c

lemma ofClass_cons_self (c : Fin 10) (b : Block) (blocks : Multiset (Fin 10 × Block)) :
    ofClass ((c, b) ::ₘ blocks) c = b ::ₘ ofClass blocks c := by
  simp [ofClass]

lemma ofClass_cons_of_ne {c c' : Fin 10} (h : c' ≠ c) (b : Block)
    (blocks : Multiset (Fin 10 × Block)) :
    ofClass ((c, b) ::ₘ blocks) c' = ofClass blocks c' := by
  simp [ofClass, h.symm]

/-- Every page of the start is free, in use, or cut into blocks, and every block of such a page
is in its pool or in use. -/
structure AllocState.Ok (start : Multiset Frame) (s : AllocState)
    (taken : Fin 10 → Multiset Frame) : Prop where
  pages : (s.heap.pmm.freeList : Multiset Frame) + s.pages + ∑ c, taken c = start
  blocks : ∀ c, (s.heap.pools c : Multiset Block) + s.live c = (taken c).bind (blocksOf c)
  counted : s.heap.pmm.Counted
  total : s.heap.pmm.totalCount = start.card
  stats : ∀ c, (s.heap.stats c).freeCount = (s.heap.pools c).length
  statsTotal : ∀ c, (s.heap.stats c).totalCount = entryCount c * (taken c).card

namespace AllocState

variable {start : Multiset Frame} {s s' : AllocState} {taken : Fin 10 → Multiset Frame}

/-- A page changes hands between the free list and those who asked for it. -/
lemma Ok.of_pages (h : s.Ok start taken) {pmm : Pmm} {pages : Multiset Frame}
    (hpages : (pmm.freeList : Multiset Frame) + pages = s.heap.pmm.freeList + s.pages)
    (hcounted : pmm.Counted) (htotal : pmm.totalCount = s.heap.pmm.totalCount) :
    AllocState.Ok start { s with heap := { s.heap with pmm := pmm }, pages := pages } taken where
  pages := by
    rw [← h.pages]
    exact congrArg (· + ∑ c, taken c) hpages
  blocks := h.blocks
  counted := hcounted
  total := htotal.trans h.total
  stats := h.stats
  statsTotal := h.statsTotal

/-- A block changes hands between its pool and those who asked for it. -/
lemma Ok.of_blocks (h : s.Ok start taken) {c : Fin 10} {pool : List Block}
    {blocks : Multiset (Fin 10 × Block)}
    (hself : (pool : Multiset Block) + ofClass blocks c = s.heap.pools c + s.live c)
    (hother : ∀ c', c' ≠ c → ofClass blocks c' = s.live c') :
    AllocState.Ok start { s with
      heap := s.heap.setPool c pool { s.heap.stats c with freeCount := pool.length }
      blocks := blocks } taken where
  pages := h.pages
  blocks c' := by
    rw [← h.blocks c']
    by_cases hc : c' = c
    · subst hc
      simpa [Heap.setPool] using hself
    · simp [Heap.setPool, hc, hother c' hc]
  counted := h.counted
  total := h.total
  stats c' := by
    by_cases hc : c' = c
    · subst hc
      simp [Heap.setPool]
    · simp [Heap.setPool, hc, h.stats c']
  statsTotal c' := by
    rw [← h.statsTotal c']
    by_cases hc : c' = c
    · subst hc
      simp [Heap.setPool]
    · simp [Heap.setPool, hc]

/-- A page is cut into blocks of class `c`. -/
lemma Ok.of_fresh (h : s.Ok start taken) {c : Fin 10} {page : Frame} {pmm : Pmm}
    (hpool : s.heap.pools c = []) (hpages : s.heap.pmm.freeList = page :: pmm.freeList)
    (hcounted : pmm.Counted) (htotal : pmm.totalCount = s.heap.pmm.totalCount) :
    AllocState.Ok start { s with
      heap := { s.heap with pmm := pmm }.setPool c
        ((freshOffsets c).map fun offset => Block.mk page offset).reverse
        ⟨(s.heap.stats c).freeCount + (entryCount c - 1),
          (s.heap.stats c).totalCount + entryCount c⟩
      blocks := (c, ⟨page, 0⟩) ::ₘ s.blocks }
      (Function.update taken c (page ::ₘ taken c)) where
  pages := by
    have hsum : ∑ c', Function.update taken c (page ::ₘ taken c) c' = page ::ₘ ∑ c', taken c' := by
      rw [Finset.sum_update_of_mem (Finset.mem_univ c), Multiset.cons_add,
        ← Finset.add_sum_erase Finset.univ taken (Finset.mem_univ c),
        Finset.sdiff_singleton_eq_erase]
    rw [hsum, ← h.pages, hpages, ← Multiset.cons_coe]
    simp only [Heap.setPool, Multiset.cons_add, Multiset.add_cons]
  blocks c' := by
    by_cases hc : c' = c
    · subst hc
      have hold := h.blocks c'
      rw [hpool, Multiset.coe_nil, zero_add] at hold
      simp only [Heap.setPool, AllocState.live, Function.update_self, Multiset.cons_bind,
        ofClass_cons_self, hold, blocksOf_eq, Multiset.cons_add, Multiset.add_cons]
    · simp only [Heap.setPool, AllocState.live, Function.update_of_ne hc, ofClass_cons_of_ne hc]
      exact h.blocks c'
  counted := hcounted
  total := htotal.trans h.total
  stats c' := by
    by_cases hc : c' = c
    · subst hc
      have hold := h.stats c'
      rw [hpool] at hold
      simp [Heap.setPool, hold, freshOffsets]
    · simp [Heap.setPool, hc, h.stats c']
  statsTotal c' := by
    by_cases hc : c' = c
    · subst hc
      simp [Heap.setPool, h.statsTotal c', Nat.mul_add]
    · simp [Heap.setPool, hc, h.statsTotal c']

/-- `alloc_page` leaves the page count alone. -/
lemma allocPage_step (h : s.Ok start taken)
    (hstep : AllocState.step .allocPage s = .ok s') : s'.Ok start taken := by
  obtain ⟨⟨page, pmm⟩, halloc, hs'⟩ := bind_eq_ok.mp hstep
  cases hs'
  rcases allocPage_eq h.counted with ⟨-, heq⟩ | ⟨page', next, hfree, heq⟩
  · rw [heq] at halloc
    cases halloc
    exact h.of_pages (by simp) h.counted rfl
  · rw [heq] at halloc
    cases halloc
    refine h.of_pages ?_ rfl rfl
    rw [hfree, ← Multiset.cons_coe]
    show (next : Multiset Frame) + ({page'} + s.pages) = _
    rw [Multiset.singleton_add, Multiset.add_cons, Multiset.cons_add]

lemma freePage_step (h : s.Ok start taken) {page : Frame} (hpage : page ∈ s.pages)
    (hstep : AllocState.step (.freePage page) s = .ok s') : s'.Ok start taken := by
  cases hstep
  refine h.of_pages ?_ (freePage_counted h.counted page) rfl
  rw [freePage_freeList, ← Multiset.cons_coe, Multiset.cons_add, ← Multiset.add_cons,
    Multiset.cons_erase hpage]

lemma kallocClass_step (h : s.Ok start taken) {sizeClass : ℤ}
    (hstep : AllocState.step (.kallocClass sizeClass) s = .ok s') :
    ∃ taken', s'.Ok start taken' := by
  obtain ⟨c, hc, hstep⟩ := bind_eq_ok.mp hstep
  obtain ⟨⟨ptr, heap⟩, halloc, hs'⟩ := bind_eq_ok.mp hstep
  cases hs'
  unfold kallocClass at halloc
  rw [hc, ok_bind] at halloc
  cases hpool : s.heap.pools c with
  | cons entry next =>
    simp only [hpool] at halloc
    cases halloc
    refine ⟨taken, ?_⟩
    have hcount : (s.heap.stats c).freeCount - 1 = next.length := by
      rw [h.stats c, hpool]
      rfl
    rw [hcount]
    refine h.of_blocks ?_ fun c' hc' => ofClass_cons_of_ne hc' entry s.blocks
    show (next : Multiset Block) + ofClass ((c, entry) ::ₘ s.blocks) c = _
    rw [ofClass_cons_self, hpool, ← Multiset.cons_coe, Multiset.cons_add, Multiset.add_cons]
  | nil =>
    simp only [hpool] at halloc
    unfold allocFromFreshPage at halloc
    rw [hpool] at halloc
    rcases allocPage_eq h.counted with ⟨-, heq⟩ | ⟨page, next, hfree, heq⟩
    · rw [heq] at halloc
      cases halloc
      exact ⟨taken, by simpa using h⟩
    · rw [heq] at halloc
      cases halloc
      exact ⟨_, h.of_fresh hpool hfree rfl rfl⟩

lemma kfreeClass_step (h : s.Ok start taken) {c : Fin 10} {ptr : Block}
    (hptr : (c, ptr) ∈ s.blocks)
    (hstep : AllocState.step (.kfreeClass c ptr) s = .ok s') : s'.Ok start taken := by
  obtain ⟨heap, hfree, hs'⟩ := bind_eq_ok.mp hstep
  cases hs'
  unfold kfreeClass at hfree
  rw [checkSizeClass_fin, ok_bind] at hfree
  cases hfree
  have hcount : (s.heap.stats c).freeCount + 1 = (ptr :: s.heap.pools c).length := by
    rw [h.stats c, List.length_cons]
  rw [hcount]
  have hblocks := Multiset.cons_erase hptr
  refine h.of_blocks ?_ fun c' hc' => ?_
  · rw [AllocState.live, ← hblocks, ofClass_cons_self, hblocks, ← Multiset.cons_coe,
      Multiset.cons_add, Multiset.add_cons]
  · rw [AllocState.live, ← hblocks, ofClass_cons_of_ne hc', hblocks]

/-- What one operation preserves. -/
lemma Ok.step (h : s.Ok start taken) {op : AllocOp} (hadmits : AllocState.Admits op s)
    (hstep : AllocState.step op s = .ok s') : ∃ taken', s'.Ok start taken' := by
  cases op with
  | allocPage => exact ⟨taken, allocPage_step h hstep⟩
  | freePage page => exact ⟨taken, freePage_step h hadmits hstep⟩
  | kallocClass sizeClass => exact kallocClass_step h hstep
  | kfreeClass c ptr => exact ⟨taken, kfreeClass_step h hadmits hstep⟩

end AllocState

/-! ### At boot -/

/-- No pages yet. -/
def Pmm.empty (memory : Frame → Page) : Pmm where
  memory := memory
  freeList := []
  freeCount := 0
  totalCount := 0

/-- Memory ranges that do not overlap and end below `2 ^ 52`. -/
structure DisjointRanges (ranges : List (Word × ℕ)) : Prop where
  bound : ∀ r ∈ ranges, r.1.toNat + r.2 ≤ 2 ^ 52
  apart : ranges.Pairwise fun r r' =>
    r.1.toNat + r.2 ≤ r'.1.toNat ∨ r'.1.toNat + r'.2 ≤ r.1.toNat

/-- After all memory ranges are added, nothing is in use. -/
structure AllocState.Initial (ranges : List (Word × ℕ)) (s : AllocState) : Prop where
  apart : DisjointRanges ranges
  added : ∃ memory, forEach (fun r pmm => pmmAddPages r.1 r.2 pmm) ranges (Pmm.empty memory) =
    .ok s.heap.pmm
  pools : ∀ c, s.heap.pools c = []
  stats : ∀ c, s.heap.stats c = ⟨0, 0⟩
  pages : s.pages = 0
  blocks : s.blocks = 0

/-- The bytes of a page. -/
def Frame.bytes (page : Frame) : Set ℕ :=
  {a | page.address.toNat ≤ a ∧ a < page.address.toNat + pageSize}

/-- A page-aligned address below `2 ^ 52` consists of address bits. -/
lemma and_tableEntryAddressMask {x : Word} (halign : x.toNat % 4096 = 0) (h : x.toNat < 2 ^ 52) :
    x &&& tableEntryAddressMask = x := by
  apply BitVec.eq_of_toNat_eq
  have hx : x.toNat = (x.toNat / 4096) <<< 12 := by
    rw [Nat.shiftLeft_eq]
    omega
  have hmask : tableEntryAddressMask.toNat = (2 ^ 40 - 1) <<< 12 := by decide
  rw [BitVec.toNat_and, hmask, hx, ← Nat.shiftLeft_and_distrib, Nat.and_two_pow_sub_one_eq_mod,
    Nat.mod_eq_of_lt (by omega)]

/-- The page of a range that starts `i` pages after its begin. -/
lemma Frame.offset_toNat {start : Word} {len i : ℕ} (halign : start.toNat % 4096 = 0)
    (hbound : start.toNat + len ≤ 2 ^ 52) (hi : i < len / 4096) :
    (Frame.offset start (i * pageSize)).address.toNat = start.toNat + i * 4096 := by
  have hsum : (start + BitVec.ofNat 64 (i * pageSize)).toNat = start.toNat + i * 4096 := by
    rw [BitVec.toNat_add, BitVec.toNat_ofNat]
    simp only [pageSize]
    omega
  show ((start + BitVec.ofNat 64 (i * pageSize)) &&& tableEntryAddressMask).toNat = _
  rw [and_tableEntryAddressMask (by rw [hsum]; omega) (by rw [hsum]; omega), hsum]

/-- The pages of one range. -/
def rangePages (r : Word × ℕ) : List Frame :=
  (List.range (r.2 / pageSize)).map fun i => Frame.offset r.1 (i * pageSize)

lemma pmmAddPages_eq_ok {r : Word × ℕ} {s s' : Pmm} (h : pmmAddPages r.1 r.2 s = .ok s') :
    r.1.toNat % 4096 = 0 ∧ s' = { s with
      freeList := s.freeList ++ rangePages r
      totalCount := s.totalCount + (rangePages r).length
      freeCount := s.freeCount + (rangePages r).length } := by
  unfold pmmAddPages at h
  obtain ⟨_, hstart, h⟩ := bind_eq_ok.mp h
  obtain ⟨_, hlength, h⟩ := bind_eq_ok.mp h
  rw [assert_eq_ok, isPageAligned_iff] at hstart
  cases h
  refine ⟨hstart, ?_⟩
  simp [rangePages]

lemma mem_rangePages {r : Word × ℕ} (halign : r.1.toNat % 4096 = 0)
    (hbound : r.1.toNat + r.2 ≤ 2 ^ 52) {page : Frame} (h : page ∈ rangePages r) :
    r.1.toNat ≤ page.address.toNat ∧ page.address.toNat + 4096 ≤ r.1.toNat + r.2 := by
  unfold rangePages at h
  obtain ⟨i, hi, rfl⟩ := List.mem_map.mp h
  rw [List.mem_range] at hi
  rw [Frame.offset_toNat halign hbound hi]
  simp only [pageSize] at hi
  omega

lemma nodup_rangePages {r : Word × ℕ} (halign : r.1.toNat % 4096 = 0)
    (hbound : r.1.toNat + r.2 ≤ 2 ^ 52) : (rangePages r).Nodup := by
  refine List.nodup_range.map_on fun i hi j hj h => ?_
  rw [List.mem_range] at hi hj
  have htoNat := congrArg (fun f : Frame => f.address.toNat) h
  simp only [Frame.offset_toNat halign hbound hi, Frame.offset_toNat halign hbound hj] at htoNat
  omega

/-- What adding all ranges leaves: their pages, all different. -/
lemma forEach_pmmAddPages {ranges : List (Word × ℕ)} (hr : DisjointRanges ranges) {s s' : Pmm}
    (h : forEach (fun r pmm => pmmAddPages r.1 r.2 pmm) ranges s = .ok s') :
    s'.freeList = s.freeList ++ ranges.flatMap rangePages ∧
      s'.freeCount = s.freeCount + (ranges.flatMap rangePages).length ∧
      s'.totalCount = s.totalCount + (ranges.flatMap rangePages).length ∧
      ∀ r ∈ ranges, r.1.toNat % 4096 = 0 := by
  induction ranges generalizing s with
  | nil =>
    cases h
    simp
  | cons r ranges ih =>
    rw [forEach_cons] at h
    obtain ⟨s₁, hadd, h⟩ := bind_eq_ok.mp h
    obtain ⟨halign, rfl⟩ := pmmAddPages_eq_ok hadd
    obtain ⟨hfree, hcount, htotal, hrest⟩ := ih
      ⟨fun r' hr' => hr.bound r' (List.mem_cons_of_mem _ hr'), (List.pairwise_cons.mp hr.apart).2⟩ h
    refine ⟨?_, ?_, ?_, ?_⟩
    · rw [hfree, List.flatMap_cons, List.append_assoc]
    · rw [hcount, List.flatMap_cons, List.length_append, Nat.add_assoc]
    · rw [htotal, List.flatMap_cons, List.length_append, Nat.add_assoc]
    · intro r' hr'
      rcases List.mem_cons.mp hr' with rfl | hr'
      · exact halign
      · exact hrest r' hr'

lemma nodup_flatMap_rangePages {ranges : List (Word × ℕ)} (hr : DisjointRanges ranges)
    (halign : ∀ r ∈ ranges, r.1.toNat % 4096 = 0) : (ranges.flatMap rangePages).Nodup := by
  rw [List.nodup_flatMap]
  refine ⟨fun r hmem => nodup_rangePages (halign r hmem) (hr.bound r hmem), ?_⟩
  refine hr.apart.imp_of_mem fun {r r'} hmem hmem' hapart page hpage hpage' => ?_
  have h1 := mem_rangePages (halign r hmem) (hr.bound r hmem) hpage
  have h2 := mem_rangePages (halign r' hmem') (hr.bound r' hmem') hpage'
  omega

namespace AllocState

variable {s₀ s : AllocState} {ranges : List (Word × ℕ)}

lemma Initial.freeList (h : s₀.Initial ranges) :
    s₀.heap.pmm.freeList = ranges.flatMap rangePages ∧ s₀.heap.pmm.freeList.Nodup ∧
      ∀ r ∈ ranges, r.1.toNat % 4096 = 0 := by
  obtain ⟨memory, hadded⟩ := h.added
  obtain ⟨hfree, -, -, halign⟩ := forEach_pmmAddPages h.apart hadded
  rw [Pmm.empty, List.nil_append] at hfree
  exact ⟨hfree, hfree ▸ nodup_flatMap_rangePages h.apart halign, halign⟩

/-- What holds before the first allocation. -/
lemma Initial.ok (h : s₀.Initial ranges) :
    s₀.Ok (s₀.heap.pmm.freeList : Multiset Frame) fun _ => 0 := by
  obtain ⟨memory, hadded⟩ := h.added
  obtain ⟨hfree, hcount, htotal, -⟩ := forEach_pmmAddPages h.apart hadded
  rw [Pmm.empty, List.nil_append] at hfree
  rw [Pmm.empty, zero_add] at hcount htotal
  refine ⟨?_, fun c => ?_, ?_, ?_, fun c => ?_, fun c => ?_⟩
  · simp [h.pages]
  · simp [h.pools c, AllocState.live, h.blocks, ofClass]
  · rw [Pmm.Counted, hcount, hfree]
  · rw [htotal, hfree, Multiset.coe_card]
  · rw [h.stats c, h.pools c]
    rfl
  · rw [h.stats c]
    rfl

end AllocState

/-! ### Where everything lies -/

lemma Frame.address_mod (page : Frame) : page.address.toNat % 4096 = 0 := by
  have hmask : tableEntryAddressMask.toNat % 2 ^ 12 = 0 := by decide
  rw [← page.aligned, BitVec.toNat_and, show (4096 : ℕ) = 2 ^ 12 by norm_num,
    Nat.and_mod_two_pow, hmask, Nat.and_zero]

/-- The address of a block. -/
def Block.address (b : Block) : ℕ := b.page.address.toNat + b.offset

/-- A page or a block, in use or free. -/
inductive Item where
  | page (p : Frame)
  | block (c : Fin 10) (b : Block)

/-- The bytes of a page, or of a block of its class. -/
def Item.bytes : Item → Set ℕ
  | .page p => p.bytes
  | .block c b => {a | b.address ≤ a ∧ a < b.address + blockSize c}

/-- The page that an item is, or lies in. -/
def Item.home : Item → Frame
  | .page p => p
  | .block _ b => b.page

/-- Everything on the free list and in the pools, and everything in use. -/
inductive AllocState.Holds (s : AllocState) : Item → Prop
  | freePage {page : Frame} (h : page ∈ s.heap.pmm.freeList) : Holds s (.page page)
  | livePage {page : Frame} (h : page ∈ s.pages) : Holds s (.page page)
  | freeBlock {c : Fin 10} {b : Block} (h : b ∈ s.heap.pools c) : Holds s (.block c b)
  | liveBlock {c : Fin 10} {b : Block} (h : b ∈ s.live c) : Holds s (.block c b)

lemma Frame.bytes_disjoint {p q : Frame} (h : p ≠ q) : Disjoint p.bytes q.bytes := by
  have hp := p.address_mod
  have hq := q.address_mod
  have hne : p.address.toNat ≠ q.address.toNat := fun heq => h (by
    cases p
    cases q
    simpa using BitVec.eq_of_toNat_eq heq)
  rw [Set.disjoint_left]
  rintro a ⟨h1, h2⟩ ⟨h3, h4⟩
  simp only [pageSize] at h2 h4
  omega

lemma block_bytes_subset {c : Fin 10} {b : Block} {page : Frame} (h : b ∈ blocksOf c page) :
    (Item.block c b).bytes ⊆ page.bytes := by
  obtain ⟨rfl, i, hi, hoffset⟩ := mem_blocksOf.mp h
  have hsize := entryCount_mul_blockSize c
  have hle : (i + 1) * blockSize c ≤ entryCount c * blockSize c := Nat.mul_le_mul_right _ hi
  rw [add_mul, one_mul, hsize] at hle
  rintro a ⟨h1, h2⟩
  unfold Block.address at h1 h2
  exact ⟨by omega, by omega⟩

/-- Two blocks of one class in one page. -/
lemma block_bytes_disjoint {c : Fin 10} {b b' : Block} {page : Frame} (h : b ∈ blocksOf c page)
    (h' : b' ∈ blocksOf c page) (hne : b ≠ b') :
    Disjoint (Item.block c b).bytes (Item.block c b').bytes := by
  obtain ⟨hpage, i, -, hi⟩ := mem_blocksOf.mp h
  obtain ⟨hpage', j, -, hj⟩ := mem_blocksOf.mp h'
  have hij : i ≠ j := by
    rintro rfl
    refine hne ?_
    cases b
    cases b'
    simp_all
  rw [Set.disjoint_left]
  rintro a ⟨h1, h2⟩ ⟨h3, h4⟩
  unfold Block.address at h1 h2 h3 h4
  rw [hpage, hi] at h1 h2
  rw [hpage', hj] at h3 h4
  rcases Nat.lt_or_gt_of_ne hij with hlt | hlt
  · have hle : (i + 1) * blockSize c ≤ j * blockSize c := Nat.mul_le_mul_right _ hlt
    rw [add_mul, one_mul] at hle
    omega
  · have hle : (j + 1) * blockSize c ≤ i * blockSize c := Nat.mul_le_mul_right _ hlt
    rw [add_mul, one_mul] at hle
    omega

lemma block_aligned {c : Fin 10} {b : Block} {page : Frame} (h : b ∈ blocksOf c page) :
    b.address % blockSize c = 0 := by
  obtain ⟨-, i, -, hoffset⟩ := mem_blocksOf.mp h
  have hdvd : blockSize c ∣ b.page.address.toNat :=
    (Dvd.intro_left _ (entryCount_mul_blockSize c)).trans
      (Nat.dvd_of_mod_eq_zero b.page.address_mod)
  refine Nat.mod_eq_zero_of_dvd ?_
  unfold Block.address
  rw [hoffset]
  exact (Nat.dvd_add_right hdvd).mpr (Dvd.intro_left i rfl)

namespace AllocState

variable {start : Multiset Frame} {s : AllocState} {taken : Fin 10 → Multiset Frame}

namespace Ok

lemma mem_blocksOf_home (h : s.Ok start taken) {c : Fin 10} {b : Block}
    (hb : s.Holds (.block c b)) : b.page ∈ taken c ∧ b ∈ blocksOf c b.page := by
  have hmem : b ∈ (s.heap.pools c : Multiset Block) + s.live c := by
    cases hb with
    | freeBlock hb => exact Multiset.mem_add.mpr (Or.inl (Multiset.mem_coe.mpr hb))
    | liveBlock hb => exact Multiset.mem_add.mpr (Or.inr hb)
  rw [h.blocks c, Multiset.mem_bind] at hmem
  obtain ⟨page, hpage, hb⟩ := hmem
  obtain ⟨rfl, -⟩ := mem_blocksOf.mp hb
  exact ⟨hpage, hb⟩

lemma bytes_subset (h : s.Ok start taken) {x : Item} (hx : s.Holds x) :
    x.bytes ⊆ x.home.bytes ∧ x.home ∈ start := by
  rw [← h.pages]
  cases x with
  | page page =>
    refine ⟨Set.Subset.refl _, Multiset.mem_add.mpr (Or.inl (Multiset.mem_add.mpr ?_))⟩
    cases hx with
    | freePage hp => exact Or.inl (Multiset.mem_coe.mpr hp)
    | livePage hp => exact Or.inr hp
  | block c b =>
    obtain ⟨hpage, hb⟩ := h.mem_blocksOf_home hx
    refine ⟨block_bytes_subset hb, Multiset.mem_add.mpr (Or.inr ?_)⟩
    rw [Multiset.mem_sum]
    exact ⟨c, Finset.mem_univ c, hpage⟩

/-- A page that is free or in use has not been cut into blocks. -/
lemma page_ne_home (h : s.Ok start taken) (hstart : start.Nodup) {page : Frame} {c : Fin 10}
    {b : Block} (hp : s.Holds (.page page)) (hb : s.Holds (.block c b)) : page ≠ b.page := by
  rintro rfl
  rw [← h.pages] at hstart
  have hdisj := (Multiset.nodup_add.mp hstart).2.2
  have hleft : b.page ∈ (s.heap.pmm.freeList : Multiset Frame) + s.pages := by
    refine Multiset.mem_add.mpr ?_
    cases hp with
    | freePage hp => exact Or.inl (Multiset.mem_coe.mpr hp)
    | livePage hp => exact Or.inr hp
  refine Multiset.disjoint_left.mp hdisj hleft ?_
  rw [Multiset.mem_sum]
  exact ⟨c, Finset.mem_univ c, (h.mem_blocksOf_home hb).1⟩

/-- A page is cut into blocks of one class only. -/
lemma class_eq (h : s.Ok start taken) (hstart : start.Nodup) {c c' : Fin 10} {page : Frame}
    (hc : page ∈ taken c) (hc' : page ∈ taken c') : c = c' := by
  by_contra hne
  rw [← h.pages] at hstart
  have hsum := (Multiset.nodup_add.mp hstart).2.1
  rw [← Finset.add_sum_erase Finset.univ taken (Finset.mem_univ c)] at hsum
  refine Multiset.disjoint_left.mp (Multiset.nodup_add.mp hsum).2.2 hc ?_
  rw [Multiset.mem_sum]
  exact ⟨c', Finset.mem_erase.mpr ⟨Ne.symm hne, Finset.mem_univ c'⟩, hc'⟩

lemma bytes_disjoint (h : s.Ok start taken) (hstart : start.Nodup) {x y : Item} (hx : s.Holds x)
    (hy : s.Holds y) (hne : x ≠ y) : Disjoint x.bytes y.bytes := by
  have hfar : x.home ≠ y.home → Disjoint x.bytes y.bytes := fun hhome =>
    Set.disjoint_of_subset (h.bytes_subset hx).1 (h.bytes_subset hy).1 (Frame.bytes_disjoint hhome)
  cases x with
  | page p =>
    cases y with
    | page q => exact hfar fun heq => hne (congrArg Item.page heq)
    | block c b => exact hfar (h.page_ne_home hstart hx hy)
  | block c b =>
    cases y with
    | page q => exact hfar (h.page_ne_home hstart hy hx).symm
    | block c' b' =>
      by_cases hhome : b.page = b'.page
      · obtain ⟨hpage, hb⟩ := h.mem_blocksOf_home hx
        obtain ⟨hpage', hb'⟩ := h.mem_blocksOf_home hy
        rw [← hhome] at hpage' hb'
        have hclass := h.class_eq hstart hpage hpage'
        subst hclass
        exact block_bytes_disjoint hb hb' fun heq => hne (congrArg (Item.block c) heq)
      · exact hfar hhome

lemma nodup (h : s.Ok start taken) (hstart : start.Nodup) :
    ((s.heap.pmm.freeList : Multiset Frame) + s.pages).Nodup ∧
      ∀ c, ((s.heap.pools c : Multiset Block) + s.live c).Nodup := by
  have hpages := hstart
  rw [← h.pages] at hpages
  refine ⟨(Multiset.nodup_add.mp hpages).1, fun c => ?_⟩
  have htaken : (taken c).Nodup := by
    have hsum := (Multiset.nodup_add.mp hpages).2.1
    rw [← Finset.add_sum_erase Finset.univ taken (Finset.mem_univ c)] at hsum
    exact (Multiset.nodup_add.mp hsum).1
  rw [h.blocks c, Multiset.nodup_bind]
  refine ⟨fun page _ => nodup_blocksOf c page, htaken.pairwise fun p _ q _ hpq => ?_⟩
  refine Multiset.disjoint_left.mpr fun {b} hb hb' => ?_
  exact hpq ((mem_blocksOf.mp hb).1.symm.trans (mem_blocksOf.mp hb').1)

/-- The counts. -/
lemma counts (h : s.Ok start taken) :
    s.heap.pmm.freeCount = s.heap.pmm.freeList.length ∧
      s.heap.pmm.totalCount = s.heap.pmm.freeCount + s.pages.card +
        ∑ c, (s.heap.stats c).totalCount / entryCount c ∧
      ∀ c, (s.heap.stats c).freeCount = (s.heap.pools c).length ∧
        (s.heap.stats c).totalCount = (s.heap.stats c).freeCount + (s.live c).card := by
  refine ⟨h.counted, ?_, fun c => ⟨h.stats c, ?_⟩⟩
  · have hcut : ∀ c, (s.heap.stats c).totalCount / entryCount c = (taken c).card := fun c => by
      rw [h.statsTotal c, Nat.mul_div_cancel_left _ (entryCount_pos c)]
    rw [h.total, ← h.pages, h.counted, Finset.sum_congr rfl fun c _ => hcut c]
    simp
  · have hcard := congrArg Multiset.card (h.blocks c)
    rw [Multiset.card_add, Multiset.coe_card, Multiset.card_bind] at hcard
    have hconst : (taken c).map (Multiset.card ∘ blocksOf c) =
        (taken c).map fun _ => entryCount c :=
      Multiset.map_congr rfl fun page _ => by simp [blocksOf]
    rw [hconst, Multiset.map_const', Multiset.sum_replicate, smul_eq_mul] at hcard
    rw [h.statsTotal c, h.stats c, hcard, Nat.mul_comm]

end Ok

end AllocState

end Fluke
