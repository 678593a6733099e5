import Fluke.Mem.AllocLinks

/-!
# Runs of the two allocators

The links in free pages and blocks spell the lists of the abstract heap, whatever the owners of
the other pages and blocks write there. A call keeps this in two stages: a page or a block changes
hands, and then its bytes are overwritten while it belongs to somebody, so that no link is lost.
-/

namespace Fluke

open Outcome

/-! ### What the pointers spell -/

/-- The links spell the lists of the abstract heap; counts and what is in use are the same. -/
structure HeapRun.Spells (hhdmOffset : Word) (l : HeapRun) (s : AllocState) : Prop where
  free : Chained l.heap.pmm.load l.heap.pmm.freeList
    (s.heap.pmm.freeList.map (·.pointer hhdmOffset)) 0
  freeCount : l.heap.pmm.freeCount = s.heap.pmm.freeCount
  totalCount : l.heap.pmm.totalCount = s.heap.pmm.totalCount
  pools : ∀ c, Chained l.heap.pmm.load (l.heap.pools c)
    ((s.heap.pools c).map (·.pointer hhdmOffset)) 0
  stats : l.heap.stats = s.heap.stats
  pages : l.pages = s.pages.map (·.pointer hhdmOffset)
  blocks : l.blocks = s.blocks.map fun b => (b.1, b.2.pointer hhdmOffset)

namespace HeapRun.Spells

variable {hhdmOffset : Word} {start : Multiset Frame} {l l' : HeapRun} {s : AllocState} {x : Item}

lemma live_iff (h : l.Spells hhdmOffset s) {u : Chunk} :
    l.Live u ↔ ∃ x, s.Owns x ∧ x.chunk hhdmOffset = u := by
  constructor
  · intro hu
    cases hu with
    | page hp =>
      rw [h.pages, Multiset.mem_map] at hp
      obtain ⟨page, hp, rfl⟩ := hp
      exact ⟨_, .page hp, rfl⟩
    | block hb =>
      rw [h.blocks, Multiset.mem_map] at hb
      obtain ⟨⟨c, b⟩, hb, heq⟩ := hb
      cases heq
      exact ⟨_, .block hb, rfl⟩
  · rintro ⟨x, hx, rfl⟩
    cases hx with
    | page hp =>
      refine .page ?_
      rw [h.pages]
      exact Multiset.mem_map_of_mem _ hp
    | block hb =>
      refine .block ?_
      rw [h.blocks]
      exact Multiset.mem_map_of_mem (fun b => (b.1, Block.pointer hhdmOffset b.2)) hb

/-- What the owner of a page or a block writes there changes no link. -/
lemma write (h : l.Spells hhdmOffset s) (hs : s.Mapped hhdmOffset start) (hx : s.Owns x)
    {pmm : PmmLinks} (hwrites : PmmLinks.WritesIn (x.chunk hhdmOffset).bytes l.heap.pmm pmm)
    (hfields : pmm = { l.heap.pmm with memory := pmm.memory }) :
    HeapRun.Spells hhdmOffset { l with heap := { l.heap with pmm := pmm } } s where
  free := by
    have hlist : pmm.freeList = l.heap.pmm.freeList := by rw [hfields]
    show Chained pmm.load pmm.freeList _ 0
    rw [hlist]
    refine hwrites.chained (List.forall_mem_map.mpr fun page hpage => ?_) h.free
    exact ⟨hs.pointer_aligned (.freePage hpage),
      hs.pointer_notMem (.freePage hpage) hx.holds (hs.freePage_ne hpage hx)⟩
  freeCount := (congrArg PmmLinks.freeCount hfields).trans h.freeCount
  totalCount := (congrArg PmmLinks.totalCount hfields).trans h.totalCount
  pools c := by
    refine hwrites.chained (List.forall_mem_map.mpr fun b hb => ?_) (h.pools c)
    exact ⟨hs.pointer_aligned (.freeBlock hb),
      hs.pointer_notMem (.freeBlock hb) hx.holds (hs.freeBlock_ne hb hx)⟩
  stats := h.stats
  pages := h.pages
  blocks := h.blocks

/-- The links of the free pages, as `PmmLinks` follows them -/
lemma freeIs (h : l.Spells hhdmOffset s) (hs : s.Mapped hhdmOffset start) :
    l.heap.pmm.FreeIs (s.heap.pmm.freeList.map (·.pointer hhdmOffset)) := by
  refine ⟨(PmmLinks.chained_load_iff (List.forall_mem_map.mpr fun page hpage => ?_)).mp h.free, ?_⟩
  · exact isPageAligned_iff.mp (hs.isKernelPage (.freePage hpage)).aligned
  · intro hzero
    obtain ⟨page, hpage, hzero⟩ := List.mem_map.mp hzero
    exact hs.pointer_ne_zero (.freePage hpage) hzero

lemma pool_eq_zero_iff (h : l.Spells hhdmOffset s) (hs : s.Mapped hhdmOffset start) (c : Fin 10) :
    l.heap.pools c = 0 ↔ s.heap.pools c = [] := by
  have hpool := h.pools c
  cases hlist : s.heap.pools c with
  | nil =>
    rw [hlist] at hpool
    exact iff_of_true hpool rfl
  | cons b rest =>
    rw [hlist] at hpool
    refine iff_of_false ?_ (List.cons_ne_nil _ _)
    rw [hpool.1]
    have hmem : b ∈ s.heap.pools c := by
      rw [hlist]
      exact List.mem_cons_self
    exact hs.pointer_ne_zero (x := .block c b) (.freeBlock hmem)

/-! #### Pages -/

lemma allocPage_nil (h : l.Spells hhdmOffset s) (hnil : s.heap.pmm.freeList = []) :
    l.heap.pmm.allocPage = .ok (0, l.heap.pmm) := by
  have hfree := h.free
  rw [hnil, List.map_nil, Chained.nil] at hfree
  rw [PmmLinks.allocPage, if_pos hfree]

/-- `alloc_page` takes the first page of the list and fills it. -/
lemma allocPage_cons (h : l.Spells hhdmOffset s) (hs : s.Mapped hhdmOffset start) {page : Frame}
    {rest : List Frame} (hlist : s.heap.pmm.freeList = page :: rest) :
    ∃ pmm pmm', l.heap.pmm.allocPage = .ok (page.pointer hhdmOffset, pmm) ∧
      Fluke.allocPage s.heap.pmm = .ok (some page, pmm') ∧ pmm'.freeList = rest ∧
      AllocState.Mapped hhdmOffset start
        { s with heap := { s.heap with pmm := pmm' }, pages := page ::ₘ s.pages } ∧
      HeapRun.Spells hhdmOffset
        { l with
          heap := { l.heap with pmm := pmm }
          pages := page.pointer hhdmOffset ::ₘ l.pages }
        { s with heap := { s.heap with pmm := pmm' }, pages := page ::ₘ s.pages } := by
  obtain ⟨taken, hok⟩ := hs.ok
  have hmem : page ∈ s.heap.pmm.freeList := by
    rw [hlist]
    exact List.mem_cons_self
  have hpage := hs.isKernelPage (.freePage hmem)
  have hfree := h.free
  rw [hlist, List.map_cons] at hfree
  have hcount : s.heap.pmm.freeCount = rest.length + 1 := by
    rw [hok.counted, hlist, List.length_cons]
  have hpos : 0 < l.heap.pmm.freeCount := by
    rw [h.freeCount, hcount]
    exact Nat.succ_pos _
  have halloc := PmmLinks.allocPage_of_head hfree.1 hpage.ne_zero hpos
  rcases allocPage_eq hok.counted with ⟨hnil, -⟩ | ⟨page', rest', hlist', halloc'⟩
  · rw [hnil] at hlist
    cases hlist
  rw [hlist] at hlist'
  cases hlist'
  have hstep : AllocState.step .allocPage s = .ok { s with
      heap := { s.heap with
        pmm := Pmm.setPage { s.heap.pmm with freeList := rest, freeCount := rest.length } page
          (Page.fill 0xdd) }
      pages := page ::ₘ s.pages } := by
    rw [AllocState.step, halloc', ok_bind]
    rfl
  have hs' := hs.step .allocPage trivial hstep
  refine ⟨_, _, halloc, halloc', rfl, hs', ?_⟩
  -- the page is out of the list before it is filled
  have htaken : HeapRun.Spells hhdmOffset
      { l with
        heap := { l.heap with
          pmm := { l.heap.pmm with
            freeList := l.heap.pmm.next (page.pointer hhdmOffset)
            freeCount := l.heap.pmm.freeCount - 1 } }
        pages := page.pointer hhdmOffset ::ₘ l.pages }
      { s with
        heap := { s.heap with
          pmm := Pmm.setPage { s.heap.pmm with freeList := rest, freeCount := rest.length } page
            (Page.fill 0xdd) }
        pages := page ::ₘ s.pages } := by
    refine ⟨?_, ?_, h.totalCount, h.pools, h.stats, ?_, h.blocks⟩
    · show Chained l.heap.pmm.load (l.heap.pmm.next (page.pointer hhdmOffset)) _ 0
      rw [← PmmLinks.load_eq_next (isPageAligned_iff.mp hpage.aligned)]
      exact hfree.2
    · show l.heap.pmm.freeCount - 1 = rest.length
      rw [h.freeCount, hcount]
      rfl
    · show page.pointer hhdmOffset ::ₘ l.pages = _
      rw [h.pages, Multiset.map_cons]
  exact htaken.write hs' (.page (Multiset.mem_cons_self _ _))
    (PmmLinks.setPage_writesIn _ _ _) rfl

lemma allocPage (h : l.Spells hhdmOffset s) (hs : s.Mapped hhdmOffset start) :
    ∃ l' s', l.step .allocPage = .ok l' ∧ AllocState.step .allocPage s = .ok s' ∧
      l'.Spells hhdmOffset s' := by
  obtain ⟨taken, hok⟩ := hs.ok
  cases hlist : s.heap.pmm.freeList with
  | nil =>
    refine ⟨l, s, ?_, ?_, h⟩
    · rw [HeapRun.step, h.allocPage_nil hlist]
      simp
    · have halloc : Fluke.allocPage s.heap.pmm = .ok (none, s.heap.pmm) := by
        rw [Fluke.allocPage, hlist]
      rw [AllocState.step, halloc]
      simp
  | cons page rest =>
    obtain ⟨pmm, pmm', halloc, halloc', -, -, hspells⟩ := h.allocPage_cons hs hlist
    have hne := hs.pointer_ne_zero (x := .page page)
      (.freePage (by rw [hlist]; exact List.mem_cons_self))
    refine ⟨_, _, ?_, ?_, hspells⟩
    · rw [HeapRun.step, halloc, ok_bind]
      exact congrArg Except.ok (congrArg (HeapRun.mk _ · _) (if_neg hne))
    · rw [AllocState.step, halloc', ok_bind]
      rfl

/-- `free_page` fills the page and puts it in front of the list. -/
lemma freePage (h : l.Spells hhdmOffset s) (hs : s.Mapped hhdmOffset start) {page : Frame}
    (hpage : page ∈ s.pages) :
    ∃ l' s', l.step (.freePage (page.pointer hhdmOffset)) = .ok l' ∧
      AllocState.step (.freePage page) s = .ok s' ∧ l'.Spells hhdmOffset s' := by
  have hkernel := hs.isKernelPage (.livePage hpage)
  have hmod := isPageAligned_iff.mp hkernel.aligned
  have hfree := PmmLinks.freePage_of_kernel (s := l.heap.pmm) hkernel
  rw [PmmLinks.setWord_eq_store hmod] at hfree
  have hstep : l.step (.freePage (page.pointer hhdmOffset)) = .ok { l with
      heap := { l.heap with
        pmm := { (l.heap.pmm.setPage (page.pointer hhdmOffset) (Page.fill 0xee)).store
            (page.pointer hhdmOffset) l.heap.pmm.freeList with
          freeList := page.pointer hhdmOffset
          freeCount := l.heap.pmm.freeCount + 1 } }
      pages := l.pages.erase (page.pointer hhdmOffset) } := by
    rw [HeapRun.step, hfree, ok_bind]
  have hwrites : PmmLinks.WritesIn ((Item.page page).chunk hhdmOffset).bytes l.heap.pmm
      ((l.heap.pmm.setPage (page.pointer hhdmOffset) (Page.fill 0xee)).store
        (page.pointer hhdmOffset) l.heap.pmm.freeList) := by
    have hfill := l.heap.pmm.setPage_writesIn (page.pointer hhdmOffset) (Page.fill 0xee)
    refine hfill.trans ?_
    refine (PmmLinks.store_writesIn _ _ (hs.pointer_aligned (.livePage hpage))).mono ?_
    exact Set.singleton_subset_iff.mpr
      (AllocState.Mapped.pointer_mem_bytes hhdmOffset (.page page))
  -- the list is as before, and the page leads to it
  have hwritten := h.write hs (.page hpage) hwrites rfl
  refine ⟨_, _, hstep, rfl, ⟨?_, ?_, h.totalCount, hwritten.pools, h.stats, ?_, h.blocks⟩⟩
  · refine ⟨rfl, ?_⟩
    show Chained _ (PmmLinks.load (PmmLinks.store _ _ _) (page.pointer hhdmOffset)) _ 0
    rw [PmmLinks.store_load_self]
    exact hwritten.free
  · exact congrArg (· + 1) h.freeCount
  · show l.pages.erase (page.pointer hhdmOffset) = _
    rw [h.pages]
    exact (Multiset.map_erase_of_mem _ _ hpage).symm

/-! #### Blocks -/

lemma step_kallocClass {c : Fin 10} {ptr : Word} {heap : HeapLinks}
    (h : l.heap.kallocClass c = .ok (ptr, heap)) (hne : ptr ≠ 0) : l.step (.kallocClass c) =
      .ok { l with heap := heap, blocks := (c, ptr) ::ₘ l.blocks } := by
  rw [HeapRun.step, checkSizeClass_fin, ok_bind, h, ok_bind]
  exact congrArg Except.ok (congrArg (HeapRun.mk _ _) (if_neg hne))

/-- A block is taken from its pool and filled. -/
lemma kallocClass_cons (h : l.Spells hhdmOffset s) (hs : s.Mapped hhdmOffset start) {c : Fin 10}
    {b : Block} {rest : List Block} (hpool : s.heap.pools c = b :: rest) :
    ∃ heap l' s', l.heap.kallocClass c = .ok (b.pointer hhdmOffset, heap) ∧
      l.step (.kallocClass c) = .ok l' ∧ AllocState.step (.kallocClass c) s = .ok s' ∧
      l'.Spells hhdmOffset s' := by
  have hmem : b ∈ s.heap.pools c := by
    rw [hpool]
    exact List.mem_cons_self
  have hne := hs.pointer_ne_zero (x := .block c b) (.freeBlock hmem)
  have hlinks := h.pools c
  rw [hpool, List.map_cons] at hlinks
  have halloc : l.heap.kallocClass c = .ok (b.pointer hhdmOffset,
      (l.heap.setPool c (l.heap.pmm.load (b.pointer hhdmOffset))
        { l.heap.stats c with freeCount := (l.heap.stats c).freeCount - 1 }).debugMemset
          (b.pointer hhdmOffset) 0xbb c) := by
    rw [HeapLinks.kallocClass, checkSizeClass_fin, ok_bind, hlinks.1]
    exact if_pos hne
  have halloc' : Fluke.kallocClass c s.heap = .ok (some b, s.heap.setPool c rest
      { s.heap.stats c with freeCount := (s.heap.stats c).freeCount - 1 }) := by
    rw [Fluke.kallocClass, checkSizeClass_fin, ok_bind, hpool]
  have hstep' : AllocState.step (.kallocClass c) s = .ok { s with
      heap := s.heap.setPool c rest
        { s.heap.stats c with freeCount := (s.heap.stats c).freeCount - 1 }
      blocks := (c, b) ::ₘ s.blocks } := by
    rw [AllocState.step, checkSizeClass_fin, ok_bind, halloc', ok_bind]
    rfl
  have hs' := hs.step (.kallocClass c) trivial hstep'
  refine ⟨_, _, _, halloc, step_kallocClass halloc hne, hstep', ?_⟩
  -- the block is out of its pool before it is filled
  have htaken : HeapRun.Spells hhdmOffset
      { l with
        heap := l.heap.setPool c (l.heap.pmm.load (b.pointer hhdmOffset))
          { l.heap.stats c with freeCount := (l.heap.stats c).freeCount - 1 }
        blocks := (c, b.pointer hhdmOffset) ::ₘ l.blocks }
      { s with
        heap := s.heap.setPool c rest
          { s.heap.stats c with freeCount := (s.heap.stats c).freeCount - 1 }
        blocks := (c, b) ::ₘ s.blocks } := by
    refine ⟨h.free, h.freeCount, h.totalCount, fun c' => ?_, ?_, h.pages, ?_⟩
    · by_cases hc : c' = c
      · subst hc
        simpa [HeapLinks.setPool, Heap.setPool] using hlinks.2
      · simpa [HeapLinks.setPool, Heap.setPool, hc] using h.pools c'
    · simp [HeapLinks.setPool, Heap.setPool, h.stats]
    · show (c, b.pointer hhdmOffset) ::ₘ l.blocks = _
      rw [h.blocks, Multiset.map_cons]
  exact htaken.write hs' (.block (Multiset.mem_cons_self _ _))
    (PmmLinks.memset_writesIn _ _ _ _) rfl

/-- A fresh page is taken and cut into blocks; the first of them is filled. -/
lemma kallocClass_fresh (h : l.Spells hhdmOffset s) (hs : s.Mapped hhdmOffset start) {c : Fin 10}
    (hpool : s.heap.pools c = []) {page : Frame} {rest : List Frame}
    (hlist : s.heap.pmm.freeList = page :: rest) :
    ∃ heap l' s', l.heap.kallocClass c = .ok (page.pointer hhdmOffset, heap) ∧
      l.step (.kallocClass c) = .ok l' ∧ AllocState.step (.kallocClass c) s = .ok s' ∧
      l'.Spells hhdmOffset s' := by
  obtain ⟨pmm, pmm', halloc, halloc', -, hs₁, h₁⟩ := h.allocPage_cons hs hlist
  have hmem : page ∈ s.heap.pmm.freeList := by
    rw [hlist]
    exact List.mem_cons_self
  have hne := hs.pointer_ne_zero (x := .page page) (.freePage hmem)
  have hempty : assert (l.heap.pools c = 0) .poolEmpty = .ok () :=
    assert_eq_ok.mpr (decide_eq_true ((h.pool_eq_zero_iff hs c).mpr hpool))
  have hlast := hs.entries (.freePage hmem) c
  obtain ⟨hcut, hwrites⟩ := @HeapLinks.cutLoop_spec (page.pointer hhdmOffset) (freshOffsets c) pmm
    0 [] rfl hlast.1 hlast.2.1
  -- the links are written while the page is still a page
  have h₂ := h₁.write hs₁ (.page (Multiset.mem_cons_self _ _)) (hwrites.mono hlast.2.2)
    (HeapLinks.cutLoop_fields _ _ _ _)
  have hfresh : l.heap.kallocClass c = .ok (page.pointer hhdmOffset, HeapLinks.debugMemset
      (page.pointer hhdmOffset) 0xaa c (HeapLinks.setPool
        { l.heap with
          pmm := (HeapLinks.cutLoop (page.pointer hhdmOffset) (freshOffsets c) 0 pmm).2 }
        c (HeapLinks.cutLoop (page.pointer hhdmOffset) (freshOffsets c) 0 pmm).1
        ⟨(l.heap.stats c).freeCount + (entryCount c - 1),
          (l.heap.stats c).totalCount + entryCount c⟩)) := by
    rw [HeapLinks.kallocClass, checkSizeClass_fin, ok_bind]
    refine (if_neg (not_not.mpr ((h.pool_eq_zero_iff hs c).mpr hpool))).trans ?_
    rw [HeapLinks.allocFromFreshPage, hempty, ok_bind, halloc, ok_bind]
    exact if_neg hne
  have hfresh' : Fluke.kallocClass c s.heap = .ok (some ⟨page, 0⟩, Heap.setPool
      { s.heap with pmm := pmm' } c
      ((freshOffsets c).map fun offset => Block.mk page offset).reverse
      ⟨(s.heap.stats c).freeCount + (entryCount c - 1),
        (s.heap.stats c).totalCount + entryCount c⟩) := by
    rw [Fluke.kallocClass, checkSizeClass_fin, ok_bind, hpool]
    dsimp only
    rw [Fluke.allocFromFreshPage, hpool, halloc']
    rfl
  have hstep' : AllocState.step (.kallocClass c) s = .ok { s with
      heap := Heap.setPool { s.heap with pmm := pmm' } c
        ((freshOffsets c).map fun offset => Block.mk page offset).reverse
        ⟨(s.heap.stats c).freeCount + (entryCount c - 1),
          (s.heap.stats c).totalCount + entryCount c⟩
      blocks := (c, ⟨page, 0⟩) ::ₘ s.blocks } := by
    rw [AllocState.step, checkSizeClass_fin, ok_bind, hfresh', ok_bind]
    rfl
  have hs' := hs.step (.kallocClass c) trivial hstep'
  have hfirst : (Block.mk page 0).pointer hhdmOffset = page.pointer hhdmOffset := BitVec.add_zero _
  refine ⟨_, _, _, hfresh, step_kallocClass hfresh hne, hstep', ?_⟩
  have htaken : HeapRun.Spells hhdmOffset
      { l with
        heap := HeapLinks.setPool
          { l.heap with
            pmm := (HeapLinks.cutLoop (page.pointer hhdmOffset) (freshOffsets c) 0 pmm).2 }
          c (HeapLinks.cutLoop (page.pointer hhdmOffset) (freshOffsets c) 0 pmm).1
          ⟨(l.heap.stats c).freeCount + (entryCount c - 1),
            (l.heap.stats c).totalCount + entryCount c⟩
        blocks := (c, page.pointer hhdmOffset) ::ₘ l.blocks }
      { s with
        heap := Heap.setPool { s.heap with pmm := pmm' } c
          ((freshOffsets c).map fun offset => Block.mk page offset).reverse
          ⟨(s.heap.stats c).freeCount + (entryCount c - 1),
            (s.heap.stats c).totalCount + entryCount c⟩
        blocks := (c, ⟨page, 0⟩) ::ₘ s.blocks } := by
    refine ⟨h₂.free, h₂.freeCount, h₂.totalCount, fun c' => ?_, ?_, h.pages, ?_⟩
    · by_cases hc : c' = c
      · subst hc
        simp only [HeapLinks.setPool, Heap.setPool, Function.update_self, List.map_reverse,
          List.map_map]
        rw [List.append_nil] at hcut
        exact hcut
      · simp only [HeapLinks.setPool, Heap.setPool, Function.update_of_ne hc]
        exact h₂.pools c'
    · simp [HeapLinks.setPool, Heap.setPool, h.stats]
    · show (c, page.pointer hhdmOffset) ::ₘ l.blocks = _
      rw [h.blocks, Multiset.map_cons, hfirst]
  refine htaken.write (x := .block c ⟨page, 0⟩) hs' (.block (Multiset.mem_cons_self _ _)) ?_ rfl
  rw [Item.chunk, hfirst]
  exact PmmLinks.memset_writesIn _ _ _ _

lemma kallocClass_nil (h : l.Spells hhdmOffset s) (hs : s.Mapped hhdmOffset start) {c : Fin 10}
    (hpool : s.heap.pools c = []) (hlist : s.heap.pmm.freeList = []) :
    l.heap.kallocClass c = .ok (0, l.heap) ∧ l.step (.kallocClass c) = .ok l ∧
      AllocState.step (.kallocClass c) s = .ok s := by
  have hzero := (h.pool_eq_zero_iff hs c).mpr hpool
  have hempty : assert (l.heap.pools c = 0) .poolEmpty = .ok () :=
    assert_eq_ok.mpr (decide_eq_true hzero)
  have hnone : l.heap.kallocClass c = .ok (0, l.heap) := by
    rw [HeapLinks.kallocClass, checkSizeClass_fin, ok_bind]
    refine (if_neg (not_not.mpr hzero)).trans ?_
    rw [HeapLinks.allocFromFreshPage, hempty, ok_bind, h.allocPage_nil hlist, ok_bind]
    exact if_pos rfl
  have hnone' : Fluke.kallocClass c s.heap = .ok (none, s.heap) := by
    rw [Fluke.kallocClass, checkSizeClass_fin, ok_bind, hpool]
    dsimp only
    rw [Fluke.allocFromFreshPage, hpool, Fluke.allocPage, hlist]
    rfl
  refine ⟨hnone, ?_, ?_⟩
  · rw [HeapRun.step, checkSizeClass_fin, ok_bind, hnone, ok_bind]
    exact congrArg Except.ok (congrArg (HeapRun.mk _ _) (if_pos rfl))
  · rw [AllocState.step, checkSizeClass_fin, ok_bind, hnone', ok_bind]
    simp

/-- `kalloc_class` never stops, and returns the null pointer only when there is no page. -/
lemma kallocClass (h : l.Spells hhdmOffset s) (hs : s.Mapped hhdmOffset start) (c : Fin 10) :
    (∃ r, l.heap.kallocClass c = .ok r ∧ (r.1 = 0 → s.heap.pmm.freeList = [])) ∧
    ∃ l' s', l.step (.kallocClass c) = .ok l' ∧ AllocState.step (.kallocClass c) s = .ok s' ∧
      l'.Spells hhdmOffset s' := by
  cases hpool : s.heap.pools c with
  | cons b rest =>
    obtain ⟨heap, l', s', halloc, hstep, hstep', hspells⟩ := h.kallocClass_cons hs hpool
    have hne := hs.pointer_ne_zero (x := .block c b)
      (.freeBlock (by rw [hpool]; exact List.mem_cons_self))
    exact ⟨⟨_, halloc, fun hzero => absurd hzero hne⟩, l', s', hstep, hstep', hspells⟩
  | nil =>
    cases hlist : s.heap.pmm.freeList with
    | cons page rest =>
      obtain ⟨heap, l', s', halloc, hstep, hstep', hspells⟩ := h.kallocClass_fresh hs hpool hlist
      have hne := hs.pointer_ne_zero (x := .page page)
        (.freePage (by rw [hlist]; exact List.mem_cons_self))
      exact ⟨⟨_, halloc, fun hzero => absurd hzero hne⟩, l', s', hstep, hstep', hspells⟩
    | nil =>
      obtain ⟨halloc, hstep, hstep'⟩ := h.kallocClass_nil hs hpool hlist
      exact ⟨⟨_, halloc, fun _ => rfl⟩, l, s, hstep, hstep', h⟩

/-- `kfree_class` fills the block and puts it in front of its pool. -/
lemma kfreeClass (h : l.Spells hhdmOffset s) (hs : s.Mapped hhdmOffset start) {c : Fin 10}
    {b : Block} (hb : (c, b) ∈ s.blocks) :
    ∃ l' s', l.step (.kfreeClass c (b.pointer hhdmOffset)) = .ok l' ∧
      AllocState.step (.kfreeClass c b) s = .ok s' ∧ l'.Spells hhdmOffset s' := by
  have hlive : s.Holds (.block c b) := .liveBlock (mem_ofClass.mpr hb)
  have hne : assert (b.pointer hhdmOffset ≠ 0) .blockPointer = .ok () :=
    assert_eq_ok.mpr (decide_eq_true (hs.pointer_ne_zero hlive))
  have hstep : l.step (.kfreeClass c (b.pointer hhdmOffset)) = .ok { l with
      heap := HeapLinks.setPool
        { l.heap with
          pmm := (l.heap.pmm.memset (b.pointer hhdmOffset) 0xcc (blockSize c)).store
            (b.pointer hhdmOffset) (l.heap.pools c) }
        c (b.pointer hhdmOffset)
        { l.heap.stats c with freeCount := (l.heap.stats c).freeCount + 1 }
      blocks := l.blocks.erase (c, b.pointer hhdmOffset) } := by
    rw [HeapRun.step, HeapLinks.kfreeClass, hne, ok_bind, checkSizeClass_fin, ok_bind]
    rfl
  have hstep' : AllocState.step (.kfreeClass c b) s = .ok { s with
      heap := s.heap.setPool c (b :: s.heap.pools c)
        { s.heap.stats c with freeCount := (s.heap.stats c).freeCount + 1 }
      blocks := s.blocks.erase (c, b) } := by
    rw [AllocState.step, Fluke.kfreeClass, checkSizeClass_fin, ok_bind]
    rfl
  have hwrites : PmmLinks.WritesIn ((Item.block c b).chunk hhdmOffset).bytes l.heap.pmm
      ((l.heap.pmm.memset (b.pointer hhdmOffset) 0xcc (blockSize c)).store
        (b.pointer hhdmOffset) (l.heap.pools c)) := by
    have hfill := l.heap.pmm.memset_writesIn (b.pointer hhdmOffset) 0xcc (blockSize c)
    refine hfill.trans ?_
    refine (PmmLinks.store_writesIn _ _ (hs.pointer_aligned hlive)).mono ?_
    exact Set.singleton_subset_iff.mpr
      (AllocState.Mapped.pointer_mem_bytes hhdmOffset (.block c b))
  have hwritten := h.write hs (.block hb) hwrites rfl
  refine ⟨_, _, hstep, hstep', ⟨hwritten.free, h.freeCount, h.totalCount, fun c' => ?_, ?_, h.pages,
    ?_⟩⟩
  · by_cases hc : c' = c
    · subst hc
      simp only [HeapLinks.setPool, Heap.setPool, Function.update_self, List.map_cons]
      refine ⟨rfl, ?_⟩
      rw [PmmLinks.store_load_self]
      exact hwritten.pools c'
    · simp only [HeapLinks.setPool, Heap.setPool, Function.update_of_ne hc]
      exact hwritten.pools c'
  · simp [HeapLinks.setPool, Heap.setPool, h.stats]
  · show l.blocks.erase (c, b.pointer hhdmOffset) = _
    rw [h.blocks]
    exact (Multiset.map_erase_of_mem (fun b => (b.1, Block.pointer hhdmOffset b.2)) _ hb).symm

end HeapRun.Spells

/-! ### Every run -/

namespace HeapRun

variable {hhdmOffset : Word} {ranges : List (Word × ℕ)} {start : Multiset Frame} {l l' : HeapRun}
  {s : AllocState}

/-- Every step keeps what the links spell. -/
lemma Spells.step (h : l.Spells hhdmOffset s) (hs : s.Mapped hhdmOffset start) {op : HeapOp}
    (hadmits : l.Admits op) (hstep : l.step op = .ok l') :
    ∃ s', l'.Spells hhdmOffset s' ∧ s'.Mapped hhdmOffset start := by
  cases op with
  | allocPage =>
    obtain ⟨l'', s', hstep', habstract, hspells⟩ := h.allocPage hs
    rw [hstep, Except.ok.injEq] at hstep'
    exact ⟨s', hstep' ▸ hspells, hs.step .allocPage trivial habstract⟩
  | freePage page =>
    obtain ⟨x, hx, heq⟩ := h.live_iff.mp hadmits
    cases hx with
    | block => cases heq
    | page hpage =>
      cases heq
      obtain ⟨l'', s', hstep', habstract, hspells⟩ := h.freePage hs hpage
      rw [hstep, Except.ok.injEq] at hstep'
      exact ⟨s', hstep' ▸ hspells, hs.step (.freePage _) hpage habstract⟩
  | kallocClass sizeClass =>
    obtain ⟨c, hc, -⟩ := bind_eq_ok.mp hstep
    obtain rfl := checkSizeClass_eq_ok hc
    obtain ⟨-, l'', s', hstep', habstract, hspells⟩ := h.kallocClass hs c
    rw [hstep, Except.ok.injEq] at hstep'
    exact ⟨s', hstep' ▸ hspells, hs.step (.kallocClass c) trivial habstract⟩
  | kfreeClass c ptr =>
    obtain ⟨x, hx, heq⟩ := h.live_iff.mp hadmits
    cases hx with
    | page => cases heq
    | block hb =>
      cases heq
      obtain ⟨l'', s', hstep', habstract, hspells⟩ := h.kfreeClass hs hb
      rw [hstep, Except.ok.injEq] at hstep'
      exact ⟨s', hstep' ▸ hspells, hs.step (.kfreeClass _ _) hb habstract⟩
  | write ptr value =>
    obtain ⟨haligned, u, hu, hptr⟩ := hadmits
    obtain ⟨x, hx, rfl⟩ := h.live_iff.mp hu
    cases hstep
    have hwrites := (l.heap.pmm.store_writesIn value haligned).mono
      (Set.singleton_subset_iff.mpr hptr)
    exact ⟨s, h.write hs hx hwrites rfl, hs⟩

end HeapRun

/-! ### At boot -/

lemma Frame.pointer_toNat (hhdmOffset : Word) {page : Frame}
    (hroom : hhdmOffset.toNat + page.address.toNat + 4096 ≤ 2 ^ 64) :
    (page.pointer hhdmOffset).toNat = hhdmOffset.toNat + page.address.toNat := by
  rw [Frame.pointer, BitVec.toNat_add]
  omega

lemma Frame.pointer_injective (hhdmOffset : Word) :
    Function.Injective (Frame.pointer hhdmOffset) := by
  intro p q h
  have haddress : p.address = q.address := (BitVec.add_left_inj hhdmOffset).mp h
  cases p
  cases q
  cases haddress
  rfl

/-- The pages of a range, by their frames and by their pointers -/
lemma PmmLinks.rangePages_eq (hhdmOffset : Word) {r : Word × ℕ} (halign : r.1.toNat % 4096 = 0)
    (hbound : r.1.toNat + r.2 ≤ 2 ^ 52) :
    rangePages hhdmOffset r.1 r.2 = (Fluke.rangePages r).map (·.pointer hhdmOffset) := by
  unfold rangePages Fluke.rangePages
  rw [List.map_map]
  refine List.map_congr_left fun i hi => ?_
  have htoNat := Frame.offset_toNat halign hbound (List.mem_range.mp hi)
  have hsum : (r.1 + BitVec.ofNat 64 (i * pageSize)).toNat = r.1.toNat + i * 4096 := by
    rw [List.mem_range] at hi
    simp only [pageSize] at hi
    rw [BitVec.toNat_add, BitVec.toNat_ofNat]
    simp only [pageSize]
    omega
  exact congrArg (· + hhdmOffset) (BitVec.eq_of_toNat_eq (hsum.trans htoNat.symm))

/-- The links of the free pages spell the list, and `tail` points to its end. -/
structure PmmLinks.SpellsPages (hhdmOffset : Word) (p : PmmLinks) (q : Pmm) : Prop where
  free : p.FreeIs (q.freeList.map (·.pointer hhdmOffset))
  tail : p.TailAt (q.freeList.map (·.pointer hhdmOffset))
  freeCount : p.freeCount = q.freeCount
  totalCount : p.totalCount = q.totalCount

lemma PmmLinks.addPages_aligned {hhdmOffset start : Word} {length : ℕ} {p p' : PmmLinks}
    (h : p.addPages hhdmOffset start length = .ok p') :
    isPageAligned start.toNat ∧ isPageAligned length := by
  obtain ⟨_, hstart, h⟩ := bind_eq_ok.mp h
  obtain ⟨_, hlength, -⟩ := bind_eq_ok.mp h
  exact ⟨assert_eq_ok.mp hstart, assert_eq_ok.mp hlength⟩

/-- `pmm_add_pages` through its pointer appends to the list. -/
lemma PmmLinks.SpellsPages.addPages {hhdmOffset : Word} {p p' : PmmLinks} {q : Pmm}
    (h : p.SpellsPages hhdmOffset q) {r : Word × ℕ} (hbound : r.1.toNat + r.2 ≤ 2 ^ 52)
    (hroom : hhdmOffset.toNat + r.1.toNat + r.2 ≤ 2 ^ 64) (hkernel : 0 < hhdmOffset.toNat)
    (hnodup : (q.freeList ++ Fluke.rangePages r).Nodup)
    (hadd : p.addPages hhdmOffset r.1 r.2 = .ok p') :
    ∃ q', pmmAddPages r.1 r.2 q = .ok q' ∧ q'.freeList = q.freeList ++ Fluke.rangePages r ∧
      p'.SpellsPages hhdmOffset q' := by
  obtain ⟨hstart, hlength⟩ := addPages_aligned hadd
  have halign := isPageAligned_iff.mp hstart
  have hpages := rangePages_eq hhdmOffset halign hbound
  have hzero : 0 ∉ rangePages hhdmOffset r.1 r.2 := by
    rw [hpages]
    intro hmem
    obtain ⟨page, hpage, hzero⟩ := List.mem_map.mp hmem
    have hbounds := mem_rangePages halign hbound hpage
    have htoNat := @Frame.pointer_toNat hhdmOffset page (by omega)
    rw [hzero] at htoNat
    change 0 = _ at htoNat
    omega
  have hnodup' :
      (q.freeList.map (·.pointer hhdmOffset) ++ rangePages hhdmOffset r.1 r.2).Nodup := by
    rw [hpages, ← List.map_append]
    exact hnodup.map (Frame.pointer_injective hhdmOffset)
  obtain ⟨p'', hadd', hfree, htail, hcount, htotal, -⟩ :=
    addPages_spec h.free h.tail hstart hlength hnodup' hzero
  rw [hadd, Except.ok.injEq] at hadd'
  subst hadd'
  have hadd'' : pmmAddPages r.1 r.2 q = .ok { q with
      freeList := q.freeList ++ Fluke.rangePages r
      totalCount := q.totalCount + r.2 / pageSize
      freeCount := q.freeCount + r.2 / pageSize } := by
    have hstart' : assert (isPageAligned r.1.toNat) .pageAligned = .ok () :=
      assert_eq_ok.mpr hstart
    have hlength' : assert (isPageAligned r.2) .pageAligned = .ok () := assert_eq_ok.mpr hlength
    rw [pmmAddPages, hstart', ok_bind, hlength', ok_bind]
    rfl
  have hlen : (rangePages hhdmOffset r.1 r.2).length = r.2 / pageSize := by
    rw [rangePages, List.length_map, List.length_range]
  rw [hlen] at hcount htotal
  rw [hpages, ← List.map_append] at hfree htail
  refine ⟨_, hadd'', rfl, hfree, htail, ?_, ?_⟩
  · rw [hcount, h.freeCount]
  · rw [htotal, h.totalCount]

/-- So do any number of calls. -/
lemma PmmLinks.SpellsPages.forEach_addPages {hhdmOffset : Word} (hkernel : 0 < hhdmOffset.toNat)
    {ranges : List (Word × ℕ)} (hbound : ∀ r ∈ ranges, r.1.toNat + r.2 ≤ 2 ^ 52)
    (hroom : ∀ r ∈ ranges, hhdmOffset.toNat + r.1.toNat + r.2 ≤ 2 ^ 64) :
    ∀ {p p' : PmmLinks} {q : Pmm}, p.SpellsPages hhdmOffset q →
      (q.freeList ++ ranges.flatMap Fluke.rangePages).Nodup →
      forEach (fun r pmm => PmmLinks.addPages hhdmOffset r.1 r.2 pmm) ranges p = .ok p' →
      ∃ q', forEach (fun r pmm => pmmAddPages r.1 r.2 pmm) ranges q = .ok q' ∧
        p'.SpellsPages hhdmOffset q' := by
  induction ranges with
  | nil =>
    intro p p' q h _ hadd
    cases hadd
    exact ⟨q, rfl, h⟩
  | cons r ranges ih =>
    intro p p' q h hnodup hadd
    obtain ⟨p₁, hfirst, hrest⟩ := bind_eq_ok.mp hadd
    rw [List.flatMap_cons, ← List.append_assoc] at hnodup
    obtain ⟨q₁, hfirst', hlist, h₁⟩ := h.addPages (hbound r List.mem_cons_self)
      (hroom r List.mem_cons_self) hkernel (List.nodup_append.mp hnodup).1 hfirst
    rw [← hlist] at hnodup
    obtain ⟨q', hrest', h'⟩ := ih (fun r' hr' => hbound r' (List.mem_cons_of_mem _ hr'))
      (fun r' hr' => hroom r' (List.mem_cons_of_mem _ hr')) h₁ hnodup hrest
    refine ⟨q', ?_, h'⟩
    rw [forEach_cons, hfirst', ok_bind]
    exact hrest'

lemma PmmLinks.forEach_aligned {hhdmOffset : Word} {ranges : List (Word × ℕ)} :
    ∀ {p p' : PmmLinks},
      forEach (fun r pmm => PmmLinks.addPages hhdmOffset r.1 r.2 pmm) ranges p = .ok p' →
      ∀ r ∈ ranges, r.1.toNat % 4096 = 0 := by
  induction ranges with
  | nil => exact fun _ _ hr => absurd hr List.not_mem_nil
  | cons r ranges ih =>
    intro p p' hadd r' hr'
    obtain ⟨p₁, hfirst, hrest⟩ := bind_eq_ok.mp hadd
    rcases List.mem_cons.mp hr' with rfl | hr'
    · exact isPageAligned_iff.mp (addPages_aligned hfirst).1
    · exact ih hrest r' hr'

namespace HeapRun

variable {hhdmOffset : Word} {ranges : List (Word × ℕ)} {l : HeapRun} {s : AllocState}

/-- What holds before the first allocation -/
lemma Booted.spells (h : l.Booted hhdmOffset ranges) :
    ∃ s : AllocState, s.Initial ranges ∧ l.Spells hhdmOffset s ∧
      s.Mapped hhdmOffset (s.heap.pmm.freeList : Multiset Frame) := by
  obtain ⟨memory, hadded⟩ := h.added
  have hkernel := h.sees.kernel
  simp only [memHighHalfMin] at hkernel
  have hempty : (PmmLinks.empty memory).SpellsPages hhdmOffset (Pmm.empty fun _ => Page.fill 0) :=
    ⟨⟨rfl, List.not_mem_nil⟩, rfl, rfl, rfl⟩
  have hnodup := nodup_flatMap_rangePages h.apart (PmmLinks.forEach_aligned hadded)
  obtain ⟨q, hq, hpages⟩ := hempty.forEach_addPages (by omega) h.apart.bound h.sees.room hnodup
    hadded
  have hinitial : AllocState.Initial ranges ⟨⟨q, fun _ => [], fun _ => ⟨0, 0⟩⟩, 0, 0⟩ :=
    ⟨h.apart, ⟨_, hq⟩, fun _ => rfl, fun _ => rfl, rfl, rfl⟩
  obtain ⟨hlist, hnodup', halign⟩ := hinitial.freeList
  have hroom : ∀ page ∈ q.freeList, hhdmOffset.toNat + page.address.toNat + 4096 ≤ 2 ^ 64 := by
    intro page hpage
    change q.freeList = _ at hlist
    rw [hlist, List.mem_flatMap] at hpage
    obtain ⟨r, hr, hpage⟩ := hpage
    have hbounds := mem_rangePages (halign r hr) (h.apart.bound r hr) hpage
    have hroom := h.sees.room r hr
    omega
  have haligned := h.sees.aligned
  simp only [pageSize] at haligned
  have hmapped : AllocState.Mapped hhdmOffset (q.freeList : Multiset Frame)
      ⟨⟨q, fun _ => [], fun _ => ⟨0, 0⟩⟩, 0, 0⟩ :=
    ⟨⟨_, hinitial.ok⟩, hnodup', haligned, h.sees.kernel, hroom⟩
  refine ⟨_, hinitial, ⟨?_, hpages.freeCount, hpages.totalCount, fun c => ?_, funext h.stats, ?_,
    ?_⟩, hmapped⟩
  · refine (PmmLinks.chained_load_iff (List.forall_mem_map.mpr fun page hpage => ?_)).mpr
      hpages.free.1
    exact isPageAligned_iff.mp (hmapped.isKernelPage (.freePage hpage)).aligned
  · exact h.pools c
  · rw [h.pages]
    rfl
  · rw [h.blocks]
    rfl

/-! ### What the links say -/

lemma Spells.live_eq (h : l.Spells hhdmOffset s) (c : Fin 10) :
    l.live c = (s.live c).map (·.pointer hhdmOffset) := by
  unfold HeapRun.live AllocState.live ofClass
  rw [h.blocks, Multiset.filter_map, Multiset.map_map, Multiset.map_map]
  rfl

lemma Spells.holds (h : l.Spells hhdmOffset s) {u : Chunk}
    (hu : l.Holds (s.heap.pmm.freeList.map (·.pointer hhdmOffset))
      (fun c => (s.heap.pools c).map (·.pointer hhdmOffset)) u) :
    ∃ x, s.Holds x ∧ x.chunk hhdmOffset = u := by
  cases hu with
  | live hlive =>
    obtain ⟨x, hx, rfl⟩ := h.live_iff.mp hlive
    exact ⟨x, hx.holds, rfl⟩
  | freePage hfree =>
    obtain ⟨page, hpage, rfl⟩ := List.mem_map.mp hfree
    exact ⟨_, .freePage hpage, rfl⟩
  | freeBlock hfree =>
    obtain ⟨b, hb, rfl⟩ := List.mem_map.mp hfree
    exact ⟨_, .freeBlock hb, rfl⟩

lemma Spells.freeAre {start : Multiset Frame} (h : l.Spells hhdmOffset s)
    (hs : s.Mapped hhdmOffset start) :
    l.FreeAre (s.heap.pmm.freeList.map (·.pointer hhdmOffset))
      fun c => (s.heap.pools c).map (·.pointer hhdmOffset) := by
  refine ⟨h.freeIs hs, fun c => ⟨h.pools c, fun hzero => ?_⟩⟩
  obtain ⟨b, hb, hzero⟩ := List.mem_map.mp hzero
  exact hs.pointer_ne_zero (x := .block c b) (.freeBlock hb) hzero

lemma Spells.counts {start : Multiset Frame} (h : l.Spells hhdmOffset s)
    (hs : s.Mapped hhdmOffset start) :
    l.Counts (s.heap.pmm.freeList.map (·.pointer hhdmOffset))
      fun c => (s.heap.pools c).map (·.pointer hhdmOffset) := by
  obtain ⟨taken, hok⟩ := hs.ok
  obtain ⟨hfree, htotal, hpools⟩ := hok.counts
  refine ⟨?_, ?_, fun c => ?_, fun c => ?_⟩
  · rw [h.freeCount, hfree, List.length_map]
  · rw [h.totalCount, h.freeCount, h.pages, Multiset.card_map, h.stats]
    exact htotal
  · rw [h.stats, (hpools c).1, List.length_map]
  · rw [h.stats, (hpools c).2, h.live_eq, Multiset.card_map]

lemma Spells.separate (h : l.Spells hhdmOffset s) {start : Multiset Frame}
    (hs : s.Mapped hhdmOffset start)
    (hstart : ∀ page ∈ start, ∃ r ∈ ranges,
      r.1.toNat ≤ page.address.toNat ∧ page.address.toNat + 4096 ≤ r.1.toNat + r.2) :
    HeapRun.Separate hhdmOffset ranges l (s.heap.pmm.freeList.map (·.pointer hhdmOffset))
      fun c => (s.heap.pools c).map (·.pointer hhdmOffset) := by
  obtain ⟨taken, hok⟩ := hs.ok
  obtain ⟨hpages, hblocks⟩ := hok.nodup hs.nodup
  refine ⟨?_, fun c => ?_, ?_, ?_, ?_⟩
  · rw [h.pages, ← Multiset.map_coe, ← Multiset.map_add]
    exact hpages.map (Frame.pointer_injective hhdmOffset)
  · rw [h.live_eq, ← Multiset.map_coe, ← Multiset.map_add]
    refine (hblocks c).map_on fun b hb b' hb' heq => ?_
    by_contra hne
    have hx := AllocState.holds_of_mem hb
    have hx' := AllocState.holds_of_mem hb'
    refine hs.pointer_notMem hx hx' (fun hitem => hne (Item.block.inj hitem).2) ?_
    rw [Item.pointer, heq]
    exact AllocState.Mapped.pointer_mem_bytes hhdmOffset (.block c b')
  · intro u v hu hv hne
    obtain ⟨x, hx, rfl⟩ := h.holds hu
    obtain ⟨y, hy, rfl⟩ := h.holds hv
    exact hs.disjoint hx hy fun heq => hne (congrArg (Item.chunk hhdmOffset) heq)
  · intro u hu
    obtain ⟨x, hx, rfl⟩ := h.holds hu
    obtain ⟨hsub, hhome⟩ := hok.bytes_subset hx
    obtain ⟨r, hr, hlow, hhigh⟩ := hstart _ hhome
    refine ⟨r, hr, fun a ha => ?_⟩
    obtain ⟨hkernel, ha⟩ := (hs.mem_bytes hx).mp ha
    obtain ⟨h1, h2⟩ := hsub ha
    simp only [pageSize] at h2
    omega
  · intro c ptr hu
    obtain ⟨x, hx, heq⟩ := h.holds hu
    cases x with
    | page => cases heq
    | block c' b =>
      cases heq
      have hpointer := hs.pointer_toNat hx
      change (b.pointer hhdmOffset).toNat = hhdmOffset.toNat + b.address at hpointer
      rw [hpointer]
      refine Nat.mod_eq_zero_of_dvd (Nat.dvd_add ?_ ?_)
      · exact (blockSize_dvd c).trans (Nat.dvd_of_mod_eq_zero hs.aligned)
      · exact Nat.dvd_of_mod_eq_zero (block_aligned (hok.mem_blocksOf_home hx).2)

/-- What holds in every run -/
lemma spells_of_reachable
    (h : Reachable (Booted hhdmOffset ranges) (fun op l => l.Admits op) HeapRun.step l) :
    ∃ s start, l.Spells hhdmOffset s ∧ s.Mapped hhdmOffset start ∧
      ∀ page ∈ start, ∃ r ∈ ranges,
        r.1.toNat ≤ page.address.toNat ∧ page.address.toNat + 4096 ≤ r.1.toNat + r.2 := by
  refine h.invariant (I := fun l => ∃ s start, HeapRun.Spells hhdmOffset l s ∧
    s.Mapped hhdmOffset start ∧ ∀ page ∈ start, ∃ r ∈ ranges,
      r.1.toNat ≤ page.address.toNat ∧ page.address.toNat + 4096 ≤ r.1.toNat + r.2) ?_ ?_
  · intro l hl
    obtain ⟨s, hinitial, hspells, hs⟩ := hl.spells
    refine ⟨s, _, hspells, hs, fun page hpage => ?_⟩
    obtain ⟨hlist, -, halign⟩ := hinitial.freeList
    rw [Multiset.mem_coe, hlist, List.mem_flatMap] at hpage
    obtain ⟨r, hr, hpage⟩ := hpage
    exact ⟨r, hr, mem_rangePages (halign r hr) (hl.apart.bound r hr) hpage⟩
  · rintro op l l' ⟨s, start, hspells, hs, hstart⟩ hadmits hstep
    obtain ⟨s', hspells', hs'⟩ := hspells.step hs hadmits hstep
    exact ⟨s', start, hspells', hs', hstart⟩

/-- In every state of every run the links say what is free: this and what is in use do not overlap
and lie in pages that were added, a block is aligned to its size, the counts are right, and
`kalloc` answers with a block of a class that is large enough, unless there is no free page. -/
theorem alloc_disjoint
    (h : Reachable (Booted hhdmOffset ranges) (fun op l => l.Admits op) HeapRun.step l) :
    ∃ free pools, l.FreeAre free pools ∧ l.Separate hhdmOffset ranges free pools ∧
      l.Counts free pools ∧
      ∀ size ≤ allocMax, ∃ c : Fin 10, size ≤ blockSize c ∧ ∃ r,
        l.heap.kalloc size = .ok r ∧ l.heap.kallocClass c = .ok r ∧ (r.1 = 0 → free = []) := by
  obtain ⟨s, start, hspells, hs, hstart⟩ := spells_of_reachable h
  refine ⟨_, _, hspells.freeAre hs, hspells.separate hs hstart, hspells.counts hs, ?_⟩
  intro size hsize
  obtain ⟨c, hc, hle⟩ := allocCalcSizeClass_spec hsize
  obtain ⟨⟨r, halloc, hnone⟩, -⟩ := hspells.kallocClass hs c
  refine ⟨c, hle, r, ?_, halloc, fun hzero => ?_⟩
  · rw [HeapLinks.kalloc, hc, halloc]
  · rw [hnone hzero]
    rfl

/-! ### A run -/

/-- The state after an operation that returns -/
def next (l : HeapRun) (op : HeapOp) : HeapRun := (HeapRun.step op l).toOption.getD l

lemma reachable_next {hhdmOffset : Word} {ranges : List (Word × ℕ)} (op : HeapOp)
    (h : Reachable (Booted hhdmOffset ranges) (fun op l => l.Admits op) HeapRun.step l)
    (hadmits : l.Admits op) (hreturns : (HeapRun.step op l).toOption.isSome) :
    Reachable (Booted hhdmOffset ranges) (fun op l => l.Admits op) HeapRun.step (l.next op) :=
  .step op h hadmits (eq_ok_getD hreturns l)

/-- The class of blocks of half a page -/
def halfPage : Fin 10 := (Fin.last 8).castSucc

/-- Four pages in two ranges -/
def fourPages : List (Word × ℕ) := [(0x1000, 0x2000), (0x8000, 0x2000)]

/-- The machine after its memory was added -/
def machine : HeapRun where
  heap := {
    pmm := (forEach (fun r pmm => PmmLinks.addPages 0xffff800000000000 r.1 r.2 pmm) fourPages
      (PmmLinks.empty fun _ => Page.fill 0)).toOption.getD (PmmLinks.empty fun _ => Page.fill 0)
    pools := fun _ => 0
    stats := fun _ => ⟨0, 0⟩ }
  pages := 0
  blocks := 0

/-- The machine after a page was cut into two blocks, both in use, one with a number in it -/
def worked : HeapRun :=
  ((machine.next (.kallocClass 8)).next (.kallocClass 8)).next (.write 0xffff800000001808 0x1234)

/-- The machine after a page was handed out and a second page was cut -/
def busy : HeapRun := ((worked.next .allocPage).next (.kallocClass 8)).next .allocPage

/-- The machine after the first block and the first page were given back -/
def returned : HeapRun :=
  (busy.next (.kfreeClass halfPage 0xffff800000001000)).next (.freePage 0xffff800000002000)

lemma machine_booted : machine.Booted 0xffff800000000000 fourPages :=
  ⟨⟨by decide, by decide⟩, ⟨by decide, by decide, by decide⟩,
    ⟨fun _ => Page.fill 0, eq_ok_getD (by decide +kernel) (PmmLinks.empty fun _ => Page.fill 0)⟩,
    fun _ => rfl, fun _ => rfl, rfl, rfl⟩

lemma returned_reachable : Reachable (Booted 0xffff800000000000 fourPages)
    (fun op l => l.Admits op) HeapRun.step returned := by
  have hworked : Reachable (Booted 0xffff800000000000 fourPages)
      (fun op l => l.Admits op) HeapRun.step worked := by
    have hcut := reachable_next (.kallocClass 8) (.init machine_booted) trivial (by decide +kernel)
    have htwice := reachable_next (.kallocClass 8) hcut trivial (by decide +kernel)
    refine reachable_next _ htwice ⟨by decide, .block halfPage 0xffff800000001800, .block ?_, ?_⟩
      (by decide +kernel)
    · decide +kernel
    · exact ⟨by decide, by decide⟩
  have hbusy : Reachable (Booted 0xffff800000000000 fourPages)
      (fun op l => l.Admits op) HeapRun.step busy := by
    have hpage := reachable_next .allocPage hworked trivial (by decide +kernel)
    have hcut := reachable_next (.kallocClass 8) hpage trivial (by decide +kernel)
    exact reachable_next .allocPage hcut trivial (by decide +kernel)
  have hblock : busy.Live (.block halfPage 0xffff800000001000) := .block (by decide +kernel)
  have hfreed := reachable_next (.kfreeClass halfPage 0xffff800000001000) hbusy hblock
    (by decide +kernel)
  have hpage : (busy.next (.kfreeClass halfPage 0xffff800000001000)).Live
    (.page 0xffff800000002000) := .page (by decide +kernel)
  exact reachable_next (.freePage 0xffff800000002000) hfreed hpage (by decide +kernel)

/-- Two blocks and a page are in use; a page is free, and so is a block in each of two pages. -/
theorem alloc_disjoint_returned :
    returned.blocks = {(halfPage, 0xffff800000008000), (halfPage, 0xffff800000001800)} ∧
      returned.pages = {0xffff800000009000} ∧
      ∃ pools, pools halfPage = [0xffff800000001000, 0xffff800000008800] ∧
        returned.FreeAre [0xffff800000002000] pools ∧
        returned.Separate 0xffff800000000000 fourPages [0xffff800000002000] pools ∧
        returned.Counts [0xffff800000002000] pools := by
  obtain ⟨free, pools, hfree, hseparate, hcounts, -⟩ := alloc_disjoint returned_reachable
  have hpage : free = [0xffff800000002000] :=
    hfree.pages.1.unique ⟨by decide +kernel, Chained.nil.mpr (by decide +kernel)⟩ hfree.pages.2
      (by decide)
  have hpool : pools halfPage = [0xffff800000001000, 0xffff800000008800] :=
    (hfree.blocks halfPage).1.unique
      ⟨by decide +kernel, by decide +kernel, Chained.nil.mpr (by decide +kernel)⟩
      (hfree.blocks halfPage).2 (by decide)
  subst hpage
  exact ⟨by decide +kernel, by decide +kernel, pools, hpool, hfree, hseparate, hcounts⟩

end HeapRun

end Fluke
