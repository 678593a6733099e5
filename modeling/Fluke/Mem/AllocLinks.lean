import Fluke.Mem.Alloc
import Fluke.Mem.PmmTail

/-!
# Blocks and their links

A free block begins with the pointer to the next block of its pool, as a free page begins with the
pointer to the next free page. Here nothing but these pointers says what is free: they lie in the
memory that is handed out, next to the blocks in use, and every block is filled when it changes
hands. The lists of `Fluke.Mem.Alloc` are what the pointers spell, in every run of calls and of
writes by the owners of pages and blocks (`Fluke.Mem.AllocRuns`).
-/

namespace Fluke

open Outcome

/-! ### Words of memory -/

namespace PmmLinks

/-- The page that a pointer leads into -/
def pageOf (ptr : Word) : Word := ptr - BitVec.ofNat 64 (ptr.toNat % pageSize)

/-- The word of its page that a pointer leads to -/
def wordOf (ptr : Word) : Fin 512 := Fin.ofNat 512 (ptr.toNat % pageSize / 8)

/-- The word behind a pointer -/
def load (s : PmmLinks) (ptr : Word) : Word := s.memory (pageOf ptr) (wordOf ptr)

/-- Overwrite the word behind a pointer. -/
def store (s : PmmLinks) (ptr value : Word) : PmmLinks :=
  s.setWord (pageOf ptr) (wordOf ptr) value

/-- `memset`, of whole words -/
def memset (s : PmmLinks) (ptr : Word) (byte : BitVec 8) (size : ℕ) : PmmLinks :=
  { s with
    memory := fun page i =>
      if ptr.toNat ≤ page.toNat + 8 * i ∧ page.toNat + 8 * i < ptr.toNat + size then
        Page.fill byte i
      else s.memory page i }

end PmmLinks

/-! ### The allocator -/

/-- The physical pages, with `pools` and `stats` -/
structure HeapLinks where
  pmm : PmmLinks
  pools : Fin 10 → Word
  stats : Fin 10 → PoolData

namespace HeapLinks

/-- Replace one pool and its counts. -/
def setPool (s : HeapLinks) (c : Fin 10) (pool : Word) (data : PoolData) : HeapLinks :=
  { s with
    pools := Function.update s.pools c pool
    stats := Function.update s.stats c data }

/-- `debug_memset` -/
def debugMemset (ptr : Word) (byte : BitVec 8) (c : Fin 10) (s : HeapLinks) : HeapLinks :=
  { s with pmm := s.pmm.memset ptr byte (blockSize c) }

/-- The loop of `alloc_from_fresh_page` over the offsets, with `last` -/
def cutLoop (page : Word) : List ℕ → Word → PmmLinks → Word × PmmLinks
  | [], last, s => (last, s)
  | offset :: offsets, last, s =>
    let entry := page + BitVec.ofNat 64 offset
    cutLoop page offsets entry (s.store entry last)

/-- `alloc_from_fresh_page` -/
def allocFromFreshPage (c : Fin 10) (s : HeapLinks) : Except Panic (Word × HeapLinks) := do
  assert (s.pools c = 0) .poolEmpty
  let (page, pmm) ← s.pmm.allocPage
  if page = 0 then .ok (0, { s with pmm := pmm })
  else
    let (last, pmm) := cutLoop page (freshOffsets c) 0 pmm
    let data := s.stats c
    let s := { s with pmm := pmm }.setPool c last
      ⟨data.freeCount + (entryCount c - 1), data.totalCount + entryCount c⟩
    .ok (page, s.debugMemset page 0xaa c)

/-- `kalloc_class`, which returns the null pointer when there is no page. -/
def kallocClass (sizeClass : ℤ) (s : HeapLinks) : Except Panic (Word × HeapLinks) := do
  let c ← checkSizeClass sizeClass
  let entry := s.pools c
  if entry ≠ 0 then
    let data := s.stats c
    let s := s.setPool c (s.pmm.load entry) { data with freeCount := data.freeCount - 1 }
    .ok (entry, s.debugMemset entry 0xbb c)
  else s.allocFromFreshPage c

/-- `kfree_class` -/
def kfreeClass (ptr : Word) (sizeClass : ℤ) (s : HeapLinks) : Except Panic HeapLinks := do
  assert (ptr ≠ 0) .blockPointer
  let c ← checkSizeClass sizeClass
  let s := s.debugMemset ptr 0xcc c
  let s := { s with pmm := s.pmm.store ptr (s.pools c) }
  let data := s.stats c
  .ok (s.setPool c ptr { data with freeCount := data.freeCount + 1 })

/-- `kalloc` -/
def kalloc (size : ℕ) (s : HeapLinks) : Except Panic (Word × HeapLinks) :=
  s.kallocClass (allocCalcSizeClass size)

end HeapLinks

/-! ### Runs -/

/-- The heap, the pages and the blocks in use -/
structure HeapRun where
  heap : HeapLinks
  pages : Multiset Word
  blocks : Multiset (Fin 10 × Word)

/-- A call, or a write of the owner of a page or a block -/
inductive HeapOp where
  | allocPage
  | freePage (page : Word)
  | kallocClass (sizeClass : ℤ)
  | kfreeClass (c : Fin 10) (ptr : Word)
  | write (ptr value : Word)

/-- One operation, and what is in use after it -/
def HeapRun.step : HeapOp → HeapRun → Except Panic HeapRun
  | .allocPage, s => do
    let (page, pmm) ← s.heap.pmm.allocPage
    .ok { s with
      heap := { s.heap with pmm := pmm }
      pages := if page = 0 then s.pages else page ::ₘ s.pages }
  | .freePage page, s => do
    let pmm ← s.heap.pmm.freePage page
    .ok { s with
      heap := { s.heap with pmm := pmm }
      pages := s.pages.erase page }
  | .kallocClass sizeClass, s => do
    let c ← checkSizeClass sizeClass
    let (ptr, heap) ← s.heap.kallocClass sizeClass
    .ok { s with
      heap := heap
      blocks := if ptr = 0 then s.blocks else (c, ptr) ::ₘ s.blocks }
  | .kfreeClass c ptr, s => do
    let heap ← s.heap.kfreeClass ptr c
    .ok { s with heap := heap, blocks := s.blocks.erase (c, ptr) }
  | .write ptr value, s =>
    .ok { s with heap := { s.heap with pmm := s.heap.pmm.store ptr value } }

/-- A page, or a block of a class, by its pointer -/
inductive Chunk where
  | page (ptr : Word)
  | block (c : Fin 10) (ptr : Word)

/-- The bytes of a page, or of a block of its class -/
def Chunk.bytes : Chunk → Set ℕ
  | .page ptr => {a | ptr.toNat ≤ a ∧ a < ptr.toNat + pageSize}
  | .block c ptr => {a | ptr.toNat ≤ a ∧ a < ptr.toNat + blockSize c}

/-- The page or the block is in use. -/
inductive HeapRun.Live (s : HeapRun) : Chunk → Prop
  | page {ptr : Word} (h : ptr ∈ s.pages) : Live s (.page ptr)
  | block {c : Fin 10} {ptr : Word} (h : (c, ptr) ∈ s.blocks) : Live s (.block c ptr)

/-- What is given back is in use, and a block goes back under its own class; an owner writes to
words of what it owns. -/
def HeapRun.Admits : HeapOp → HeapRun → Prop
  | .freePage page, s => s.Live (.page page)
  | .kfreeClass c ptr, s => s.Live (.block c ptr)
  | .write ptr _, s => ptr.toNat % 8 = 0 ∧ ∃ x, s.Live x ∧ ptr.toNat ∈ x.bytes
  | _, _ => True

/-- No pages yet; nothing is known of the memory. -/
def PmmLinks.empty (memory : Word → Page) : PmmLinks := ⟨memory, 0, 0, 0, .freeList⟩

/-- Where the kernel sees physical memory: page by page, in the upper half -/
structure SeesRanges (hhdmOffset : Word) (ranges : List (Word × ℕ)) : Prop where
  aligned : hhdmOffset.toNat % pageSize = 0
  kernel : memHighHalfMin ≤ hhdmOffset.toNat
  room : ∀ r ∈ ranges, hhdmOffset.toNat + r.1.toNat + r.2 ≤ 2 ^ 64

/-- After all memory ranges are added, nothing is in use. -/
structure HeapRun.Booted (hhdmOffset : Word) (ranges : List (Word × ℕ)) (s : HeapRun) : Prop where
  apart : DisjointRanges ranges
  sees : SeesRanges hhdmOffset ranges
  added : ∃ memory, forEach (fun r pmm => PmmLinks.addPages hhdmOffset r.1 r.2 pmm) ranges
    (PmmLinks.empty memory) = .ok s.heap.pmm
  pools : ∀ c, s.heap.pools c = 0
  stats : ∀ c, s.heap.stats c = ⟨0, 0⟩
  pages : s.pages = 0
  blocks : s.blocks = 0

/-- What the links say is free -/
structure HeapRun.FreeAre (s : HeapRun) (free : List Word) (pools : Fin 10 → List Word) :
    Prop where
  pages : s.heap.pmm.FreeIs free
  blocks : ∀ c, Chained s.heap.pmm.load (s.heap.pools c) (pools c) 0 ∧ 0 ∉ pools c

/-- The page or the block is in use, or the links say that it is free. -/
inductive HeapRun.Holds (s : HeapRun) (free : List Word) (pools : Fin 10 → List Word) :
    Chunk → Prop
  | live {x : Chunk} (h : s.Live x) : Holds s free pools x
  | freePage {ptr : Word} (h : ptr ∈ free) : Holds s free pools (.page ptr)
  | freeBlock {c : Fin 10} {ptr : Word} (h : ptr ∈ pools c) : Holds s free pools (.block c ptr)

/-- The blocks of a class in use -/
def HeapRun.live (s : HeapRun) (c : Fin 10) : Multiset Word :=
  (s.blocks.filter fun b => b.1 = c).map Prod.snd

/-- What is in use and what is free lie apart, in pages that were added. -/
structure HeapRun.Separate (hhdmOffset : Word) (ranges : List (Word × ℕ)) (s : HeapRun)
    (free : List Word) (pools : Fin 10 → List Word) : Prop where
  pagesOnce : ((free : Multiset Word) + s.pages).Nodup
  blocksOnce : ∀ c, ((pools c : Multiset Word) + s.live c).Nodup
  apart : ∀ x y, s.Holds free pools x → s.Holds free pools y → x ≠ y → Disjoint x.bytes y.bytes
  added : ∀ x, s.Holds free pools x → ∃ r ∈ ranges, ∀ a ∈ x.bytes,
    hhdmOffset.toNat + r.1.toNat ≤ a ∧ a < hhdmOffset.toNat + r.1.toNat + r.2
  aligned : ∀ c ptr, s.Holds free pools (.block c ptr) → ptr.toNat % blockSize c = 0

/-- The counts are those of the lists, and what they leave is in use. -/
structure HeapRun.Counts (s : HeapRun) (free : List Word) (pools : Fin 10 → List Word) : Prop where
  free : s.heap.pmm.freeCount = free.length
  total : s.heap.pmm.totalCount = s.heap.pmm.freeCount + s.pages.card +
    ∑ c, (s.heap.stats c).totalCount / entryCount c
  poolFree : ∀ c, (s.heap.stats c).freeCount = (pools c).length
  poolTotal : ∀ c, (s.heap.stats c).totalCount = (s.heap.stats c).freeCount + (s.live c).card

/-! ### Writing to memory -/

namespace PmmLinks

variable {s s' s'' : PmmLinks} {W W' : Set ℕ} {ptr ptr' page value e : Word} {l : List Word}

lemma pageOf_toNat (ptr : Word) : (pageOf ptr).toNat = ptr.toNat - ptr.toNat % 4096 := by
  have hlt := ptr.isLt
  have hmod : (BitVec.ofNat 64 (ptr.toNat % pageSize)).toNat = ptr.toNat % 4096 := by
    rw [BitVec.toNat_ofNat]
    simp only [pageSize]
    omega
  unfold pageOf
  rw [BitVec.toNat_sub, hmod]
  omega

lemma wordOf_val (ptr : Word) : (wordOf ptr : ℕ) = ptr.toNat % 4096 / 8 := by
  show ptr.toNat % pageSize / 8 % 512 = _
  simp only [pageSize]
  omega

/-- An aligned pointer leads to the word at its address. -/
lemma word_address (h : ptr.toNat % 8 = 0) :
    (pageOf ptr).toNat + 8 * (wordOf ptr : ℕ) = ptr.toNat := by
  rw [pageOf_toNat, wordOf_val]
  omega

/-- All that is written to are words in a set of addresses. -/
def WritesIn (W : Set ℕ) (s s' : PmmLinks) : Prop :=
  ∀ page (i : Fin 512), page.toNat + 8 * i.val ∉ W → s'.memory page i = s.memory page i

lemma WritesIn.trans (h : WritesIn W s s') (h' : WritesIn W s' s'') : WritesIn W s s'' :=
  fun page i hi => (h' page i hi).trans (h page i hi)

lemma WritesIn.mono (h : WritesIn W s s') (hW : W ⊆ W') : WritesIn W' s s' :=
  fun page i hi => h page i fun hmem => hi (hW hmem)

lemma WritesIn.load (h : WritesIn W s s') (haligned : ptr.toNat % 8 = 0) (hptr : ptr.toNat ∉ W) :
    s'.load ptr = s.load ptr := by
  refine h _ _ ?_
  rwa [word_address haligned]

lemma setPage_writesIn (s : PmmLinks) (page : Word) (contents : Page) :
    WritesIn {a | page.toNat ≤ a ∧ a < page.toNat + pageSize} s (s.setPage page contents) := by
  intro page' i hi
  have hne : page' ≠ page := by
    rintro rfl
    refine hi ⟨Nat.le_add_right _ _, ?_⟩
    have := i.isLt
    simp only [pageSize]
    omega
  simp [setPage, hne]

lemma store_writesIn (s : PmmLinks) (value : Word) (h : ptr.toNat % 8 = 0) :
    WritesIn {ptr.toNat} s (s.store ptr value) := by
  intro page i hi
  rw [Set.mem_singleton_iff, ← word_address h] at hi
  unfold store setWord setPage
  by_cases hpage : page = pageOf ptr
  · subst hpage
    have hword : i ≠ wordOf ptr := fun heq => hi (by rw [heq])
    simp [hword]
  · simp [hpage]

lemma memset_writesIn (s : PmmLinks) (ptr : Word) (byte : BitVec 8) (size : ℕ) :
    WritesIn {a | ptr.toNat ≤ a ∧ a < ptr.toNat + size} s (s.memset ptr byte size) :=
  fun _ _ hi => if_neg hi

@[simp] lemma store_load_self (s : PmmLinks) (ptr value : Word) :
    (s.store ptr value).load ptr = value := by
  simp [load, store, setWord, setPage]

lemma pageOf_page (h : page.toNat % 4096 = 0) : pageOf page = page := by
  refine BitVec.eq_of_toNat_eq ?_
  rw [pageOf_toNat, h, Nat.sub_zero]

lemma wordOf_page (h : page.toNat % 4096 = 0) : wordOf page = 0 := by
  refine Fin.ext ?_
  rw [wordOf_val, h]
  rfl

lemma load_eq_next (h : page.toNat % 4096 = 0) : s.load page = s.next page := by
  rw [load, pageOf_page h, wordOf_page h]
  rfl

lemma setWord_eq_store (h : page.toNat % 4096 = 0) :
    s.setWord page 0 value = s.store page value := by
  rw [store, pageOf_page h, wordOf_page h]

/-- Links that are not written to lead where they did. -/
lemma WritesIn.chained (h : WritesIn W s s')
    (hl : ∀ a ∈ l, a.toNat % 8 = 0 ∧ a.toNat ∉ W) (hchain : Chained s.load ptr l e) :
    Chained s'.load ptr l e :=
  hchain.congr fun a ha => h.load (hl a ha).1 (hl a ha).2

lemma chained_load_iff (hl : ∀ a ∈ l, a.toNat % 4096 = 0) :
    Chained s.load ptr l e ↔ Chained s.next ptr l e :=
  ⟨fun h => h.congr fun a ha => (load_eq_next (hl a ha)).symm,
    fun h => h.congr fun a ha => load_eq_next (hl a ha)⟩

end PmmLinks

/-- The loop links the blocks of a page, the last one first. -/
lemma HeapLinks.cutLoop_spec {page : Word} {offsets : List ℕ} :
    ∀ {s : PmmLinks} {last : Word} {l : List Word}, Chained s.load last l 0 →
      (∀ a ∈ (offsets.map fun offset => page + BitVec.ofNat 64 offset).reverse ++ l,
        a.toNat % 8 = 0) →
      ((offsets.map fun offset => page + BitVec.ofNat 64 offset).reverse ++ l).Nodup →
      Chained (cutLoop page offsets last s).2.load (cutLoop page offsets last s).1
        ((offsets.map fun offset => page + BitVec.ofNat 64 offset).reverse ++ l) 0 ∧
      PmmLinks.WritesIn {a | ∃ offset ∈ offsets, a = (page + BitVec.ofNat 64 offset).toNat} s
        (cutLoop page offsets last s).2 := by
  induction offsets with
  | nil => exact fun h _ _ => ⟨h, fun _ _ _ => rfl⟩
  | cons offset offsets ih =>
    intro s last l h haligned hnodup
    rw [List.map_cons, List.reverse_cons, List.append_assoc, List.singleton_append]
      at haligned hnodup ⊢
    have hentry := haligned (page + BitVec.ofNat 64 offset)
      (List.mem_append_right _ List.mem_cons_self)
    have hstore := s.store_writesIn last hentry
    have hfresh := (List.nodup_cons.mp (List.nodup_append.mp hnodup).2.1).1
    have hl : ∀ a ∈ l, a.toNat % 8 = 0 ∧
        a.toNat ∉ ({(page + BitVec.ofNat 64 offset).toNat} : Set ℕ) := fun a ha =>
      ⟨haligned a (List.mem_append_right _ (List.mem_cons_of_mem _ ha)), fun heq =>
        hfresh (BitVec.eq_of_toNat_eq heq ▸ ha)⟩
    have hchain : Chained (s.store (page + BitVec.ofNat 64 offset) last).load
        (page + BitVec.ofNat 64 offset) ((page + BitVec.ofNat 64 offset) :: l) 0 := by
      refine ⟨rfl, ?_⟩
      rw [PmmLinks.store_load_self]
      exact hstore.chained hl h
    obtain ⟨hcut, hwrites⟩ := ih hchain haligned hnodup
    refine ⟨hcut, (hstore.mono ?_).trans (hwrites.mono ?_)⟩
    · rintro _ rfl
      exact ⟨offset, List.mem_cons_self, rfl⟩
    · rintro a ⟨offset', hoffset, rfl⟩
      exact ⟨offset', List.mem_cons_of_mem _ hoffset, rfl⟩


/-- The loop writes to memory only. -/
lemma HeapLinks.cutLoop_fields (page : Word) (offsets : List ℕ) :
    ∀ (last : Word) (s : PmmLinks), (cutLoop page offsets last s).2 =
      { s with memory := (cutLoop page offsets last s).2.memory } := by
  induction offsets with
  | nil => exact fun _ _ => rfl
  | cons offset offsets ih => exact fun last s => ih _ _

/-! ### Pointers to pages and blocks -/

/-- `phys_to_virt` -/
def Frame.pointer (hhdmOffset : Word) (page : Frame) : Word := page.address + hhdmOffset

/-- The pointer to a block -/
def Block.pointer (hhdmOffset : Word) (b : Block) : Word :=
  b.page.pointer hhdmOffset + BitVec.ofNat 64 b.offset

/-- The physical address of a page or a block -/
def Item.address : Item → ℕ
  | .page p => p.address.toNat
  | .block _ b => b.address

/-- The pointer to a page or a block -/
def Item.pointer (hhdmOffset : Word) : Item → Word
  | .page p => p.pointer hhdmOffset
  | .block _ b => b.pointer hhdmOffset

/-- A page or a block, as the kernel sees it -/
def Item.chunk (hhdmOffset : Word) : Item → Chunk
  | .page p => .page (p.pointer hhdmOffset)
  | .block c b => .block c (b.pointer hhdmOffset)

/-- The page or the block is in use. -/
inductive AllocState.Owns (s : AllocState) : Item → Prop
  | page {page : Frame} (h : page ∈ s.pages) : Owns s (.page page)
  | block {c : Fin 10} {b : Block} (h : (c, b) ∈ s.blocks) : Owns s (.block c b)

lemma mem_ofClass {blocks : Multiset (Fin 10 × Block)} {c : Fin 10} {b : Block} :
    b ∈ ofClass blocks c ↔ (c, b) ∈ blocks := by
  unfold ofClass
  rw [Multiset.mem_map]
  constructor
  · rintro ⟨b', hb', rfl⟩
    obtain ⟨hmem, hc⟩ := Multiset.mem_filter.mp hb'
    rw [← hc]
    exact hmem
  · exact fun h => ⟨(c, b), Multiset.mem_filter.mpr ⟨h, rfl⟩, rfl⟩

lemma AllocState.Owns.holds {s : AllocState} {x : Item} (h : s.Owns x) : s.Holds x := by
  cases h with
  | page h => exact .livePage h
  | block h => exact .liveBlock (mem_ofClass.mpr h)

lemma AllocState.holds_of_mem {s : AllocState} {c : Fin 10} {b : Block}
    (h : b ∈ (s.heap.pools c : Multiset Block) + s.live c) : s.Holds (.block c b) := by
  rcases Multiset.mem_add.mp h with h | h
  · exact .freeBlock (Multiset.mem_coe.mp h)
  · exact .liveBlock h

/-- The pages are known and all different, and the kernel sees each of them. -/
structure AllocState.Mapped (hhdmOffset : Word) (start : Multiset Frame) (s : AllocState) :
    Prop where
  ok : ∃ taken, s.Ok start taken
  nodup : start.Nodup
  aligned : hhdmOffset.toNat % 4096 = 0
  kernel : memHighHalfMin ≤ hhdmOffset.toNat
  room : ∀ page ∈ start, hhdmOffset.toNat + page.address.toNat + 4096 ≤ 2 ^ 64

lemma blockSize_mod : ∀ c : Fin 10, blockSize c % 8 = 0 := by decide

lemma blockSize_dvd : ∀ c : Fin 10, blockSize c ∣ 4096 := by decide

lemma freshOffsets_spec {c : Fin 10} {offset : ℕ} (h : offset ∈ freshOffsets c) :
    offset < 4096 ∧ offset % 8 = 0 := by
  obtain ⟨i, hi, rfl⟩ := List.mem_map.mp h
  rw [List.mem_range'_1] at hi
  have hcount := entryCount_pos c
  have hsize := entryCount_mul_blockSize c
  have hlt : i * blockSize c < entryCount c * blockSize c :=
    Nat.mul_lt_mul_of_pos_right (by omega) (blockSize_pos c)
  rw [hsize] at hlt
  refine ⟨hlt, ?_⟩
  rw [Nat.mul_mod, blockSize_mod, Nat.mul_zero, Nat.zero_mod]

lemma nodup_freshOffsets (c : Fin 10) : (freshOffsets c).Nodup :=
  (List.nodup_range' 1 one_pos).map fun _ _ h => Nat.eq_of_mul_eq_mul_right (blockSize_pos c) h

namespace AllocState.Mapped

variable {hhdmOffset : Word} {start : Multiset Frame} {s s' : AllocState} {x y : Item}

lemma step (h : s.Mapped hhdmOffset start) (op : AllocOp) (hadmits : AllocState.Admits op s)
    (hstep : AllocState.step op s = .ok s') : s'.Mapped hhdmOffset start := by
  obtain ⟨taken, hok⟩ := h.ok
  exact ⟨hok.step hadmits hstep, h.nodup, h.aligned, h.kernel, h.room⟩

/-- Where an item lies in its page -/
lemma offset (h : s.Mapped hhdmOffset start) (hx : s.Holds x) :
    x.home ∈ start ∧ ∃ i < 4096, i % 8 = 0 ∧ x.address = x.home.address.toNat + i ∧
      x.pointer hhdmOffset = x.home.pointer hhdmOffset + BitVec.ofNat 64 i := by
  obtain ⟨taken, hok⟩ := h.ok
  refine ⟨(hok.bytes_subset hx).2, ?_⟩
  cases x with
  | page p => exact ⟨0, by norm_num, rfl, rfl, (BitVec.add_zero _).symm⟩
  | block c b =>
    obtain ⟨-, i, hi, hoffset⟩ := mem_blocksOf.mp (hok.mem_blocksOf_home hx).2
    refine ⟨b.offset, ?_, ?_, rfl, rfl⟩
    · have hsize := entryCount_mul_blockSize c
      have hlt : i * blockSize c < entryCount c * blockSize c :=
        Nat.mul_lt_mul_of_pos_right hi (blockSize_pos c)
      simp only [pageSize] at hsize
      omega
    · rw [hoffset, Nat.mul_mod, blockSize_mod, Nat.mul_zero, Nat.zero_mod]

lemma pointer_toNat (h : s.Mapped hhdmOffset start) (hx : s.Holds x) :
    (x.pointer hhdmOffset).toNat = hhdmOffset.toNat + x.address := by
  obtain ⟨hhome, i, hi, -, haddress, hpointer⟩ := h.offset hx
  have hroom := h.room _ hhome
  rw [hpointer, haddress, Frame.pointer, BitVec.toNat_add, BitVec.toNat_add, BitVec.toNat_ofNat]
  omega

lemma pointer_aligned (h : s.Mapped hhdmOffset start) (hx : s.Holds x) :
    (x.pointer hhdmOffset).toNat % 8 = 0 := by
  obtain ⟨-, i, -, hi, haddress, -⟩ := h.offset hx
  have hpage := x.home.address_mod
  have haligned := h.aligned
  rw [h.pointer_toNat hx, haddress]
  omega

lemma pointer_ne_zero (h : s.Mapped hhdmOffset start) (hx : s.Holds x) :
    x.pointer hhdmOffset ≠ 0 := by
  intro hzero
  have hpointer := h.pointer_toNat hx
  have hkernel := h.kernel
  rw [hzero] at hpointer
  simp only [memHighHalfMin] at hkernel
  change 0 = _ at hpointer
  omega

lemma isKernelPage (h : s.Mapped hhdmOffset start) {page : Frame} (hpage : s.Holds (.page page)) :
    IsKernelPage (page.pointer hhdmOffset) := by
  have hpointer := h.pointer_toNat hpage
  change (page.pointer hhdmOffset).toNat = hhdmOffset.toNat + page.address.toNat at hpointer
  have hkernel := h.kernel
  have haligned := h.aligned
  have hmod := page.address_mod
  refine ⟨h.pointer_ne_zero hpage, isPageAligned_iff.mpr ?_, decide_eq_true ?_⟩
  · rw [hpointer]
    omega
  · rw [hpointer]
    omega

/-- The bytes of an item, as the kernel sees them -/
lemma mem_bytes (h : s.Mapped hhdmOffset start) (hx : s.Holds x) {a : ℕ} :
    a ∈ (x.chunk hhdmOffset).bytes ↔ hhdmOffset.toNat ≤ a ∧ a - hhdmOffset.toNat ∈ x.bytes := by
  have hpointer := h.pointer_toNat hx
  cases x with
  | page p =>
    change (p.pointer hhdmOffset).toNat = hhdmOffset.toNat + p.address.toNat at hpointer
    show (p.pointer hhdmOffset).toNat ≤ a ∧ a < (p.pointer hhdmOffset).toNat + pageSize ↔
      _ ∧ p.address.toNat ≤ a - hhdmOffset.toNat ∧
        a - hhdmOffset.toNat < p.address.toNat + pageSize
    omega
  | block c b =>
    change (b.pointer hhdmOffset).toNat = hhdmOffset.toNat + b.address at hpointer
    have hsize := blockSize_pos c
    show (b.pointer hhdmOffset).toNat ≤ a ∧ a < (b.pointer hhdmOffset).toNat + blockSize c ↔
      _ ∧ b.address ≤ a - hhdmOffset.toNat ∧ a - hhdmOffset.toNat < b.address + blockSize c
    omega

lemma pointer_mem_bytes (hhdmOffset : Word) (x : Item) :
    (x.pointer hhdmOffset).toNat ∈ (x.chunk hhdmOffset).bytes := by
  cases x with
  | page p => exact ⟨le_rfl, Nat.lt_add_of_pos_right (by norm_num)⟩
  | block c b => exact ⟨le_rfl, Nat.lt_add_of_pos_right (blockSize_pos c)⟩

lemma disjoint (h : s.Mapped hhdmOffset start) (hx : s.Holds x) (hy : s.Holds y) (hne : x ≠ y) :
    Disjoint (x.chunk hhdmOffset).bytes (y.chunk hhdmOffset).bytes := by
  obtain ⟨taken, hok⟩ := h.ok
  rw [Set.disjoint_left]
  intro a ha ha'
  exact Set.disjoint_left.mp (hok.bytes_disjoint h.nodup hx hy hne) ((h.mem_bytes hx).mp ha).2
    ((h.mem_bytes hy).mp ha').2

lemma pointer_notMem (h : s.Mapped hhdmOffset start) (hx : s.Holds x) (hy : s.Holds y)
    (hne : x ≠ y) : (x.pointer hhdmOffset).toNat ∉ (y.chunk hhdmOffset).bytes :=
  Set.disjoint_left.mp (h.disjoint hx hy hne) (pointer_mem_bytes hhdmOffset x)

/-- The blocks behind the first of a page, by their pointers -/
lemma entries (h : s.Mapped hhdmOffset start) {page : Frame} (hpage : s.Holds (.page page))
    (c : Fin 10) :
    (∀ a ∈ ((freshOffsets c).map fun offset =>
        page.pointer hhdmOffset + BitVec.ofNat 64 offset).reverse ++ [], a.toNat % 8 = 0) ∧
      (((freshOffsets c).map fun offset =>
        page.pointer hhdmOffset + BitVec.ofNat 64 offset).reverse ++ []).Nodup ∧
      {a | ∃ offset ∈ freshOffsets c,
        a = (page.pointer hhdmOffset + BitVec.ofNat 64 offset).toNat} ⊆
          ((Item.page page).chunk hhdmOffset).bytes := by
  have hpointer := h.pointer_toNat hpage
  change (page.pointer hhdmOffset).toNat = hhdmOffset.toNat + page.address.toNat at hpointer
  have hroom := h.room _ (h.offset hpage).1
  change hhdmOffset.toNat + page.address.toNat + 4096 ≤ 2 ^ 64 at hroom
  have hmod := h.pointer_aligned hpage
  change (page.pointer hhdmOffset).toNat % 8 = 0 at hmod
  have hentry : ∀ offset ∈ freshOffsets c,
      (page.pointer hhdmOffset + BitVec.ofNat 64 offset).toNat =
        (page.pointer hhdmOffset).toNat + offset := fun offset hoffset => by
    have hlt := (freshOffsets_spec hoffset).1
    rw [BitVec.toNat_add, BitVec.toNat_ofNat]
    omega
  rw [List.append_nil, List.nodup_reverse]
  refine ⟨?_, ?_, ?_⟩
  · intro a ha
    obtain ⟨offset, hoffset, rfl⟩ := List.mem_map.mp (List.mem_reverse.mp ha)
    have h8 := (freshOffsets_spec hoffset).2
    rw [hentry offset hoffset]
    omega
  · refine (nodup_freshOffsets c).map_on fun i hi j hj heq => ?_
    have htoNat := congrArg BitVec.toNat heq
    rw [hentry i hi, hentry j hj] at htoNat
    omega
  · rintro a ⟨offset, hoffset, rfl⟩
    have hlt := (freshOffsets_spec hoffset).1
    rw [hentry offset hoffset]
    exact ⟨Nat.le_add_right _ _, Nat.add_lt_add_left hlt _⟩

/-- What is free is not in use. -/
lemma freePage_ne (h : s.Mapped hhdmOffset start) {page : Frame}
    (hpage : page ∈ s.heap.pmm.freeList) (hy : s.Owns y) : Item.page page ≠ y := by
  rintro rfl
  obtain ⟨taken, hok⟩ := h.ok
  cases hy with
  | page hlive =>
    exact Multiset.disjoint_left.mp (Multiset.nodup_add.mp (hok.nodup h.nodup).1).2.2
      (Multiset.mem_coe.mpr hpage) hlive

lemma freeBlock_ne (h : s.Mapped hhdmOffset start) {c : Fin 10} {b : Block}
    (hb : b ∈ s.heap.pools c) (hy : s.Owns y) : Item.block c b ≠ y := by
  rintro rfl
  obtain ⟨taken, hok⟩ := h.ok
  cases hy with
  | block hlive =>
    exact Multiset.disjoint_left.mp (Multiset.nodup_add.mp ((hok.nodup h.nodup).2 c)).2.2
      (Multiset.mem_coe.mpr hb) (mem_ofClass.mpr hlive)

end AllocState.Mapped

end Fluke
