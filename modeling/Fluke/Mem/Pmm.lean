import Fluke.Klib
import Fluke.Library.Outcome

/-!
# Physical pages

A page frame is known by its physical address, which fits the address bits of a page-table
entry. The kernel sees all of physical memory through one linear mapping, so a kernel pointer
to a page and the page's frame are one thing here.

The free list is the list of frames that `pmm.free_list` threads through the free pages; the
link word in a free page is not kept in the page's contents.
-/

namespace Fluke

open Outcome

/-- `TABLE_ENTRY_ADDRESS_MASK` -/
def tableEntryAddressMask : Word := 0x000ffffffffff000

/-- A page-aligned physical address below `2 ^ 52`. -/
structure Frame where
  address : Word
  aligned : address &&& tableEntryAddressMask = address
  deriving DecidableEq

lemma and_addressMask (word : Word) :
    word &&& tableEntryAddressMask &&& tableEntryAddressMask = word &&& tableEntryAddressMask := by
  rw [BitVec.and_assoc, BitVec.and_self]

lemma aligned_zero : (0 : Word) &&& tableEntryAddressMask = 0 := by decide

/-- The 512 words of a page. -/
abbrev Page := Fin 512 → Word

instance neZero_pageWords : NeZero 512 := ⟨by decide⟩

/-- A page filled with one byte, as `memset` leaves it. -/
def Page.fill (byte : BitVec 8) : Page :=
  fun _ => byte ++ byte ++ byte ++ byte ++ byte ++ byte ++ byte ++ byte

/-- Physical memory with `struct PMM_state` -/
structure Pmm where
  memory : Frame → Page
  freeList : List Frame
  freeCount : ℕ
  totalCount : ℕ

/-- Overwrite a whole page. -/
def Pmm.setPage (s : Pmm) (frame : Frame) (page : Page) : Pmm :=
  { s with memory := Function.update s.memory frame page }

/-- Overwrite one word of a page. -/
def Pmm.setWord (s : Pmm) (frame : Frame) (i : Fin 512) (word : Word) : Pmm :=
  s.setPage frame (Function.update (s.memory frame) i word)

@[simp] lemma Pmm.setPage_freeList (s : Pmm) (frame : Frame) (page : Page) :
    (s.setPage frame page).freeList = s.freeList := rfl

@[simp] lemma Pmm.setPage_freeCount (s : Pmm) (frame : Frame) (page : Page) :
    (s.setPage frame page).freeCount = s.freeCount := rfl

@[simp] lemma Pmm.setPage_self (s : Pmm) (frame : Frame) (page : Page) :
    (s.setPage frame page).memory frame = page := by
  simp [Pmm.setPage]

lemma Pmm.setPage_of_ne (s : Pmm) {frame frame' : Frame} (page : Page) (h : frame' ≠ frame) :
    (s.setPage frame page).memory frame' = s.memory frame' := by
  simp [Pmm.setPage, h]

@[simp] lemma Pmm.setWord_freeList (s : Pmm) (frame : Frame) (i : Fin 512) (word : Word) :
    (s.setWord frame i word).freeList = s.freeList := rfl

@[simp] lemma Pmm.setWord_freeCount (s : Pmm) (frame : Frame) (i : Fin 512) (word : Word) :
    (s.setWord frame i word).freeCount = s.freeCount := rfl

@[simp] lemma Pmm.setWord_self (s : Pmm) (frame : Frame) (i : Fin 512) (word : Word) :
    (s.setWord frame i word).memory frame i = word := by
  simp [Pmm.setWord]

lemma Pmm.setWord_of_ne (s : Pmm) (frame : Frame) {i j : Fin 512} (word : Word) (h : j ≠ i) :
    (s.setWord frame i word).memory frame j = s.memory frame j := by
  simp [Pmm.setWord, h]

lemma Pmm.setWord_of_ne_frame (s : Pmm) {frame frame' : Frame} (i : Fin 512) (word : Word)
    (h : frame' ≠ frame) : (s.setWord frame i word).memory frame' = s.memory frame' :=
  Pmm.setPage_of_ne s _ h

/-- `free_count` counts the free list. -/
def Pmm.Counted (s : Pmm) : Prop := s.freeCount = s.freeList.length

/-- The frame `i` bytes after `start`. -/
def Frame.offset (start : Word) (i : ℕ) : Frame :=
  ⟨(start + BitVec.ofNat 64 i) &&& tableEntryAddressMask, by rw [BitVec.and_assoc, BitVec.and_self]⟩

/-- `pmm_add_pages`. The kernel adds all its pages before it allocates the first one, so that
`tail` is the end of the free list. -/
def pmmAddPages (start : Word) (length : ℕ) (s : Pmm) : Except Panic Pmm := do
  assert (isPageAligned start.toNat) .pageAligned
  assert (isPageAligned length) .pageAligned
  let pages := (List.range (length / pageSize)).map fun i => Frame.offset start (i * pageSize)
  .ok { s with
    freeList := s.freeList ++ pages
    totalCount := s.totalCount + length / pageSize
    freeCount := s.freeCount + length / pageSize }

/-- `alloc_page` -/
def allocPage (s : Pmm) : Except Panic (Option Frame × Pmm) :=
  match s.freeList with
  | [] => .ok (none, s)
  | page :: next => do
    let s := { s with freeList := next }
    assert (s.freeCount > 0) .freeCountPositive
    let s := { s with freeCount := s.freeCount - 1 }
    .ok (some page, s.setPage page (Page.fill 0xdd))

/-- `free_page`; a frame is page-aligned and its kernel pointer is never null. -/
def freePage (page : Frame) (s : Pmm) : Pmm :=
  let s := s.setPage page (Page.fill 0xee)
  { s with freeList := page :: s.freeList, freeCount := s.freeCount + 1 }

lemma freePage_counted {s : Pmm} (h : s.Counted) (page : Frame) : (freePage page s).Counted := by
  simp only [Pmm.Counted, freePage, Pmm.setPage_freeList, Pmm.setPage_freeCount,
    List.length_cons] at h ⊢
  rw [h]

@[simp] lemma freePage_freeList (page : Frame) (s : Pmm) :
    (freePage page s).freeList = page :: s.freeList := rfl

lemma freePage_memory_of_ne {s : Pmm} {page frame : Frame} (h : frame ≠ page) :
    (freePage page s).memory frame = s.memory frame :=
  Pmm.setPage_of_ne s _ h

/-- Both answers of `alloc_page`: no free page, or the first page of the free list. -/
lemma allocPage_eq {s : Pmm} (h : s.Counted) :
    (s.freeList = [] ∧ allocPage s = .ok (none, s)) ∨
    ∃ page next, s.freeList = page :: next ∧
      allocPage s = .ok (some page,
        Pmm.setPage { s with freeList := next, freeCount := next.length } page
          (Page.fill 0xdd)) := by
  unfold allocPage
  cases hs : s.freeList with
  | nil => exact Or.inl ⟨rfl, rfl⟩
  | cons page next =>
    refine Or.inr ⟨page, next, rfl, ?_⟩
    have hcount : s.freeCount = next.length + 1 := by rw [h, hs, List.length_cons]
    simp only [assert, hcount]
    rfl

end Fluke
