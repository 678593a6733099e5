import Fluke.Mem.Pmm

/-!
# Page tables

The four levels of translation tables of one address space and the functions that change them.
A table is a page of 512 entries. An entry that is present points at the next table, or at a
page when the table is a `PT`.

The recursive functions take the depth of their table (`PML4` is 4, `PT` is 1) and a range of
virtual addresses inside the part of the address space that the table translates. They visit
the entries whose share of the address space meets the range and hand each share, cut down to
the range, to the table below.
-/

namespace Fluke

open Outcome

/-! ### Table entries -/

namespace TableEntry

/-- `PRESENT` -/
def present : Word := 1 <<< 0
/-- `WRITE` -/
def write : Word := 1 <<< 1
/-- `USER` -/
def user : Word := 1 <<< 2
/-- `WRITE_THROUGH` -/
def writeThrough : Word := 1 <<< 3
/-- `CACHE_DISABLE` -/
def cacheDisable : Word := 1 <<< 4
/-- `NO_EXECUTE` -/
def noExecute : Word := 1 <<< 63
/-- `INTERMEDIATE` -/
def intermediate : Word := present ||| write ||| user
/-- `PS_BIT` -/
def psBit : Word := 1 <<< 7

end TableEntry

open TableEntry

/-- `*entry & PRESENT` -/
def isPresent (entry : Word) : Bool := entry &&& present != 0

/-- `entry_address_bits` -/
def entryAddressBits (page : Frame) : Word := page.address &&& tableEntryAddressMask

/-- `entry_target` -/
def entryTarget (entry : Word) : Frame :=
  ⟨entry &&& tableEntryAddressMask, and_addressMask entry⟩

/-- `enum mmu_mode` -/
abbrev MmuMode := BitVec 32

namespace MmuMode

/-- `MMU_MODE_DEFAULT` -/
def default : MmuMode := 0
/-- `MMU_MODE_EXEC` -/
def exec : MmuMode := 1 <<< 0
/-- `MMU_MODE_WRITE` -/
def write : MmuMode := 1 <<< 1
/-- `MMU_MODE_USER` -/
def user : MmuMode := 1 <<< 2

end MmuMode

/-- `enum mmu_cache` -/
abbrev MmuCache := BitVec 32

namespace MmuCache

/-- `MMU_CACHE_DEFAULT` -/
def default : MmuCache := 0
/-- `MMU_CACHE_NONE` -/
def none : MmuCache := 1 <<< 0

end MmuCache

/-- `entry_flags` -/
def entryFlags (cache : MmuCache) (mode : MmuMode) : Word :=
  let entry := present
  let entry := if mode &&& MmuMode.exec = 0 then entry ||| noExecute else entry
  let entry := if mode &&& MmuMode.user ≠ 0 then entry ||| user else entry
  let entry := if mode &&& MmuMode.write ≠ 0 then entry ||| write else entry
  if cache &&& MmuCache.none ≠ 0 then entry ||| (writeThrough ||| cacheDisable) else entry

/-! ### Depths and indices -/

/-- `PML4` -/
abbrev PML4 : ℕ := 4
/-- `PDPT` -/
abbrev PDPT : ℕ := 3
/-- `PDT` -/
abbrev PDT : ℕ := 2
/-- `PT` -/
abbrev PT : ℕ := 1

/-- `virt_shift` -/
def virtShift (depth : ℕ) : ℕ := 3 + 9 * depth

/-- `table_index` -/
def tableIndex (depth address : ℕ) : Fin 512 :=
  ⟨0x1ff &&& (address >>> virtShift depth), Nat.lt_succ_of_le Nat.and_le_left⟩

/-- `virt_to_phys`; an address that is not mapped gives 0. -/
def virtToPhys (memory : Frame → Page) (pm : Frame) (address : ℕ) : Word :=
  let entry := memory pm (tableIndex PML4 address)
  if !isPresent entry then 0 else
  let entry := memory (entryTarget entry) (tableIndex PDPT address)
  if !isPresent entry then 0 else
  if entry &&& psBit ≠ 0 then
    (entry &&& 0x000fffffc0000000) ||| (BitVec.ofNat 64 address &&& 0x3fffffff) else
  let entry := memory (entryTarget entry) (tableIndex PDT address)
  if !isPresent entry then 0 else
  if entry &&& psBit ≠ 0 then
    (entry &&& 0x000fffffffe00000) ||| (BitVec.ofNat 64 address &&& 0x1fffff) else
  let entry := memory (entryTarget entry) (tableIndex PT address)
  if !isPresent entry then 0 else
  (entry &&& 0x000ffffffffff000) ||| (BitVec.ofNat 64 address &&& 0xfff)

/-- `pointee_size`: what one entry of a table of this depth translates -/
def pointeeSize (depth : ℕ) : ℕ := 2 ^ virtShift depth

/-- `base` -/
def tableBase (depth vbegin : ℕ) : ℕ := roundDownP2 vbegin (512 * pointeeSize depth)

/-- `ibegin` -/
def indexBegin (depth vbegin : ℕ) : ℕ :=
  usub (roundDownP2 vbegin (pointeeSize depth)) (tableBase depth vbegin) >>> virtShift depth

/-- `iend` -/
def indexEnd (depth vbegin vend : ℕ) : ℕ :=
  usub (roundUpP2 vend (pointeeSize depth)) (tableBase depth vbegin) >>> virtShift depth

/-- `next_vbegin` -/
def nextVbegin (depth vbegin i : ℕ) : ℕ :=
  max (uadd (i <<< virtShift depth) (tableBase depth vbegin)) vbegin

/-- `next_vend` -/
def nextVend (depth vbegin vend i : ℕ) : ℕ :=
  min (uadd ((i + 1) <<< virtShift depth) (tableBase depth vbegin)) vend

/-- `next_vend` as `edit` has it: the end of the share is not formed, which lies behind the address
space for the last entry of the last table. -/
def editNextVend (depth vbegin vend i : ℕ) : ℕ :=
  uadd (min (usub (uadd ((i + 1) <<< virtShift depth) (tableBase depth vbegin)) 1) (usub vend 1)) 1

/-- The loop `for (isize i=ibegin; i<iend; i++)` over the entries of a table. -/
def forEntries {σ : Type} (ibegin iend : ℕ) (body : Fin 512 → σ → Except Panic σ) (s : σ) :
    Except Panic σ :=
  if iend ≤ 512 then
    forEach body ((List.finRange 512).filter fun i => ibegin ≤ i.val ∧ i.val < iend) s
  else
    .error .outOfBounds

/-! ### Changing the tables -/

/-- `mmu_alloc_page` -/
def mmuAllocPage (s : Pmm) : Except Panic (Frame × Pmm) := do
  match ← allocPage s with
  | (none, _) => .error .outOfMemory
  | (some page, s) => .ok (page, s.setPage page (Page.fill 0))

/-- The table below entry `i`, allocated when the entry is not present. -/
def nextTable (table : Frame) (i : Fin 512) (s : Pmm) : Except Panic (Frame × Pmm) :=
  let entry := s.memory table i
  if !isPresent entry then do
    let (page, s) ← mmuAllocPage s
    .ok (page, s.setWord table i (entryAddressBits page ||| intermediate))
  else
    .ok (entryTarget entry, s)

/-- A zeroed page for entry `i` of a `PT`. -/
def assignPage (table : Frame) (i : Fin 512) (flags : Word) (s : Pmm) : Except Panic Pmm :=
  if isPresent (s.memory table i) then
    .error .assignOverExisting
  else do
    let (page, s) ← mmuAllocPage s
    .ok (s.setWord table i (entryAddressBits page ||| flags))

/-- `assign` -/
def assign : (depth : ℕ) → (table : Frame) → (vbegin vend : ℕ) → (flags : Word) → Pmm →
    Except Panic Pmm
  | 0, _, _, _, _, s => .ok s
  | depth + 1, table, vbegin, vend, flags, s =>
    forEntries (indexBegin (depth + 1) vbegin) (indexEnd (depth + 1) vbegin vend)
      (fun i s =>
        if depth + 1 > PT then do
          let (page, s) ← nextTable table i s
          assign depth page (nextVbegin (depth + 1) vbegin i)
            (nextVend (depth + 1) vbegin vend i) flags s
        else
          assignPage table i flags s) s

/-- The scan that ends `clear`: no entry is present. -/
def isEmptyTable (table : Page) : Bool := (List.finRange 512).all fun i => !isPresent (table i)

/-- `clear` -/
def clear : (depth : ℕ) → (table : Frame) → (vbegin vend : ℕ) → Pmm → Except Panic (Bool × Pmm)
  | 0, _, _, _, s => .ok (true, s)
  | depth + 1, table, vbegin, vend, s => do
    let s ← forEntries (indexBegin (depth + 1) vbegin) (indexEnd (depth + 1) vbegin vend)
      (fun i s =>
        if isPresent (s.memory table i) then do
          let target := entryTarget (s.memory table i)
          let (empty, s) ←
            if depth + 1 = PT then .ok (true, s)
            else
              clear depth target (nextVbegin (depth + 1) vbegin i)
                (nextVend (depth + 1) vbegin vend i) s
          if empty then .ok ((freePage target s).setWord table i 0) else .ok s
        else
          .ok s) s
    .ok (isEmptyTable (s.memory table), s)

/-- `edit` -/
def edit : (depth : ℕ) → (table : Frame) → (vbegin vend : ℕ) → (flags : Word) → Pmm →
    Except Panic Pmm
  | 0, _, _, _, _, s => .ok s
  | depth + 1, table, vbegin, vend, flags, s => do
    assert (vbegin < vend) .editRange
    forEntries (indexBegin (depth + 1) vbegin) (indexEnd (depth + 1) vbegin vend)
      (fun i s =>
        if !isPresent (s.memory table i) then .error .editUnassigned
        else
          let target := entryTarget (s.memory table i)
          if depth + 1 > PT then
            edit depth target (nextVbegin (depth + 1) vbegin i)
              (editNextVend (depth + 1) vbegin vend i) flags s
          else
            .ok (s.setWord table i (entryAddressBits target ||| flags))) s

/-- The copy of a page behind entry `i` of a `PT`, with the permissions of the original. -/
def clonePage (source dest : Frame) (i : Fin 512) (page : Frame) (s : Pmm) : Pmm :=
  let permissions := s.memory source i &&& ~~~tableEntryAddressMask
  let s := s.setWord dest i (entryAddressBits page ||| permissions)
  s.setPage page (s.memory (entryTarget (s.memory source i)))

/-- `clone` -/
def clone : (depth : ℕ) → (source dest : Frame) → Pmm → Except Panic Pmm
  | 0, _, _, s => .ok s
  | depth + 1, source, dest, s =>
    forEntries 0 (if depth + 1 = PML4 then 512 / 2 else 512)
      (fun i s =>
        if isPresent (s.memory source i) then do
          let (page, s) ← mmuAllocPage s
          if depth + 1 > PT then
            let s := s.setWord dest i (entryAddressBits page ||| intermediate)
            clone depth (entryTarget (s.memory source i)) page s
          else
            .ok (clonePage source dest i page s)
        else
          .ok s) s

lemma assign_zero (table : Frame) (vbegin vend : ℕ) (flags : Word) (s : Pmm) :
    assign 0 table vbegin vend flags s = .ok s := by
  unfold assign
  rfl

lemma clear_zero (table : Frame) (vbegin vend : ℕ) (s : Pmm) :
    clear 0 table vbegin vend s = .ok (true, s) := by
  unfold clear
  rfl

lemma edit_zero (table : Frame) (vbegin vend : ℕ) (flags : Word) (s : Pmm) :
    edit 0 table vbegin vend flags s = .ok s := by
  unfold edit
  rfl

lemma clone_zero (source dest : Frame) (s : Pmm) : clone 0 source dest s = .ok s := by
  unfold clone
  rfl

attribute [irreducible] assign clear edit clone

/-! ### Entry points -/

/-- `validate_limits` -/
def validateLimits (address : ℕ) (len : ℤ) : Except Panic Unit := do
  assert (address % pageSize = 0 ∧ len % pageSize = 0) .validateLimits
  assert (len > 0) .validateLimits
  if address ≤ memLowHalfMax then
    assert (uaddIsize address len ≤ memLowHalfMax) .validateLimits
  else do
    assert (address ≥ memHighHalfMin) .validateLimits
    assert (uaddIsize address len ≥ memHighHalfMin) .validateLimits

/-- `mmu_assign` -/
def mmuAssign (pm : Frame) (address : ℕ) (len : ℤ) (mode : MmuMode) (cache : MmuCache)
    (s : Pmm) : Except Panic Pmm := do
  validateLimits address len
  assign PML4 pm address (uaddIsize address len) (entryFlags cache mode) s

/-- `mmu_clear` -/
def mmuClear (pm : Frame) (address : ℕ) (len : ℤ) (s : Pmm) : Except Panic Pmm := do
  validateLimits address len
  let (_, s) ← clear PML4 pm address (uaddIsize address len) s
  .ok s

/-- `mmu_edit` -/
def mmuEdit (pm : Frame) (address : ℕ) (len : ℤ) (mode : MmuMode) (cache : MmuCache)
    (s : Pmm) : Except Panic Pmm := do
  validateLimits address len
  edit PML4 pm address (uaddIsize address len) (entryFlags cache mode) s

/-- The upper half of a `PML4`: `memcpy(to + HALF, from + HALF, HALF)` -/
def copyKernelHalf (source dest : Page) : Page := fun i => if i.val < 256 then dest i else source i

/-- `mmu_create_address_space`, with the current address space in CR3 -/
def mmuCreateAddressSpace (cr3 out : Frame) (s : Pmm) : Except Panic (Frame × Pmm) := do
  assert (out.address = 0) .pageMapUnset
  let (page, s) ← mmuAllocPage s
  .ok (page, s.setPage page (copyKernelHalf (s.memory cr3) (s.memory page)))

/-- `mmu_clone_address_space` -/
def mmuCloneAddressSpace (pm out : Frame) (s : Pmm) : Except Panic (Frame × Pmm) := do
  assert (out.address = 0) .pageMapUnset
  let (page, s) ← mmuAllocPage s
  let s := s.setPage page (copyKernelHalf (s.memory pm) (s.memory page))
  let s ← clone PML4 pm page s
  .ok (page, s)

/-- `mmu_destroy_address_space`, with the current address space in CR3 -/
def mmuDestroyAddressSpace (cr3 pm : Frame) (s : Pmm) : Except Panic Pmm := do
  assert (pm.address ≠ cr3.address) .notCurrentAddressSpace
  let s ← mmuClear pm 0 memLowHalfMax s
  .ok (freePage pm s)

end Fluke
