import Fluke.Mem.Alloc
import Fluke.X86.Mmu

/-!
# Virtual memory of a process

A process has a page map and a list of areas in the order of the addresses. The list of the
source is linked through the areas themselves; a position in it, which the source keeps as a
pointer to a link (`route`), is here the pair of the areas before it and the areas after it.
-/

namespace Fluke

open Outcome

/-- `ADDR_MIN` -/
abbrev addrMin : ℕ := pageSize
/-- `ADDR_MAX` -/
abbrev addrMax : ℕ := memLowHalfMax
/-- `ADDR_DEFAULT_HINT` -/
abbrev addrDefaultHint : ℕ := 0xaaabbb * 1024 * 1024

/-- `PROT_WRITE` -/
def protWrite : BitVec 32 := 1 <<< 1
/-- `PROT_EXEC` -/
def protExec : BitVec 32 := 1 <<< 2

/-- `struct VM_area`, and the block it is stored in -/
structure VmArea where
  begin : ℕ
  end_ : ℕ
  flags : MmuMode
  block : Block
  deriving DecidableEq

/-- `sizeof(VM_area)` -/
def vmAreaSize : ℕ := 32

/-- `struct VM` -/
structure Vm where
  pageMap : Frame
  first : List VmArea

/-- `VM_area::space_after`, with the area that follows -/
def VmArea.spaceAfter (area : VmArea) (next : Option VmArea) : ℤ :=
  let endOfSpace := match next with
    | some next => next.begin
    | none => addrMax
  toIsize (usub endOfSpace area.end_)

/-- `VM_area::Overlap` -/
inductive Overlap where
  | after | startsWith | contains | whole | endsWith | before
  deriving DecidableEq, Repr

/-- `VM_area::find_overlap` -/
def VmArea.findOverlap (area : VmArea) (ibegin iend : ℕ) : Overlap :=
  if iend ≤ area.begin then .after
  else if ibegin ≥ area.end_ then .before
  else if ibegin ≤ area.begin then
    if iend ≥ area.end_ then .whole else .startsWith
  else
    if iend ≥ area.end_ then .endsWith else .contains

/-- What an operation leaves: its result, the areas and the heap. -/
abbrev VmOut (α : Type) := Result α × List VmArea × Heap

/-- `owned<VM_area>::make` -/
def makeArea (heap : Heap) : Except Panic (Option Block × Heap) := kalloc vmAreaSize heap

/-- `kfree_t` of an area -/
def freeArea (area : Block) (heap : Heap) : Except Panic Heap := kfree area vmAreaSize heap

/-- `assert_valid` -/
def assertValid (address : ℕ) (length : ℤ) : Except Panic Unit :=
  assert (isPageAligned address && length % pageSize = 0 && length > 0) .addressValid

/-- Where a loop over the areas ended: the areas it passed, the rest, and whether it used the
spare area. -/
structure Route where
  passed : List VmArea
  rest : List VmArea
  usedSpare : Bool

/-- The loop of `vm_clear_for_insert` -/
def clearLoop (address end_ : ℕ) (spare : Block) : List VmArea → Heap → Except Panic (Route × Heap)
  | [], heap => .ok (⟨[], [], false⟩, heap)
  | area :: next, heap =>
    match area.findOverlap address end_ with
    | .after => .ok (⟨[], area :: next, false⟩, heap)
    | .startsWith => do
      let area := { area with begin := end_ }
      assert (area.begin < area.end_) .areaNonempty
      .ok (⟨[], area :: next, false⟩, heap)
    | .contains =>
      -- The route still leads to the area itself, not to the place behind it.
      let second := { area with begin := end_, block := spare }
      let area := { area with end_ := address }
      .ok (⟨[], area :: second :: next, true⟩, heap)
    | .whole => do
      let heap ← freeArea area.block heap
      clearLoop address end_ spare next heap
    | .endsWith => do
      let area := { area with end_ := address }
      assert (area.begin < area.end_) .areaNonempty
      let (route, heap) ← clearLoop address end_ spare next heap
      .ok ({ route with passed := area :: route.passed }, heap)
    | .before => do
      let (route, heap) ← clearLoop address end_ spare next heap
      .ok ({ route with passed := area :: route.passed }, heap)

/-- `vm_clear_for_insert`; the spare area is given back when it was not used. -/
def vmClearForInsert (areas : List VmArea) (address end_ : ℕ) (heap : Heap) :
    Except Panic (Result Route × Heap) := do
  match ← makeArea heap with
  | (none, heap) => .ok (.error .ENOMEM, heap)
  | (some spare, heap) =>
    let (route, heap) ← clearLoop address end_ spare areas heap
    let heap ← if route.usedSpare then .ok heap else freeArea spare heap
    .ok (.ok route, heap)

/-- `merge_regions_after`, with the areas that follow; the areas that are taken over are freed. -/
def mergeRegionsAfter (area : VmArea) : List VmArea → Heap →
    Except Panic (VmArea × List VmArea × Heap)
  | [], heap => .ok (area, [], heap)
  | next :: rest, heap =>
    if area.end_ = next.begin ∧ area.flags = next.flags then do
      let heap ← freeArea next.block heap
      mergeRegionsAfter { area with end_ := next.end_ } rest heap
    else .ok (area, next :: rest, heap)

/-- `prot_to_mode` -/
def protToMode (protFlags : BitVec 32) : MmuMode :=
  let mode := MmuMode.default
  let mode := if protFlags ≠ 0 then mode ||| MmuMode.user else mode
  let mode := if protFlags &&& protExec ≠ 0 then mode ||| MmuMode.exec else mode
  if protFlags &&& protWrite ≠ 0 then mode ||| MmuMode.write else mode

/-- `mmu_assign` of an area's pages, unless nothing may be done with them -/
def assignArea (pageMap : Frame) (address : ℕ) (length : ℤ) (flags : BitVec 32) (heap : Heap) :
    Except Panic Heap :=
  if flags ≠ 0 then do
    let pmm ← mmuAssign pageMap address length (protToMode flags) MmuCache.default heap.pmm
    .ok { heap with pmm := pmm }
  else .ok heap

/-- `mmu_clear` of the pages of a range -/
def clearRange (pageMap : Frame) (address : ℕ) (length : ℤ) (heap : Heap) : Except Panic Heap := do
  let pmm ← mmuClear pageMap address length heap.pmm
  .ok { heap with pmm := pmm }

/-- `VM::free` -/
def Vm.free (vm : Vm) (address : ℕ) (length : ℤ) (heap : Heap) : Except Panic (VmOut Unit) := do
  assertValid address length
  if address ≥ addrMax || uaddIsize address length > addrMax then
    .ok (.error .EINVAL, vm.first, heap)
  else
    match ← vmClearForInsert vm.first address (uaddIsize address length) heap with
    | (.error e, heap) => .ok (.error e, vm.first, heap)
    | (.ok route, heap) =>
      let heap ← clearRange vm.pageMap address length heap
      .ok (.ok (), route.passed ++ route.rest, heap)

/-- The loop of `vm_insert_area`: the areas that end before the address, and the others. -/
def insertLoop (address : ℕ) : List VmArea → List VmArea × List VmArea
  | [] => ([], [])
  | next :: rest =>
    if address < next.end_ then ([], next :: rest)
    else
      let (passed, rest) := insertLoop address rest
      (next :: passed, rest)

/-- `vm_insert_area`, for an area with these flags -/
def vmInsertArea (areas : List VmArea) (address end_ : ℕ) (flags : MmuMode) (heap : Heap) :
    Except Panic (VmOut Unit) := do
  match ← makeArea heap with
  | (none, heap) => .ok (.error .ENOMEM, areas, heap)
  | (some newArea, heap) =>
    let area : VmArea := ⟨address, end_, flags, newArea⟩
    match insertLoop address areas with
    | (passed, []) => .ok (.ok (), passed ++ [area], heap)
    | (passed, next :: rest) =>
      if address ≥ next.begin || end_ > next.begin then do
        let heap ← freeArea newArea heap
        .ok (.error .EEXIST, areas, heap)
      else .ok (.ok (), passed ++ area :: next :: rest, heap)

/-- `VM::alloc_fixed_noreplace` -/
def Vm.allocFixedNoreplace (vm : Vm) (address : ℕ) (length : ℤ) (flags : BitVec 32)
    (heap : Heap) : Except Panic (VmOut Unit) := do
  assertValid address length
  if address < addrMin || address ≥ addrMax || uaddIsize address length > addrMax then
    .ok (.error .EINVAL, vm.first, heap)
  else
    match ← vmInsertArea vm.first address (uaddIsize address length) (protToMode flags) heap with
    | (.error e, areas, heap) => .ok (.error e, areas, heap)
    | (.ok (), areas, heap) =>
      let heap ← assignArea vm.pageMap address length flags heap
      .ok (.ok (), areas, heap)

/-- `VM::alloc_fixed_overwrite` -/
def Vm.allocFixedOverwrite (vm : Vm) (address : ℕ) (length : ℤ) (flags : BitVec 32)
    (heap : Heap) : Except Panic (VmOut Unit) := do
  assertValid address length
  if address < addrMin || address ≥ addrMax || uaddIsize address length > addrMax then
    .ok (.error .EINVAL, vm.first, heap)
  else
    match ← vmClearForInsert vm.first address (uaddIsize address length) heap with
    | (.error e, heap) => .ok (.error e, vm.first, heap)
    | (.ok route, heap) =>
      let heap ← clearRange vm.pageMap address length heap
      match ← makeArea heap with
      | (none, heap) => .ok (.error .ENOMEM, route.passed ++ route.rest, heap)
      | (some block, heap) =>
        let area : VmArea := ⟨address, uaddIsize address length, protToMode flags, block⟩
        let heap ← assignArea vm.pageMap address length flags heap
        .ok (.ok (), route.passed ++ area :: route.rest, heap)

/-- A place where an area may be inserted: the area in front of it, and how many areas of the
list come before it. -/
abbrev Region := Option (VmArea × ℕ)

/-- The loop of `VM::alloc_movable`, from the `i`-th area on. -/
def findRegion (hint : ℕ) (length : ℤ) : List VmArea → ℕ → Region → Region
  | [], _, region => region
  | area :: next, i, region =>
    if area.spaceAfter next.head? ≥ length then
      if area.end_ < hint then findRegion hint length next (i + 1) (some (area, i))
      else
        match region with
        | none => some (area, i)
        | some (best, j) =>
          if usub area.end_ hint < usub hint best.end_ then some (area, i) else some (best, j)
    else findRegion hint length next (i + 1) region

/-- The area on the stack that stands for the begin of the list. It is in no block; the block
written here is never freed. -/
def vmListBegin : VmArea := ⟨addrMin, addrMin, -1, ⟨⟨0, aligned_zero⟩, 0⟩⟩

/-- `std::clamp` -/
def clamp (v lo hi : ℕ) : ℕ := if v < lo then lo else if hi < v then hi else v

/-- The hint that `VM::alloc_movable` uses. -/
def effectiveHint (hint : ℕ) : ℕ :=
  if hint < addrMin || hint ≥ addrMax then addrDefaultHint else hint

/-- Where the areas that follow begin, and the end of the address space behind the last one. -/
def nextBegin : List VmArea → ℕ
  | [] => addrMax
  | next :: _ => next.begin

/-- The end of `VM::alloc_movable`: the new area behind the region that was found, with the areas
in front of the region and those behind it. -/
def Vm.insertMovable (vm : Vm) (hint : ℕ) (length : ℤ) (flags : BitVec 32) (newArea : Block)
    (before : List VmArea) (region : VmArea) (rest : List VmArea) (heap : Heap) :
    Except Panic (VmOut ℕ) := do
  let address := clamp hint region.end_ (nextBegin rest)
  assertValid address length
  let area : VmArea := ⟨address, uaddIsize address length, protToMode flags, newArea⟩
  let heap ← assignArea vm.pageMap address length flags heap
  let (region, rest, heap) ← mergeRegionsAfter region (area :: rest) heap
  .ok (.ok address, (before ++ region :: rest).drop 1, heap)

/-- The search of `VM::alloc_movable` and what it does with its result; `list` are the areas
behind the area that stands for the begin of the list. -/
def Vm.placeMovable (vm : Vm) (hint : ℕ) (length : ℤ) (flags : BitVec 32) (newArea : Block)
    (list : List VmArea) (heap : Heap) : Except Panic (VmOut ℕ) :=
  match findRegion hint length list 0 none with
  | none => do
    let heap ← freeArea newArea heap
    .ok (.error .ENOMEM, vm.first, heap)
  | some (region, i) =>
    vm.insertMovable hint length flags newArea (list.take i) region (list.drop (i + 1)) heap

/-- `VM::alloc_movable` -/
def Vm.allocMovable (vm : Vm) (hint : ℕ) (length : ℤ) (flags : BitVec 32) (heap : Heap) :
    Except Panic (VmOut ℕ) := do
  let hint := effectiveHint hint
  if uaddIsize hint length > addrMax then .ok (.error .EINVAL, vm.first, heap)
  else
    match ← makeArea heap with
    | (none, heap) => .ok (.error .ENOMEM, vm.first, heap)
    | (some newArea, heap) =>
      vm.placeMovable hint length flags newArea (vmListBegin :: vm.first) heap

/-- The loop of `VM::clone` -/
def cloneAreas : List VmArea → Heap → Except Panic (VmOut Unit)
  | [], heap => .ok (.ok (), [], heap)
  | area :: next, heap => do
    match ← makeArea heap with
    | (none, heap) => .ok (.error .ENOMEM, [], heap)
    | (some block, heap) =>
      let (result, areas, heap) ← cloneAreas next heap
      .ok (result, { area with block := block } :: areas, heap)

/-- `VM::clone` into a VM whose page map is `out` -/
def Vm.clone (vm : Vm) (out : Frame) (heap : Heap) :
    Except Panic (Result Unit × Vm × Heap) := do
  let (page, pmm) ← mmuCloneAddressSpace vm.pageMap out heap.pmm
  let (result, areas, heap) ← cloneAreas vm.first { heap with pmm := pmm }
  .ok (result, ⟨page, areas⟩, heap)

/-- `VM::init` -/
def Vm.init (cr3 out : Frame) (heap : Heap) : Except Panic (Vm × Heap) := do
  let (page, pmm) ← mmuCreateAddressSpace cr3 out heap.pmm
  .ok (⟨page, []⟩, { heap with pmm := pmm })

end Fluke
