import Mathlib.Tactic

/-!
# Common definitions of the kernel

Sizes and addresses (`usize`) are natural numbers below `2 ^ 64`; the operations that can leave
this range wrap around as the machine's do. Words whose bits matter are `BitVec 64`.
-/

namespace Fluke

/-- `u64`, where its bits matter. -/
abbrev Word := BitVec 64

/-- `PAGE_SIZE` -/
abbrev pageSize : ℕ := 0x1000

/-- `MEM_LOW_HALF_MAX` -/
abbrev memLowHalfMax : ℕ := 0x0000800000000000

/-- `MEM_HIGH_HALF_MIN` -/
abbrev memHighHalfMin : ℕ := 0xffff800000000000

/-! ### Machine arithmetic -/

/-- `a + b` on `usize` -/
def uadd (a b : ℕ) : ℕ := (a + b) % 2 ^ 64

/-- `a - b` on `usize` -/
def usub (a b : ℕ) : ℕ := (a + 2 ^ 64 - b) % 2 ^ 64

/-- A `usize` read as `isize` -/
def toIsize (a : ℕ) : ℤ := if a < 2 ^ 63 then a else (a : ℤ) - 2 ^ 64

/-- `a + len` for a `usize` and an `isize` -/
def uaddIsize (a : ℕ) (len : ℤ) : ℕ := ((a + len) % 2 ^ 64).toNat

/-- `ROUND_DOWN_P2`; clearing the bits below a power of two takes the remainder away. -/
def roundDownP2 (val power2 : ℕ) : ℕ := val - val % power2

/-- `ROUND_UP_P2` -/
def roundUpP2 (val power2 : ℕ) : ℕ := roundDownP2 (usub (uadd val power2) 1) power2

/-- `is_page_aligned` -/
def isPageAligned (a : ℕ) : Bool := a % pageSize == 0

lemma isPageAligned_iff {a : ℕ} : isPageAligned a = true ↔ a % 4096 = 0 := by
  simp [isPageAligned]

lemma uadd_of_lt {a b : ℕ} (h : a + b < 2 ^ 64) : uadd a b = a + b := Nat.mod_eq_of_lt h

lemma usub_of_le {a b : ℕ} (h : b ≤ a) (ha : a < 2 ^ 64) : usub a b = a - b := by
  unfold usub
  omega

lemma uaddIsize_of_nonneg {a : ℕ} {len : ℤ} (h : 0 ≤ len) (h' : a + len < 2 ^ 64) :
    uaddIsize a len = a + len.toNat := by
  unfold uaddIsize
  omega

lemma toIsize_of_lt {a : ℕ} (h : a < 2 ^ 63) : toIsize a = a := if_pos h

lemma roundUpP2_of_lt {val power2 : ℕ} (hp : 0 < power2) (h : val + power2 < 2 ^ 64) :
    roundUpP2 val power2 = roundDownP2 (val + power2 - 1) power2 := by
  rw [roundUpP2, uadd_of_lt h, usub_of_le (by omega) h]

/-! ### Panics and error codes -/

/-- The assertions of the modelled code, by the place they stand in. -/
inductive Assertion where
  /-- the assertions of `pmm_add_pages` -/
  | pageAligned
  /-- the assertions of `free_page` -/
  | kernelPage
  /-- `pmm.free_count > 0` in `alloc_page` -/
  | freeCountPositive
  /-- `0 <= size_class && size_class < 10` in `kalloc_class` and `kfree_class` -/
  | sizeClass
  /-- `pools[size_class] == nullptr` in `alloc_from_fresh_page` -/
  | poolEmpty
  /-- `ptr` in `kfree_class` -/
  | blockPointer
  /-- `out->top_address.address == 0` in `mmu_create_address_space`, `mmu_clone_address_space` -/
  | pageMapUnset
  /-- `pm` is not the current address space, in `mmu_destroy_address_space` -/
  | notCurrentAddressSpace
  /-- the assertions of `validate_limits` -/
  | validateLimits
  /-- `assert_valid` of the virtual memory operations -/
  | addressValid
  /-- `area->begin < area->end` in `vm_clear_for_insert` -/
  | areaNonempty
  /-- `not is_open()` in `Descriptor::assign` and in `clone` of a descriptor array -/
  | descriptorUnused
  /-- `h->refcount() >= 0` in `Descriptor::assign` -/
  | refCountNonneg
  /-- `is_open()` in `Descriptor::close` -/
  | descriptorOpen
  /-- `not to.l1[i]` in `Descriptor_table::clone` -/
  | tableUnused
  /-- `ref_count_ > 0` in `Handle::release` -/
  | refCountPositive
  /-- `len > 0` in `Module::read` -/
  | readLength
  /-- `node->prev == nullptr` in `queue_pop` -/
  | queueNodeFirst
  /-- `node->root == queue` in `queue_pop` -/
  | queueNodeRoot
  /-- `node->root == nullptr` in `queue_push` -/
  | queueNodeFree
  /-- `queue` in `queue_node_remove` -/
  | queueNodeQueued
  /-- `parent->child[dir] == nullptr` in `Tree::insert_at` -/
  | treeChildFree
  /-- `child->parent == nullptr` in `Tree::insert_at`, `node->parent == nullptr` in
  `Tree::insert_root` -/
  | treeNodeFree
  /-- `root == nullptr` in `Tree::insert_root` -/
  | treeEmpty
  /-- `*parent_ptr == node` in `tree_remove_at` -/
  | treeParentPointer
  /-- `root` in `Tree::remove` -/
  | treeNonempty
  /-- `state == FLOATING`, of a thread that the kernel holds -/
  | threadFloating
  /-- `state == READY` in `run_queue_pop` -/
  | threadReady
  /-- `state == RUNNING` in `cpu_context_save` and `cpu_context_clone_current` -/
  | threadRunning
  /-- `state == WAITING` in `Thread::pop_from` -/
  | threadWaiting
  /-- `state == SLEEPING || state == WAITING` in `schedule_wake` -/
  | threadBlocked
  /-- `not queue.root`, of a thread -/
  | threadUnqueued
  /-- `timeout.prev == nullptr` and `timeout.next == nullptr` -/
  | timeoutUnlinked
  /-- `wait_ns > 0` -/
  | waitPositive
  /-- `this_tls->current_thread == nullptr` -/
  | noCurrentThread
  /-- `this_tls->current_thread != nullptr` -/
  | currentThread
  /-- `listener->ipc_caller == nullptr` in `call_transfer` -/
  | listenerIdle
  /-- `caller->state == CALLING` in `IPC::respond` -/
  | callerCalling
  /-- what the state of a channel says about its queue -/
  | channelQueue
  /-- `not self.closed_call` in `IPC_handle::ipc_call`, `not self.closed_listen` in
  `IPC::listen` -/
  | endOpen
  /-- `is_claimed` in `IRQ_handle::ctl` -/
  | irqClaimed
  /-- the process of the current thread, in `Process::fork` -/
  | currentProcess
  /-- `vbegin < vend` in `edit` -/
  | editRange
  /-- `size > 0` in `handle_open_module` -/
  | moduleSize
  deriving DecidableEq, Repr

/-- Every way the modelled code stops. -/
inductive Panic where
  | assertion (a : Assertion)
  /-- `mmu_alloc_page` found no free page. -/
  | outOfMemory
  | assignOverExisting
  | editUnassigned
  | alreadyMapped
  | sleepingState
  | transferMode
  | unhandledInterrupt
  | unhandledException
  | moduleTooLarge
  | invalidFormat
  /-- Not a panic of the source: an array is indexed past its end, and what follows is
  undefined. -/
  | outOfBounds
  /-- Not a panic of the source: an object is used through a pointer that does not point to a
  live object of its type, and what follows is undefined. -/
  | invalidPointer
  /-- Not a panic of the source: a condition is tested before an instruction has set it, and what
  follows is undefined. -/
  | unsetFlags
  /-- Not a panic of the source: a recursion is deeper than the bound given to its model. -/
  | outOfFuel
  deriving DecidableEq, Repr

/-- What the kernel prints when it stops. -/
def Panic.message : Panic → String
  | .assertion _ => "assertion failure"
  | .outOfMemory => "OOM in mmu_alloc_page (TODO: fix this)"
  | .assignOverExisting => "mmu: cannot assign over existing page table entry"
  | .editUnassigned => "mmu: cannot edit unassigned region"
  | .alreadyMapped => "mmu_point1: address already mapped"
  | .sleepingState => "Sleeping thread in illegal state"
  | .transferMode => "Invalid IPC transfer mode"
  | .unhandledInterrupt => "Unhandled interrupt"
  | .unhandledException => "Unhandled kernel exception"
  | .moduleTooLarge => "kernel module too large"
  | .invalidFormat => "invalid format string"
  | .outOfBounds => "(undefined behaviour)"
  | .invalidPointer => "(undefined behaviour)"
  | .unsetFlags => "(undefined behaviour)"
  | .outOfFuel => "(recursion bound)"

/-- The error codes the modelled code returns. -/
inductive ErrorCode where
  | EINVAL | ENOSYS | ENOMEM | ENOENT | ENAMETOOLONG | EMFILE | EBADF | EFAULT | EEXIST | ENOEXEC
  | EPIPE | EBUSY | EAGAIN | ESPIPE | E2BIG | EPERM | EIPCIO | ENODEV | EIPCNX
  deriving DecidableEq, Repr

/-- The numbers of `errno.h` -/
def ErrorCode.value : ErrorCode → ℕ
  | .EINVAL => 1
  | .ENOSYS => 2
  | .ENOMEM => 4
  | .ENOENT => 5
  | .ENAMETOOLONG => 6
  | .EMFILE => 7
  | .EBADF => 8
  | .EFAULT => 9
  | .EEXIST => 10
  | .ENOEXEC => 11
  | .EPIPE => 12
  | .EBUSY => 13
  | .EAGAIN => 14
  | .ESPIPE => 18
  | .E2BIG => 19
  | .EPERM => 20
  | EIPCIO => 21
  | .ENODEV => 22
  | .EIPCNX => 24

/-- `EIPCIO` -/
abbrev ErrorCode.ipcIo : ErrorCode := EIPCIO

/-- `result<T>` -/
abbrev Result (α : Type) := Except ErrorCode α

/-- `assert` -/
def assert (b : Bool) (a : Assertion) : Except Panic Unit :=
  if b then .ok () else .error (.assertion a)

lemma assert_eq_ok {b : Bool} {a : Assertion} {u : Unit} : assert b a = .ok u ↔ b = true := by
  cases b <;> simp [assert]

end Fluke
