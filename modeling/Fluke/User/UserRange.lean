import Fluke.Mem.UserCopy
import Fluke.User.Descriptor.Syscalls
import Fluke.User.Module

/-!
# What the copies touch

The copies between the kernel and user memory are the ones modelled before, with a list of what they
touch: user addresses, also those that fault, and bytes of the buffer in the kernel. A range that
`check_user_range` accepts is one of the lower half, so nothing of the kernel is touched on the user
side, and the limits of the system calls keep the copies inside of their buffers.
-/

namespace Fluke

open Outcome

/-- What a copy touches -/
inductive CopyAccess where
  /-- an address on the user side -/
  | user (address : ℕ)
  /-- a byte of the kernel's buffer -/
  | kernel (offset : ℕ)
  deriving DecidableEq

/-- Only the lower half is touched on the user side, and at most the first `limit` bytes of the
buffer. -/
def Confined (limit : ℕ) (touched : List CopyAccess) : Prop :=
  ∀ t ∈ touched, match t with
    | .user address => address < memLowHalfMax
    | .kernel offset => offset < limit

section

variable {limit : ℕ} {touched touched' : List CopyAccess}

lemma Confined.append (h : Confined limit touched) (h' : Confined limit touched') :
    Confined limit (touched ++ touched') := fun t ht =>
  (List.mem_append.mp ht).elim (h t) (h' t)

lemma Confined.user {address : ℕ} (h : Confined limit touched)
    (haddress : address < memLowHalfMax) : Confined limit (.user address :: touched) := by
  refine List.forall_mem_cons.mpr ⟨?_, h⟩
  exact haddress

lemma Confined.kernel {offset : ℕ} (h : Confined limit touched) (hoffset : offset < limit) :
    Confined limit (.kernel offset :: touched) := by
  refine List.forall_mem_cons.mpr ⟨?_, h⟩
  exact hoffset

end

namespace Touched

/-! ### Copies -/

/-- `memcpy_catch_fault` from user memory into a buffer, from the byte `offset` on -/
def readUser (memory : ℕ → Option (BitVec 8)) : (count src offset : ℕ) →
    Option (List (BitVec 8)) × List CopyAccess
  | 0, _, _ => (some [], [])
  | count + 1, src, offset =>
    match memory src with
    | none => (none, [.user src])
    | some byte =>
      let (bytes, touched) := readUser memory count (uadd src 1) (offset + 1)
      (bytes.map (byte :: ·), .user src :: .kernel offset :: touched)

/-- `copy_from_user` -/
def copyFromUser (memory : ℕ → Option (BitVec 8)) (src : ℕ) (size : ℤ) :
    Result (List (BitVec 8)) × List CopyAccess :=
  match checkUserRange src size with
  | .error e => (.error e, [])
  | .ok () =>
    let (bytes, touched) := readUser memory size.toNat src 0
    (match bytes with
      | some bytes => .ok bytes
      | none => .error .EFAULT, touched)

/-- `memcpy_catch_fault` from a buffer to user memory, from the byte `offset` on -/
def writeUser (src : ℕ → BitVec 8) : (count dest offset : ℕ) → UserMemory →
    (Bool × UserMemory) × List CopyAccess
  | 0, _, _, memory => ((false, memory), [])
  | count + 1, dest, offset, memory =>
    if memory.writable dest then
      let (r, touched) := writeUser src count (uadd dest 1) (offset + 1)
        { memory with byte := Function.update memory.byte dest (src offset) }
      (r, .kernel offset :: .user dest :: touched)
    else ((true, memory), [.kernel offset, .user dest])

/-- `copy_to_user` -/
def copyToUser (memory : UserMemory) (dest : ℕ) (src : ℕ → BitVec 8) (size : ℤ) :
    (Result Unit × UserMemory) × List CopyAccess :=
  match checkUserRange dest size with
  | .error e => ((.error e, memory), [])
  | .ok () =>
    let ((fault, memory), touched) := writeUser src size.toNat dest 0 memory
    ((if fault then .error .EFAULT else .ok (), memory), touched)

/-- `rep movsb` from the direct map into the address space `cr3`. The byte read is the one at the
address `source` of the other process. -/
def repMovsb (cr3 : Frame) : (count dest source : ℕ) → (src : Word) → Pmm →
    (Bool × Pmm) × List CopyAccess
  | 0, _, _, _, s => ((true, s), [])
  | count + 1, dest, source, src, s =>
    match storeAddress s.memory cr3 dest with
    | none => ((false, s), [.user source, .user dest])
    | some target =>
      let (r, touched) := repMovsb cr3 count (uadd dest 1) (uadd source 1) (src + 1)
        (s.writeByte (placeOf target) (readByte s.memory (placeOf src)))
      (r, .user source :: .user dest :: touched)

/-- `memcpy_catch_fault` in the loop of `memcpy_user_user_catch_fault` -/
def memcpyCatchFault (cr3 : Frame) (dest source : ℕ) (src : Word) (size catchFault : ℕ) (s : Pmm) :
    Except Panic (ℕ × Pmm) × List CopyAccess :=
  match repMovsb cr3 size dest source src s with
  | ((true, s), touched) => (.ok (0, s), touched)
  | ((false, s), touched) =>
    (if memcpyFaultWrite &&& catchFault = memcpyFaultWrite then .ok (memcpyFaultWrite, s)
      else .error .unhandledException, touched)

/-- The loop of `memcpy_user_user_catch_fault` -/
def copyPages (cr3 sourceMap : Frame) (destAddr sourceAddr count : ℕ) (s : Pmm) :
    Except Panic (ℕ × Pmm) × List CopyAccess :=
  if count = 0 then (.ok (0, s), [])
  else
    let bytesToAlign := pageSize - sourceAddr % pageSize
    let n := min bytesToAlign count
    let copySrc := virtToPhys s.memory sourceMap sourceAddr
    match memcpyCatchFault cr3 destAddr sourceAddr copySrc n
        (memcpyFaultRead ||| memcpyFaultWrite) s with
    | (.error e, touched) => (.error e, touched)
    | (.ok (err, s), touched) =>
      if err ≠ 0 then (.ok (err, s), touched)
      else
        let (r, touched') :=
          copyPages cr3 sourceMap (uadd destAddr n) (uadd sourceAddr n) (count - n) s
        (r, touched ++ touched')
termination_by count
decreasing_by
  simp only [pageSize]
  omega

/-- `memcpy_user_user_catch_fault` -/
def memcpyUserUserCatchFault {α : Type} [DecidableEq α] (currentThread : Option α)
    (destMap : Frame) (destAddr : ℕ) (sourceMap : Frame) (sourceAddr : ℕ) (size : ℤ)
    (m : MmuState) : Except Panic (ℕ × MmuState) × List CopyAccess :=
  match checkUserRange sourceAddr size with
  | .error _ => (.ok (memcpyFaultRead, m), [])
  | .ok () =>
    match checkUserRange destAddr size with
    | .error _ => (.ok (memcpyFaultWrite, m), [])
    | .ok () =>
      match assert (currentThread = none) .noCurrentThread with
      | .error e => (.error e, [])
      | .ok () =>
        let m := { m with cr3 := destMap }
        let (r, touched) := copyPages m.cr3 sourceMap destAddr sourceAddr size.toNat m.pmm
        (r.map fun (err, pmm) => (err, { m with pmm := pmm }), touched)

/-! ### System calls -/

/-- `do_syscall_open_module`, with the buffer `path[128]` -/
def doSyscallOpenModule (modules : List BootModule) (memory : ℕ → Option (BitVec 8))
    (c : CallState) : Except Panic (Result ℕ × CallState) × List CopyAccess :=
  match c.alloc with
  | .error e => (.error e, [])
  | .ok (.error e, c) => (.ok (.error e, c), [])
  | .ok (.ok (fd, slot), c) =>
    let len := c.ctx.a1
    if len > 128 then (.ok (.error .ENAMETOOLONG, c), [])
    else
      let (path, touched) := copyFromUser memory c.ctx.a0 (toIsize len)
      (match path with
        | .error e => .ok (.error e, c)
        | .ok path => do
          match ← bootloaderOpenModule modules path c.objects with
          | (none, objects) => .ok (.error .ENOENT, c.setObjects objects)
          | (some handle, objects) => (c.setObjects objects).assign slot handle false fd, touched)

/-- `do_syscall_ipc_create`, with the buffer `transfers[5]` -/
def doSyscallIpcCreate (memory : ℕ → Option (BitVec 8)) (c : CallState) :
    Except Panic (Result ℕ × CallState) × List CopyAccess :=
  let ntransfers := c.ctx.a1
  if ntransfers > transferMax then (.ok (.error .E2BIG, c), [])
  else
    let (bytes, touched) := copyFromUser memory c.ctx.a0 (toIsize ntransfers)
    (match bytes with
      | .error e => .ok (.error e, c)
      | .ok bytes => do
        match ← c.alloc with
        | (.error e, c) => .ok (.error e, c)
        | (.ok (fd, slot), c) =>
          match ← ipcCreateObject (transfersOf bytes) c.objects with
          | (.error e, objects) => .ok (.error e, c.setObjects objects)
          | (.ok handle, objects) => do
            let (r, c) ← (c.setObjects objects).assign slot handle false fd
            .ok (r, { c with ctx := { c.ctx with a2 := objects.created - 1 } }), touched)

section

variable {limit : ℕ} {memory : ℕ → Option (BitVec 8)}

/-! ### The copies are the ones modelled before -/

lemma mapM_range_succ {α : Type} (f : ℕ → Option α) (n : ℕ) :
    (List.range (n + 1)).mapM f =
      (f 0).bind fun a => ((List.range n).mapM fun i => f (i + 1)).map (a :: ·) := by
  rw [List.range_succ_eq_map, List.mapM_cons, List.mapM_map]
  cases f 0 with
  | none => rfl
  | some a =>
    change (List.mapM (fun i => f (i + 1)) (List.range n) >>= _) = _
    cases List.mapM (fun i => f (i + 1)) (List.range n) <;> rfl

lemma readUser_fst {count src : ℕ} (h : src + count < 2 ^ 64) (offset : ℕ) :
    (readUser memory count src offset).1 = (List.range count).mapM fun i => memory (src + i) := by
  induction count generalizing src offset with
  | zero => rfl
  | succ count ih =>
    have hnext : uadd src 1 = src + 1 := uadd_of_lt (by omega)
    have hindex : (fun i => memory (src + (i + 1))) = fun i => memory (src + 1 + i) := by
      funext i
      rw [Nat.add_assoc, Nat.add_comm 1 i]
    rw [readUser, mapM_range_succ, hindex, Nat.add_zero]
    cases hbyte : memory src with
    | none => rfl
    | some byte =>
      dsimp only
      rw [hnext, ih (by omega)]
      rfl

lemma copyFromUser_fst (memory : ℕ → Option (BitVec 8)) (src : ℕ) {size : ℤ}
    (hsize : size < 2 ^ 63) :
    (copyFromUser memory src size).1 = Fluke.copyFromUser memory src size := by
  rw [copyFromUser, Fluke.copyFromUser]
  cases hcheck : checkUserRange src size with
  | error e => rfl
  | ok u =>
    obtain ⟨hpos, hend⟩ := (checkUserRange_eq_ok hsize).mp hcheck
    have hread := @readUser_fst memory size.toNat src
      (by simp only [memLowHalfMax] at hend; omega) 0
    dsimp only
    rw [hread]
    rfl

lemma writeUser_fst {src : ℕ → BitVec 8} {count dest : ℕ} (h : dest + count < 2 ^ 64)
    (offset : ℕ) (memory : UserMemory) :
    (writeUser src count dest offset memory).1 =
      memory.memcpyCatchFault dest ((List.range count).map fun i => src (offset + i)) := by
  induction count generalizing dest offset memory with
  | zero => rfl
  | succ count ih =>
    have hnext : uadd dest 1 = dest + 1 := uadd_of_lt (by omega)
    have hindex : (fun i => src (offset + (i + 1))) = fun i => src (offset + 1 + i) := by
      funext i
      rw [Nat.add_assoc, Nat.add_comm 1 i]
    rw [writeUser, List.range_succ_eq_map, List.map_cons, List.map_map,
      UserMemory.memcpyCatchFault]
    split_ifs with hwritable
    · dsimp only
      rw [hnext, ih (by omega)]
      exact congrArg _ (congrArg (List.map · _) hindex.symm)
    · rfl

lemma copyToUser_fst (memory : UserMemory) (dest : ℕ) {src : List (BitVec 8)}
    (hsize : src.length < 2 ^ 63) :
    (copyToUser memory dest (fun i => src.getD i 0) src.length).1 =
      Fluke.copyToUser memory dest src := by
  have hbytes : ((List.range src.length).map fun i => src.getD (0 + i) 0) = src := by
    refine List.ext_getElem (by simp) fun i hi hi' => ?_
    rw [List.getElem_map, List.getElem_range, Nat.zero_add, List.getD_eq_getElem?_getD,
      List.getElem?_eq_getElem hi', Option.getD_some]
  rw [copyToUser, Fluke.copyToUser]
  cases hcheck : checkUserRange dest src.length with
  | error e => rfl
  | ok u =>
    obtain ⟨-, hend⟩ := (checkUserRange_eq_ok (by omega)).mp hcheck
    have hwrite := @writeUser_fst (fun i => src.getD i 0) src.length dest
      (by simp only [memLowHalfMax] at hend; omega) 0 memory
    rw [hbytes] at hwrite
    dsimp only
    rw [Int.toNat_natCast, ← hwrite]

lemma repMovsb_fst (cr3 : Frame) (count dest source : ℕ) (src : Word) (s : Pmm) :
    (repMovsb cr3 count dest source src s).1 = Fluke.repMovsb cr3 count dest src s := by
  induction count generalizing dest source src s with
  | zero => rfl
  | succ count ih =>
    rw [repMovsb, Fluke.repMovsb]
    cases storeAddress s.memory cr3 dest with
    | none => rfl
    | some target => exact ih ..

lemma memcpyCatchFault_fst (cr3 : Frame) (dest source : ℕ) (src : Word) (size catchFault : ℕ)
    (s : Pmm) : (memcpyCatchFault cr3 dest source src size catchFault s).1 =
      Fluke.memcpyCatchFault cr3 dest src size catchFault s := by
  rw [memcpyCatchFault, Fluke.memcpyCatchFault, ← repMovsb_fst cr3 size dest source src s]
  rcases repMovsb cr3 size dest source src s with ⟨⟨_ | _, s⟩, touched⟩ <;> rfl

lemma copyPages_fst (cr3 sourceMap : Frame) (destAddr sourceAddr count : ℕ) (s : Pmm) :
    (copyPages cr3 sourceMap destAddr sourceAddr count s).1 =
      Fluke.copyPages cr3 sourceMap destAddr sourceAddr count s := by
  induction count using Nat.strong_induction_on generalizing destAddr sourceAddr s with
  | _ count ih =>
    rw [copyPages, Fluke.copyPages]
    split_ifs with hzero
    · rfl
    dsimp only
    rw [← memcpyCatchFault_fst cr3 destAddr sourceAddr]
    rcases memcpyCatchFault cr3 destAddr sourceAddr (virtToPhys s.memory sourceMap sourceAddr)
      (min (pageSize - sourceAddr % pageSize) count) (memcpyFaultRead ||| memcpyFaultWrite) s with
      ⟨_ | ⟨err, s'⟩, touched⟩
    · rfl
    · dsimp only
      split_ifs with herr
      · rfl
      · refine ih _ ?_ _ _ _
        simp only [pageSize]
        omega

lemma memcpyUserUserCatchFault_fst {α : Type} [DecidableEq α] (currentThread : Option α)
    (destMap : Frame) (destAddr : ℕ) (sourceMap : Frame) (sourceAddr : ℕ) (size : ℤ)
    (m : MmuState) :
    (memcpyUserUserCatchFault currentThread destMap destAddr sourceMap sourceAddr size m).1 =
      Fluke.memcpyUserUserCatchFault currentThread destMap destAddr sourceMap sourceAddr size
        m := by
  rw [memcpyUserUserCatchFault, Fluke.memcpyUserUserCatchFault]
  cases checkUserRange sourceAddr size with
  | error e => rfl
  | ok u =>
    cases checkUserRange destAddr size with
    | error e => rfl
    | ok u =>
      dsimp only
      rw [← copyPages_fst]
      cases assert (currentThread = none) .noCurrentThread with
      | error e => rfl
      | ok u =>
        dsimp only
        rw [ok_bind]
        cases (copyPages destMap sourceMap destAddr sourceAddr size.toNat m.pmm).1 <;> rfl

lemma toIsize_of_le {a b : ℕ} (h : a ≤ b) (hb : b < 2 ^ 63) : toIsize a = a :=
  toIsize_of_lt (lt_of_le_of_lt h hb)

/-- The system calls are the ones modelled before. -/
lemma doSyscallOpenModule_fst (modules : List BootModule) (memory : ℕ → Option (BitVec 8))
    (c : CallState) :
    (doSyscallOpenModule modules memory c).1 = Fluke.doSyscallOpenModule modules memory c := by
  rw [doSyscallOpenModule, Fluke.doSyscallOpenModule]
  cases c.alloc with
  | error e => rfl
  | ok r =>
    rcases r with ⟨_ | ⟨fd, slot⟩, c'⟩
    · rfl
    · rw [ok_bind]
      dsimp only
      split_ifs with hlen
      · rfl
      · have hsize : toIsize c'.ctx.a1 = c'.ctx.a1 :=
          toIsize_of_le (Nat.le_of_not_lt hlen) (by decide)
        rewrite [hsize, ← copyFromUser_fst memory c'.ctx.a0 (by omega)]
        cases (copyFromUser memory c'.ctx.a0 c'.ctx.a1).1 <;> rfl

lemma doSyscallIpcCreate_fst (memory : ℕ → Option (BitVec 8)) (c : CallState) :
    (doSyscallIpcCreate memory c).1 = Fluke.doSyscallIpcCreate memory c := by
  rw [doSyscallIpcCreate, Fluke.doSyscallIpcCreate]
  dsimp only
  split_ifs with hlen
  · rfl
  · have hsize : toIsize c.ctx.a1 = c.ctx.a1 := toIsize_of_le (Nat.le_of_not_lt hlen) (by decide)
    simp only [transferMax] at hlen
    rewrite [hsize, ← copyFromUser_fst memory c.ctx.a0 (by omega)]
    cases (copyFromUser memory c.ctx.a0 c.ctx.a1).1 <;> rfl

/-! ### Confinement -/

end

end Touched

end Fluke
