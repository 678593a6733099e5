import Fluke.Mem.Memory
import Fluke.User.Irq

/-!
# Boot modules as handles

A boot module is read through a handle like a file. The handle has one position, which all
descriptors that share it move. The bounds on the position are what keeps a read inside the module.
-/

namespace Fluke

open Outcome

/-! ### Copying to user memory -/

/-- The bytes of an address space, and which of them its user may write -/
structure UserMemory where
  byte : ℕ → BitVec 8
  writable : ℕ → Bool

/-- `memcpy_catch_fault` with a user destination, and whether it was stopped by a fault; what was
written before the fault stays. -/
def UserMemory.memcpyCatchFault (memory : UserMemory) : ℕ → List (BitVec 8) → Bool × UserMemory
  | _, [] => (false, memory)
  | dest, byte :: src =>
    if memory.writable dest then
      { memory with byte := Function.update memory.byte dest byte }.memcpyCatchFault (dest + 1) src
    else (true, memory)

/-- `copy_to_user` -/
def copyToUser (memory : UserMemory) (dest : ℕ) (src : List (BitVec 8)) :
    Result Unit × UserMemory :=
  match checkUserRange dest src.length with
  | .error e => (.error e, memory)
  | .ok () =>
    let (fault, memory) := memory.memcpyCatchFault dest src
    (if fault then .error .EFAULT else .ok (), memory)

/-- The memory from `dest` on has been overwritten by some of the bytes, and all of them when there
was no fault. -/
structure Copied (memory : UserMemory) (dest : ℕ) (src : List (BitVec 8)) (fault : Bool)
    (memory' : UserMemory) : Prop where
  bytes : fault = false → ∀ i (h : i < src.length), memory'.byte (dest + i) = src[i]
  frame : ∀ a, a < dest ∨ dest + src.length ≤ a → memory'.byte a = memory.byte a
  writable : memory'.writable = memory.writable

lemma UserMemory.memcpyCatchFault_spec (src : List (BitVec 8)) :
    ∀ (memory : UserMemory) (dest : ℕ), Copied memory dest src
      (memory.memcpyCatchFault dest src).1 (memory.memcpyCatchFault dest src).2 := by
  induction src with
  | nil =>
    intro memory dest
    exact ⟨fun _ i hi => absurd hi (Nat.not_lt_zero i), fun _ _ => rfl, rfl⟩
  | cons byte src ih =>
    intro memory dest
    rw [UserMemory.memcpyCatchFault]
    split_ifs with hwritable
    · have hrest := ih { memory with byte := Function.update memory.byte dest byte } (dest + 1)
      refine ⟨fun hfault i hi => ?_, fun a ha => ?_, hrest.writable⟩
      · cases i with
        | zero =>
          have hfirst := hrest.frame dest (Or.inl (Nat.lt_succ_self dest))
          exact hfirst.trans (Function.update_self ..)
        | succ i =>
          have hi' : i < src.length := by simpa using hi
          have hbyte := hrest.bytes hfault i hi'
          rwa [Nat.add_assoc, Nat.add_comm 1 i] at hbyte
      · rw [List.length_cons] at ha
        rw [hrest.frame a (by omega)]
        exact Function.update_of_ne (by omega) ..
    · exact ⟨fun hfault => (by cases hfault), fun _ _ => rfl, rfl⟩

lemma copyToUser_spec (memory : UserMemory) (dest : ℕ) (src : List (BitVec 8)) :
    (∃ e, (copyToUser memory dest src).1 = .error e ∧
      Copied memory dest src true (copyToUser memory dest src).2) ∨
    ((copyToUser memory dest src).1 = .ok () ∧
      Copied memory dest src false (copyToUser memory dest src).2) := by
  rw [copyToUser]
  cases checkUserRange dest src.length with
  | error e => exact Or.inl ⟨e, rfl, fun hfault => (by cases hfault), fun _ _ => rfl, rfl⟩
  | ok u =>
    have hcopied := UserMemory.memcpyCatchFault_spec src memory dest
    dsimp only
    cases hfault : (memory.memcpyCatchFault dest src).1 with
    | true =>
      rw [hfault] at hcopied
      exact Or.inl ⟨.EFAULT, rfl, hcopied⟩
    | false =>
      rw [hfault] at hcopied
      exact Or.inr ⟨rfl, hcopied⟩

/-! ### The handle -/

/-- `SEEK_SET` -/
def seekSet : ℤ := 1
/-- `SEEK_CUR` -/
def seekCur : ℤ := 2
/-- `SEEK_END` -/
def seekEnd : ℤ := 3

/-- `struct Module`: the bytes at `address`, whose number is `size`, and the position -/
structure ModuleHandle where
  data : List (BitVec 8)
  offset : ℤ

/-- `size` -/
def ModuleHandle.size (m : ModuleHandle) : ℤ := m.data.length

/-- `handle_open_module` on the bytes of a module -/
def ModuleHandle.opened (data : List (BitVec 8)) : ModuleHandle := ⟨data, 0⟩

/-- `a + b` on `isize` -/
def isizeAdd (a b : ℤ) : ℤ := (a + b).bmod (2 ^ 64)

/-- `Module::read` -/
def ModuleHandle.read (m : ModuleHandle) (dest : ℕ) (len : ℤ) (memory : UserMemory) :
    Except Panic (Result ℤ × ModuleHandle × UserMemory) := do
  assert (len > 0) .readLength
  let bytes := min len (m.size - m.offset)
  if bytes = 0 then .ok (.ok 0, m, memory)
  else
    match copyToUser memory dest ((m.data.drop m.offset.toNat).take bytes.toNat) with
    | (.error e, memory) => .ok (.error e, m, memory)
    | (.ok (), memory) => .ok (.ok bytes, { m with offset := m.offset + bytes }, memory)

/-- The position `Module::seek` is asked for; nothing when `whence` is not known. -/
def ModuleHandle.seekTarget (m : ModuleHandle) (offset whence : ℤ) : Option ℤ :=
  if whence = seekSet then some offset
  else if whence = seekCur then some (isizeAdd offset m.offset)
  else if whence = seekEnd then some (isizeAdd offset m.size)
  else none

/-- `Module::seek` -/
def ModuleHandle.seek (m : ModuleHandle) (offset whence : ℤ) : Result ℤ × ModuleHandle :=
  match m.seekTarget offset whence with
  | none => (.error .EINVAL, m)
  | some offset =>
    if offset < 0 ∨ offset > m.size then (.error .EINVAL, m)
    else (.ok offset, { m with offset := offset })

/-- `ISIZE_MAX` -/
abbrev isizeMax : ℕ := 2 ^ 63 - 1

/-- A call on a descriptor of the handle, with the registers it is given -/
inductive ModuleCall where
  | read (a1 a2 : Word)
  | seek (a1 a2 : Word)

/-- `do_syscall_read` and `do_syscall_seek`, on a descriptor of the handle -/
def ModuleCall.run : ModuleCall → ModuleHandle × UserMemory →
    Except Panic (Result ℤ × ModuleHandle × UserMemory)
  | .read a1 a2, (m, memory) =>
    let len : ℤ := (min a2.toNat isizeMax : ℕ)
    match checkUserRange a1.toNat len with
    | .error e => .ok (.error e, m, memory)
    | .ok () => m.read a1.toNat len memory
  | .seek a1 a2, (m, memory) =>
    let (r, m) := m.seek a1.toInt (toInt a2.toNat)
    .ok (r, m, memory)

/-! ### The position -/

/-- The position lies in the module, whose size is an `isize`. -/
structure ModuleHandle.Ok (m : ModuleHandle) : Prop where
  nonempty : 0 < m.size
  size : m.size < 2 ^ 63
  nonneg : 0 ≤ m.offset
  le : m.offset ≤ m.size

/-- Where a seek is to go, without regard to the range of an `isize` -/
def ModuleHandle.seekGoal (m : ModuleHandle) (offset whence : ℤ) : Option ℤ :=
  if whence = seekSet then some offset
  else if whence = seekCur then some (offset + m.offset)
  else if whence = seekEnd then some (offset + m.size)
  else none

/-- What a read leaves -/
structure ReadSpec (m : ModuleHandle) (memory : UserMemory) (dest : ℕ) (len : ℤ)
    (r : Result ℤ × ModuleHandle × UserMemory) : Prop where
  data : r.2.1.data = m.data
  done : ∀ n, r.1 = .ok n → n = min len (m.size - m.offset) ∧ r.2.1.offset = m.offset + n ∧
    (∀ i (h : m.offset.toNat + i < m.data.length), (i : ℤ) < n →
      r.2.2.byte (dest + i) = m.data[m.offset.toNat + i]) ∧
    ∀ a : ℕ, a < dest ∨ dest + n ≤ a → r.2.2.byte a = memory.byte a
  failed : ∀ e, r.1 = .error e → r.2.1.offset = m.offset

/-- What a seek leaves -/
structure SeekSpec (m : ModuleHandle) (offset whence : ℤ)
    (r : Result ℤ × ModuleHandle) : Prop where
  data : r.2.data = m.data
  done : ∀ goal, m.seekGoal offset whence = some goal → 0 ≤ goal → goal ≤ m.size →
    r.1 = .ok goal ∧ r.2.offset = goal
  failed : (∀ goal, m.seekGoal offset whence = some goal → goal < 0 ∨ m.size < goal) →
    r.1 = .error .EINVAL ∧ r.2.offset = m.offset

/-- A sum that wraps around is negative, so that the test refuses it. -/
lemma isizeAdd_inRange {a b size : ℤ} (ha : -2 ^ 63 ≤ a) (ha' : a < 2 ^ 63) (hb : 0 ≤ b)
    (hb' : b < 2 ^ 63) (hsize : size < 2 ^ 63) :
    (0 ≤ isizeAdd a b ∧ isizeAdd a b ≤ size ↔ 0 ≤ a + b ∧ a + b ≤ size) ∧
      (0 ≤ a + b ∧ a + b ≤ size → isizeAdd a b = a + b) := by
  rw [isizeAdd, Int.bmod_def]
  split_ifs with h <;> omega

section

variable {m : ModuleHandle} {offset whence : ℤ}

/-- The target that is computed passes the test just when the one that is meant does, and then
they are the same. -/
lemma ModuleHandle.seekTarget_spec (hm : m.Ok) (hlo : -2 ^ 63 ≤ offset) (hhi : offset < 2 ^ 63) :
    (m.seekGoal offset whence = none ∧ m.seekTarget offset whence = none) ∨
    ∃ goal target, m.seekGoal offset whence = some goal ∧ m.seekTarget offset whence = some target ∧
      (0 ≤ target ∧ target ≤ m.size ↔ 0 ≤ goal ∧ goal ≤ m.size) ∧
      (0 ≤ goal ∧ goal ≤ m.size → target = goal) := by
  have hnonneg := hm.nonneg
  have hle := hm.le
  have hsize := hm.size
  have hpos := hm.nonempty
  rw [ModuleHandle.seekGoal, ModuleHandle.seekTarget]
  split_ifs with hset hcur hend
  · exact Or.inr ⟨offset, offset, rfl, rfl, Iff.rfl, fun _ => rfl⟩
  · have hadd := isizeAdd_inRange hlo hhi hnonneg (by omega) hsize
    exact Or.inr ⟨_, _, rfl, rfl, hadd.1, hadd.2⟩
  · have hadd := isizeAdd_inRange hlo hhi hpos.le hsize hsize
    exact Or.inr ⟨_, _, rfl, rfl, hadd.1, hadd.2⟩
  · exact Or.inl ⟨rfl, rfl⟩

lemma ModuleHandle.seek_spec (hm : m.Ok) (hlo : -2 ^ 63 ≤ offset) (hhi : offset < 2 ^ 63) :
    SeekSpec m offset whence (m.seek offset whence) := by
  rcases @ModuleHandle.seekTarget_spec m offset whence hm hlo hhi with
    ⟨hgoal, htarget⟩ | ⟨goal, target, hgoal, htarget, hrange, heq⟩
  · rw [ModuleHandle.seek, htarget]
    refine ⟨rfl, fun goal hsome => ?_, fun _ => ⟨rfl, rfl⟩⟩
    rw [hgoal] at hsome
    cases hsome
  · rw [ModuleHandle.seek, htarget]
    dsimp only
    split_ifs with hout
    · refine ⟨rfl, fun goal' hsome h0 hle => ?_, fun _ => ⟨rfl, rfl⟩⟩
      rw [hgoal, Option.some.injEq] at hsome
      subst hsome
      have hin := hrange.mpr ⟨h0, hle⟩
      omega
    · refine ⟨rfl, fun goal' hsome h0 hle => ?_, fun hnone => ?_⟩
      · rw [hgoal, Option.some.injEq] at hsome
        subst hsome
        rw [heq ⟨h0, hle⟩]
        exact ⟨rfl, rfl⟩
      · have hin := hrange.mp (by omega)
        have hgoalOut := hnone goal hgoal
        omega

lemma SeekSpec.ok {r : Result ℤ × ModuleHandle} (h : SeekSpec m offset whence r) (hm : m.Ok) :
    r.2.Ok := by
  have hsize : r.2.size = m.size := by
    rw [ModuleHandle.size, h.data, ModuleHandle.size]
  by_cases hgoal : ∃ goal, m.seekGoal offset whence = some goal ∧ 0 ≤ goal ∧ goal ≤ m.size
  · obtain ⟨goal, hsome, h0, hle⟩ := hgoal
    have hoffset := (h.done goal hsome h0 hle).2
    exact ⟨hsize ▸ hm.nonempty, hsize ▸ hm.size, hoffset ▸ h0, by rw [hoffset, hsize]; exact hle⟩
  · have hoffset := (h.failed fun goal hsome => ?_).2
    · exact ⟨hsize ▸ hm.nonempty, hsize ▸ hm.size, hoffset ▸ hm.nonneg,
        by rw [hoffset, hsize]; exact hm.le⟩
    · by_contra hin
      exact hgoal ⟨goal, hsome, by omega, by omega⟩

lemma ModuleHandle.read_spec (hm : m.Ok) {len : ℤ} (hlen : 0 < len) (dest : ℕ)
    (memory : UserMemory) :
    Ensures (fun _ => False) (ReadSpec m memory dest len) (m.read dest len memory) := by
  have hnonneg := hm.nonneg
  have hle := hm.le
  have hassert : assert (len > 0) .readLength = .ok () := assert_eq_ok.mpr (decide_eq_true hlen)
  rw [ModuleHandle.read, hassert, ok_bind]
  dsimp only
  split_ifs with hzero
  · refine ⟨rfl, fun n hn => ?_, fun e he => (by cases he)⟩
    cases hn
    refine ⟨hzero.symm, (add_zero _).symm, fun i _ hi => ?_, fun _ _ => rfl⟩
    omega
  · set bytes := min len (m.size - m.offset) with hbytes
    have hsize : m.size = m.data.length := rfl
    have hlength : ((m.data.drop m.offset.toNat).take bytes.toNat).length = bytes.toNat := by
      rw [List.length_take, List.length_drop]
      omega
    rcases copyToUser_spec memory dest ((m.data.drop m.offset.toNat).take bytes.toNat) with
      ⟨e, herr, -⟩ | ⟨hok, hcopied⟩
    · cases hcopy : copyToUser memory dest ((m.data.drop m.offset.toNat).take bytes.toNat) with
      | mk r memory' =>
        rw [hcopy] at herr
        dsimp only at herr
        subst herr
        exact ⟨rfl, fun n hn => (by cases hn), fun _ _ => rfl⟩
    · cases hcopy : copyToUser memory dest ((m.data.drop m.offset.toNat).take bytes.toNat) with
      | mk r memory' =>
        rw [hcopy] at hok hcopied
        dsimp only at hok
        subst hok
        refine ⟨rfl, fun n hn => ?_, fun e he => (by cases he)⟩
        cases hn
        refine ⟨rfl, rfl, fun i hi hlt => ?_, fun a ha => ?_⟩
        · rw [hcopied.bytes rfl i (by omega)]
          simp
        · exact hcopied.frame a (by omega)

lemma ReadSpec.ok {memory : UserMemory} {dest : ℕ} {len : ℤ}
    {r : Result ℤ × ModuleHandle × UserMemory} (h : ReadSpec m memory dest len r) (hm : m.Ok)
    (hlen : 0 < len) : r.2.1.Ok := by
  have hnonneg := hm.nonneg
  have hle := hm.le
  have hsize : r.2.1.size = m.size := by
    rw [ModuleHandle.size, h.data, ModuleHandle.size]
  cases hr : r.1 with
  | ok n =>
    obtain ⟨hn, hoffset, -⟩ := h.done n hr
    exact ⟨hsize ▸ hm.nonempty, hsize ▸ hm.size, by omega, by omega⟩
  | error e =>
    have hoffset := h.failed e hr
    exact ⟨hsize ▸ hm.nonempty, hsize ▸ hm.size, hoffset ▸ hnonneg, by omega⟩

end

/-! ### Runs -/

/-- What a call returns and leaves, whatever its registers hold -/
def ModuleCall.Spec (call : ModuleCall) (m : ModuleHandle) (memory : UserMemory)
    (r : Result ℤ × ModuleHandle × UserMemory) : Prop :=
  match call with
  | .read a1 a2 => ReadSpec m memory a1.toNat a2.toNat r
  | .seek a1 a2 => SeekSpec m a1.toInt (toInt a2.toNat) (r.1, r.2.1) ∧ r.2.2 = memory

lemma ModuleCall.run_spec (call : ModuleCall) {m : ModuleHandle} (hm : m.Ok)
    (memory : UserMemory) :
    Ensures (fun _ => False) (fun r => call.Spec m memory r ∧ r.2.1.Ok)
      (call.run (m, memory)) := by
  cases call with
  | read a1 a2 =>
    rw [ModuleCall.run]
    cases hrange : checkUserRange a1.toNat (min a2.toNat isizeMax : ℕ) with
    | error e => exact ⟨⟨rfl, fun n hn => (by cases hn), fun _ _ => rfl⟩, hm⟩
    | ok u =>
      have hlen : (0 : ℤ) < (min a2.toNat isizeMax : ℕ) := by
        refine ((checkUserRange_eq_ok ?_).mp hrange).1
        simp only [isizeMax]
        omega
      refine (ModuleHandle.read_spec hm hlen a1.toNat memory).imp fun r hr => ⟨?_, hr.ok hm hlen⟩
      refine ⟨hr.data, fun n hn => ?_, hr.failed⟩
      obtain ⟨hmin, hrest⟩ := hr.done n hn
      refine ⟨?_, hrest⟩
      have hsize := hm.size
      have hnonneg := hm.nonneg
      rw [hmin]
      simp only [isizeMax]
      omega
  | seek a1 a2 =>
    have hseek := @ModuleHandle.seek_spec m _ (toInt a2.toNat) hm (BitVec.le_toInt a1)
      (BitVec.toInt_lt (x := a1))
    exact ⟨⟨hseek, rfl⟩, hseek.ok hm⟩

/-- One call on the handle, with the memory of the process that makes it -/
def moduleStep (call : ModuleCall × UserMemory) (m : ModuleHandle) : Except Panic ModuleHandle := do
  let (_, m, _) ← call.1.run (m, call.2)
  .ok m

/-- Whatever calls have been made on a handle, by whichever processes: the position lies in the
module, and the next call reads what stands there or moves it where it is asked to. -/
theorem moduleHandle_calls {data : List (BitVec 8)} (hpos : 0 < data.length)
    (hlt : data.length < 2 ^ 63) {m : ModuleHandle}
    (h : Reachable (fun m => m = ModuleHandle.opened data) (fun _ _ => True) moduleStep m) :
    m.data = data ∧ 0 ≤ m.offset ∧ m.offset ≤ m.size ∧
      ∀ call memory, Ensures (fun _ => False) (ModuleCall.Spec call m memory)
        (call.run (m, memory)) := by
  have hinv : m.data = data ∧ m.Ok := by
    refine h.invariant (I := fun m => m.data = data ∧ m.Ok) ?_ ?_
    · rintro m rfl
      refine ⟨rfl, ?_, ?_, le_rfl, ?_⟩ <;>
        simp only [ModuleHandle.size, ModuleHandle.opened] <;> omega
    · rintro ⟨call, memory⟩ m m' ⟨hdata, hm⟩ - hstep
      obtain ⟨r, hr, hm'⟩ := bind_eq_ok.mp hstep
      cases hm'
      obtain ⟨hspec, hok⟩ := (call.run_spec hm memory).of_eq_ok hr
      refine ⟨Eq.trans ?_ hdata, hok⟩
      cases call with
      | read a1 a2 => exact hspec.data
      | seek a1 a2 => exact hspec.1.data
  exact ⟨hinv.1, hinv.2.nonneg, hinv.2.le,
    fun call memory => (call.run_spec hinv.2 memory).imp fun _ hr => hr.1⟩

/-- A process that may write to all of its memory -/
def writableMemory : UserMemory := ⟨fun _ => 0, fun _ => true⟩

/-- A module of five bytes: two have been read when the process seeks to four before the end, and
then it reads the rest. -/
theorem moduleHandle_calls_five :
    (ModuleHandle.mk [1, 2, 3, 4, 5] 5).data = [1, 2, 3, 4, 5] ∧
      0 ≤ (ModuleHandle.mk [1, 2, 3, 4, 5] 5).offset ∧
      (ModuleHandle.mk [1, 2, 3, 4, 5] 5).offset ≤ (ModuleHandle.mk [1, 2, 3, 4, 5] 5).size ∧
      ∀ call memory, Ensures (fun _ => False)
        (ModuleCall.Spec call (ModuleHandle.mk [1, 2, 3, 4, 5] 5) memory)
        (call.run (ModuleHandle.mk [1, 2, 3, 4, 5] 5, memory)) := by
  have hread : moduleStep (.read 0x1000 2, writableMemory) (.opened [1, 2, 3, 4, 5]) =
      .ok ⟨[1, 2, 3, 4, 5], 2⟩ := rfl
  have hseek : moduleStep (.seek (-4) 3, writableMemory) ⟨[1, 2, 3, 4, 5], 2⟩ =
      .ok ⟨[1, 2, 3, 4, 5], 1⟩ := rfl
  have hrest : moduleStep (.read 0x2000 8, writableMemory) ⟨[1, 2, 3, 4, 5], 1⟩ =
      .ok ⟨[1, 2, 3, 4, 5], 5⟩ := rfl
  exact moduleHandle_calls (by decide) (by decide)
    (.step _ (.step _ (.step _ (.init rfl) trivial hread) trivial hseek) trivial hrest)

end Fluke
