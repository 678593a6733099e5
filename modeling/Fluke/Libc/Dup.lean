import Fluke.User.Descriptor.Syscalls

/-!
# Duplicating descriptors

`dup`, `dup2` and `dup3` are one system call. `dup` reports what the kernel did. `dup2` returns a
descriptor equal to the old one without a look at the table. `dup3` drops what the kernel returned
and always reports a bad descriptor.
-/

namespace Fluke.Libc

open Outcome

/-- A process in the library: `errno`, and what the kernel works on -/
structure DupState where
  errno : ℤ
  kernel : CallState

/-- The descriptors of the process -/
def DupState.map (s : DupState) : ℤ → Descriptor := s.kernel.table.toMap

/-- An `int` as an argument of a system call -/
def intArgument (a : BitVec 32) : ℕ := (a.signExtend 64).toNat

/-- The value of a system call in `rax` -/
def sysret : Result ℕ → Word
  | .ok n => BitVec.ofNat 64 n
  | .error e => -BitVec.ofNat 64 e.value

/-- The process that enters the system call `dup` -/
def DupState.enter (s : DupState) (oldfd newfd flags : BitVec 32) : CallState :=
  { s.kernel with
    ctx := { s.kernel.ctx with
      a0 := intArgument oldfd, a1 := intArgument newfd, a2 := intArgument flags } }

/-- `_dup` -/
def dupSyscall (oldfd newfd flags : BitVec 32) (s : DupState) :
    Except Panic (BitVec 32 × DupState) := do
  let (r, kernel) ← doSyscallDup (s.enter oldfd newfd flags)
  let newfd := (sysret r).setWidth 32
  if newfd.toInt ≥ 0 then .ok (newfd, { s with kernel := kernel })
  else .ok (-1, { errno := (-newfd).toInt, kernel := kernel })

/-- `dup` -/
def dup (oldfd : BitVec 32) (s : DupState) : Except Panic (BitVec 32 × DupState) :=
  dupSyscall oldfd (-1) 0 s

/-- `dup2` -/
def dup2 (oldfd newfd : BitVec 32) (s : DupState) : Except Panic (BitVec 32 × DupState) :=
  if oldfd = newfd then .ok (newfd, s)
  else if newfd.toInt ≥ 0 then dupSyscall oldfd newfd 0 s
  else .ok (-1, { s with errno := ErrorCode.EBADF.value })

/-- `dup3`; the result of `_dup` is not used. -/
def dup3 (oldfd newfd flags : BitVec 32) (s : DupState) : Except Panic (BitVec 32 × DupState) :=
  if newfd.toInt ≥ 0 then do
    let (_, s) ← dupSyscall oldfd newfd flags s
    .ok (-1, { s with errno := ErrorCode.EBADF.value })
  else .ok (-1, { s with errno := ErrorCode.EBADF.value })

/-! ### What the calls should report -/

/-- The kernel returns the error. -/
def KernelFails (s : DupState) (oldfd newfd flags : BitVec 32) (e : ErrorCode) : Prop :=
  ∃ kernel, doSyscallDup (s.enter oldfd newfd flags) = .ok (.error e, kernel)

/-- A descriptor is returned that refers to the object of the old one, or the error is reported and
the table is as it was. -/
def Reports (s : DupState) (oldfd : BitVec 32) (lands : ℤ → Prop) (cloexec : TaggedHandle → Bool)
    (fails : ErrorCode → Prop) (r : BitVec 32 × DupState) : Prop :=
  (∃ tagged, s.map oldfd.toInt = some tagged ∧ 0 ≤ r.1.toInt ∧ lands r.1.toInt ∧
    r.2.map = Function.update s.map r.1.toInt (some ⟨tagged.handle, cloexec tagged⟩)) ∨
  (r.1 = -1 ∧ r.2.map = s.map ∧ ∃ e, fails e ∧ r.2.errno = e.value)

/-- `dup` fills the least descriptor that is free. -/
def DupReports (s : DupState) (oldfd : BitVec 32) : BitVec 32 × DupState → Prop :=
  Reports s oldfd
    (fun fd => s.map fd = none ∧ ∀ fd' : ℤ, 0 ≤ fd' → fd' < fd → s.map fd' ≠ none)
    (fun _ => false) (KernelFails s oldfd (-1) 0)

/-- `dup2` fills the new descriptor; an open one that is equal to the old one is left alone. -/
def Dup2Reports (s : DupState) (oldfd newfd : BitVec 32) : BitVec 32 × DupState → Prop :=
  Reports s oldfd (· = newfd.toInt) (fun tagged => oldfd = newfd && tagged.cloexec)
    fun e => if oldfd = newfd ∨ newfd.toInt < 0 then e = .EBADF else KernelFails s oldfd newfd 0 e

/-- `dup3` fills the new descriptor, with the flag asked for. -/
def Dup3Reports (s : DupState) (oldfd newfd flags : BitVec 32) : BitVec 32 × DupState → Prop :=
  Reports s oldfd (· = newfd.toInt) (fun _ => flags.getLsbD 6)
    fun e => if newfd.toInt < 0 then e = .EBADF else KernelFails s oldfd newfd flags e

section

variable {oldfd newfd flags : BitVec 32} {s : DupState} {other : HandleId → ℕ}

/-! ### The system call -/

lemma toInt_intArgument (a : BitVec 32) : toInt (intArgument a) = a.toInt := by
  have hwidth : (a.signExtend 64).setWidth 32 = a := by
    apply BitVec.eq_of_getLsbD_eq
    intro i hi
    have hi' : i < 64 := by omega
    rw [BitVec.getLsbD_setWidth, BitVec.getLsbD_signExtend, if_pos hi]
    simp [hi, hi']
  have hlow : intArgument a % 2 ^ 32 = a.toNat := by
    rw [intArgument, ← BitVec.toNat_setWidth, hwidth]
  have hlt := a.isLt
  rw [toInt, hlow, BitVec.toInt_eq_toNat_cond]
  split_ifs <;> omega

/-- An error of the kernel is a small negative number. -/
lemma sysret_error (e : ErrorCode) : ((sysret (.error e)).setWidth 32).toInt < 0 ∧
    (-(sysret (.error e)).setWidth 32).toInt = e.value := by
  cases e <;> decide

lemma sysret_ok {fd : ℕ} (h : fd < 72) : ((sysret (.ok fd)).setWidth 32).toInt = fd := by
  rw [sysret, BitVec.toInt_eq_toNat_cond, BitVec.toNat_setWidth, BitVec.toNat_ofNat]
  split_ifs <;> omega

lemma dupSyscall_ok {fd : ℕ} {kernel : CallState} (h : fd < 72)
    (hk : doSyscallDup (s.enter oldfd newfd flags) = .ok (.ok fd, kernel)) :
    dupSyscall oldfd newfd flags s =
      .ok ((sysret (.ok fd)).setWidth 32, { s with kernel := kernel }) := by
  rw [dupSyscall, hk, ok_bind]
  dsimp only
  rw [if_pos]
  rw [sysret_ok h]
  exact Int.natCast_nonneg fd

lemma dupSyscall_error {e : ErrorCode} {kernel : CallState}
    (hk : doSyscallDup (s.enter oldfd newfd flags) = .ok (.error e, kernel)) :
    dupSyscall oldfd newfd flags s = .ok (-1, { errno := e.value, kernel := kernel }) := by
  obtain ⟨hneg, hvalue⟩ := sysret_error e
  rw [dupSyscall, hk, ok_bind]
  dsimp only
  rw [if_neg (not_le.mpr hneg), hvalue]

/-- The kernel finds no old descriptor, or no place for the new one. -/
def BadDescriptor (s : DupState) (oldfd newfd : BitVec 32) : Prop :=
  oldfd ≠ newfd ∧ (s.map oldfd.toInt = none ∨ 72 ≤ newfd.toInt)

/-- What the kernel did, on the map of the process -/
lemma doSyscallDup_enter (hrefs : RefsOk s.kernel.table other s.kernel.objects.toHandles)
    (hc : s.kernel.objects.heap.pmm.Counted) (oldfd newfd flags : BitVec 32) :
    (∃ fd kernel tagged, doSyscallDup (s.enter oldfd newfd flags) = .ok (.ok fd, kernel) ∧
      fd < 72 ∧ Lands s.kernel.table newfd.toInt fd ∧ s.map oldfd.toInt = some tagged ∧
      kernel.table.toMap = Function.update s.map fd
        (some ⟨tagged.handle, intArgument flags &&& openCloexec != 0⟩) ∧
      ¬ BadDescriptor s oldfd newfd) ∨
    (∃ e kernel, doSyscallDup (s.enter oldfd newfd flags) = .ok (.error e, kernel) ∧
      kernel.table.toMap = s.map ∧ (e = .EBADF ↔ BadDescriptor s oldfd newfd)) := by
  have hspec := @doSyscallDup_map (s.enter oldfd newfd flags) other hrefs hc
  have hbad : BadDescriptor s oldfd newfd ↔
      toInt (intArgument oldfd) ≠ toInt (intArgument newfd) ∧
        (s.map (toInt (intArgument oldfd)) = none ∨ 72 ≤ toInt (intArgument newfd)) := by
    rw [BadDescriptor, toInt_intArgument, toInt_intArgument, ne_eq, ne_eq, BitVec.toInt_inj]
  obtain ⟨⟨r, kernel⟩, hk, hmap⟩ := hspec.exists_ok
  have hbadf := hmap.badf.trans hbad.symm
  cases r with
  | ok fd =>
    left
    obtain ⟨hlt, hlands, tagged, hold, hupdate⟩ := hmap.done fd rfl
    rw [← toInt_intArgument newfd, ← toInt_intArgument oldfd]
    exact ⟨fd, kernel, tagged, hk, hlt, hlands, hold, hupdate, fun h => by cases hbadf.mpr h⟩
  | error e =>
    right
    rw [Except.error.injEq] at hbadf
    exact ⟨e, kernel, hk, hmap.failed e rfl, hbadf⟩

/-- `_dup` reports what the kernel did. -/
lemma dupSyscall_reports (hrefs : RefsOk s.kernel.table other s.kernel.objects.toHandles)
    (hc : s.kernel.objects.heap.pmm.Counted) (oldfd newfd flags : BitVec 32) :
    ∃ r, dupSyscall oldfd newfd flags s = .ok r ∧
      Reports s oldfd (fun fd => Lands s.kernel.table newfd.toInt fd)
        (fun _ => intArgument flags &&& openCloexec != 0) (KernelFails s oldfd newfd flags) r := by
  rcases doSyscallDup_enter hrefs hc oldfd newfd flags with
    ⟨fd, kernel, tagged, hk, hlt, hlands, hold, hupdate, -⟩ | ⟨e, kernel, hk, hsame, -⟩
  · have hfd := sysret_ok hlt
    refine ⟨_, dupSyscall_ok hlt hk, Or.inl ⟨tagged, hold, ?_, ?_, ?_⟩⟩
    · rw [hfd]
      exact Int.natCast_nonneg fd
    · rw [hfd]
      exact hlands
    · rw [hfd]
      exact hupdate
  · exact ⟨_, dupSyscall_error hk, Or.inr ⟨rfl, hsame, e, ⟨kernel, hk⟩, rfl⟩⟩

/-- A weaker report -/
lemma Reports.imp {lands lands' : ℤ → Prop} {cloexec cloexec' : TaggedHandle → Bool}
    {fails fails' : ErrorCode → Prop} {r : BitVec 32 × DupState}
    (h : Reports s oldfd lands cloexec fails r) (hlands : ∀ fd, lands fd → lands' fd)
    (hcloexec : ∀ tagged, cloexec tagged = cloexec' tagged)
    (hfails : ∀ e, fails e → fails' e) : Reports s oldfd lands' cloexec' fails' r := by
  rcases h with ⟨tagged, hold, hpos, hland, hmap⟩ | ⟨hr, hmap, e, he, herrno⟩
  · rw [hcloexec] at hmap
    exact Or.inl ⟨tagged, hold, hpos, hlands _ hland, hmap⟩
  · exact Or.inr ⟨hr, hmap, e, hfails e he, herrno⟩

lemma dup_reports (hrefs : RefsOk s.kernel.table other s.kernel.objects.toHandles)
    (hc : s.kernel.objects.heap.pmm.Counted) (oldfd : BitVec 32) :
    ∃ r, dup oldfd s = .ok r ∧ DupReports s oldfd r := by
  obtain ⟨r, hr, hreports⟩ := dupSyscall_reports hrefs hc oldfd (-1) 0
  refine ⟨r, hr, hreports.imp (fun fd hlands => ?_) (fun _ => by decide) fun _ he => he⟩
  rw [Lands, if_neg (by decide)] at hlands
  exact hlands.2

lemma toMap_nonneg {t : DescriptorTable} {fd : ℤ} {tagged : TaggedHandle}
    (h : t.toMap fd = some tagged) : 0 ≤ fd := by
  by_contra hneg
  have hnone : slotOf fd = none := if_pos (lt_of_not_ge hneg)
  rw [DescriptorTable.toMap_of_none hnone] at h
  cases h

/-- Equal descriptors never reach the kernel. -/
lemma dup2_self_iff (fd : BitVec 32) :
    Dup2Reports s fd fd (fd, s) ↔
      s.map fd.toInt ≠ none ∨ (fd = -1 ∧ s.errno = ErrorCode.EBADF.value) := by
  constructor
  · rintro (⟨tagged, hold, -⟩ | ⟨hfd, -, e, he, herrno⟩)
    · rw [hold]
      exact Or.inl fun h => by cases h
    · rw [if_pos (Or.inl rfl)] at he
      rw [he] at herrno
      exact Or.inr ⟨hfd, herrno⟩
  · rintro (hopen | ⟨rfl, herrno⟩)
    · obtain ⟨tagged, htagged⟩ := Option.ne_none_iff_exists'.mp hopen
      refine Or.inl ⟨tagged, htagged, toMap_nonneg htagged, rfl, ?_⟩
      dsimp only
      rw [decide_eq_true rfl, Bool.true_and]
      exact (Function.update_eq_self_iff.mpr htagged.symm).symm
    · exact Or.inr ⟨rfl, rfl, .EBADF, (if_pos (Or.inl rfl)).mpr rfl, herrno⟩

lemma dup2_reports_iff (hrefs : RefsOk s.kernel.table other s.kernel.objects.toHandles)
    (hc : s.kernel.objects.heap.pmm.Counted) (oldfd newfd : BitVec 32) :
    ∃ r, dup2 oldfd newfd s = .ok r ∧ (Dup2Reports s oldfd newfd r ↔
      oldfd ≠ newfd ∨ s.map newfd.toInt ≠ none ∨
        (newfd = -1 ∧ s.errno = ErrorCode.EBADF.value)) := by
  by_cases hsame : oldfd = newfd
  · subst hsame
    refine ⟨(oldfd, s), if_pos rfl, ?_⟩
    rw [or_iff_right (not_not.mpr rfl)]
    exact dup2_self_iff oldfd
  · have hflag : ∀ tagged : TaggedHandle,
        (intArgument 0 &&& openCloexec != 0) = (decide (oldfd = newfd) && tagged.cloexec) := by
      intro tagged
      rw [decide_eq_false hsame]
      rfl
    rw [dup2, if_neg hsame]
    split_ifs with hpos
    · obtain ⟨r, hr, hreports⟩ := dupSyscall_reports hrefs hc oldfd newfd 0
      refine ⟨r, hr, iff_of_true (hreports.imp (fun fd hlands => ?_) hflag fun e he => ?_)
        (Or.inl hsame)⟩
      · rwa [Lands, if_pos hpos] at hlands
      · rwa [if_neg (by simp [hsame, hpos])]
    · have hneg : oldfd = newfd ∨ newfd.toInt < 0 := Or.inr (lt_of_not_ge hpos)
      exact ⟨_, rfl, iff_of_true (Or.inr ⟨rfl, rfl, .EBADF, (if_pos hneg).mpr rfl, rfl⟩)
        (Or.inl hsame)⟩

/-- No descriptor is reported. -/
lemma not_reported {p : Prop} (h : 0 ≤ (-1 : BitVec 32).toInt) : p := absurd h (by decide)

lemma value_eq_badf {e : ErrorCode} (h : e.value = ErrorCode.EBADF.value) : e = .EBADF := by
  cases e
  case EBADF => rfl
  all_goals exact absurd h (by decide)

lemma dup3_reports_iff (hrefs : RefsOk s.kernel.table other s.kernel.objects.toHandles)
    (hc : s.kernel.objects.heap.pmm.Counted) (oldfd newfd flags : BitVec 32) :
    ∃ r, dup3 oldfd newfd flags s = .ok r ∧ (Dup3Reports s oldfd newfd flags r ↔
      newfd.toInt < 0 ∨ BadDescriptor s oldfd newfd) := by
  rw [dup3]
  split_ifs with hpos
  · have hnonneg : ¬ newfd.toInt < 0 := not_lt.mpr hpos
    rw [or_iff_right hnonneg]
    rcases doSyscallDup_enter hrefs hc oldfd newfd flags with
      ⟨fd, kernel, tagged, hk, hlt, -, -, -, hbad⟩ | ⟨e, kernel, hk, hsame, hbadf⟩
    · rw [dupSyscall_ok hlt hk]
      refine ⟨_, rfl, iff_of_false ?_ hbad⟩
      rintro (⟨-, -, hr, -⟩ | ⟨-, -, e, he, -⟩)
      · exact not_reported hr
      · rw [if_neg hnonneg] at he
        obtain ⟨kernel', hk'⟩ := he
        rw [hk] at hk'
        cases hk'
    · rw [dupSyscall_error hk]
      refine ⟨_, rfl, ⟨?_, fun hbad => ?_⟩⟩
      · rintro (⟨-, -, hr, -⟩ | ⟨-, -, e', he', herrno⟩)
        · exact not_reported hr
        · rw [if_neg hnonneg] at he'
          obtain ⟨kernel', hk'⟩ := he'
          rw [hk] at hk'
          cases hk'
          exact hbadf.mp (value_eq_badf (Int.natCast_inj.mp herrno.symm))
      · refine Or.inr ⟨rfl, hsame, .EBADF, ?_, rfl⟩
        rw [hbadf.mpr hbad] at hk
        exact (if_neg hnonneg).symm ▸ ⟨kernel, hk⟩
  · have hneg : newfd.toInt < 0 := lt_of_not_ge hpos
    exact ⟨_, rfl, iff_of_true (Or.inr ⟨rfl, rfl, .EBADF, (if_pos hneg).mpr rfl, rfl⟩)
      (Or.inl hneg)⟩

end

/-- `dup` always reports what the kernel did. `dup2` does for different descriptors and for an open
one, and `dup3` only where a bad descriptor is the answer. -/
theorem dup_reports_iff {s : DupState} {other : HandleId → ℕ}
    (hrefs : RefsOk s.kernel.table other s.kernel.objects.toHandles)
    (hc : s.kernel.objects.heap.pmm.Counted) (oldfd newfd flags : BitVec 32) :
    (∃ r, dup oldfd s = .ok r ∧ DupReports s oldfd r) ∧
    (∃ r, dup2 oldfd newfd s = .ok r ∧ (Dup2Reports s oldfd newfd r ↔
      oldfd ≠ newfd ∨ s.map newfd.toInt ≠ none ∨
        (newfd = -1 ∧ s.errno = ErrorCode.EBADF.value))) ∧
    (∃ r, dup3 oldfd newfd flags s = .ok r ∧ (Dup3Reports s oldfd newfd flags r ↔
      newfd.toInt < 0 ∨ BadDescriptor s oldfd newfd)) :=
  ⟨dup_reports hrefs hc oldfd, dup2_reports_iff hrefs hc oldfd newfd,
    dup3_reports_iff hrefs hc oldfd newfd flags⟩

/-- A process with the descriptors 0, 2 and 20 -/
def fewOpen : DupState :=
  { errno := 0
    kernel :=
      { ctx := ⟨0, 0, 0, 0, 0, 0, 0, 0, 0⟩
        table := fewDescriptors
        objects := { twoInterrupts with created := 0 } } }

lemma fewOpen_refsOk :
    RefsOk fewOpen.kernel.table (fun _ => 0) fewOpen.kernel.objects.toHandles :=
  fewDescriptors_refsOk

/-- `dup` finds the least free descriptor, `dup2` fills one for which there is no sub-table yet, and
`dup3` is right about a descriptor that is not open. -/
theorem dup_reports_iff_few :
    ((dup 2 fewOpen).toOption.map Prod.fst, (dup2 0 30 fewOpen).toOption.map Prod.fst,
      (dup3 5 9 0 fewOpen).toOption.map Prod.fst) = (some 1, some 30, some (-1)) ∧
    (∃ r, dup 2 fewOpen = .ok r ∧ DupReports fewOpen 2 r) ∧
    (∃ r, dup2 0 30 fewOpen = .ok r ∧ Dup2Reports fewOpen 0 30 r) ∧
    ∃ r, dup3 5 9 0 fewOpen = .ok r ∧ Dup3Reports fewOpen 5 9 0 r := by
  obtain ⟨hdup, -, -⟩ := dup_reports_iff fewOpen_refsOk rfl 2 0 0
  obtain ⟨-, ⟨r, hr, hiff⟩, -⟩ := dup_reports_iff fewOpen_refsOk rfl 0 30 0
  obtain ⟨-, -, r', hr', hiff'⟩ := dup_reports_iff fewOpen_refsOk rfl 5 9 0
  refine ⟨by decide +kernel, hdup, ⟨r, hr, hiff.mpr (Or.inl (by decide))⟩, r', hr',
    hiff'.mpr (Or.inr ?_)⟩
  unfold BadDescriptor
  decide +kernel

/-- Descriptor 0 is copied to descriptor 1 and an error is reported; a descriptor that is not open
is reported as copied to itself. -/
theorem dup3_counterexample :
    (∃ r, dup3 0 1 0 fewOpen = .ok r ∧ ¬ Dup3Reports fewOpen 0 1 0 r) ∧
      ∃ r, dup2 5 5 fewOpen = .ok r ∧ ¬ Dup2Reports fewOpen 5 5 r := by
  constructor
  · obtain ⟨r, hr, hiff⟩ := dup3_reports_iff fewOpen_refsOk rfl 0 1 0
    have hgood : ¬ ((1 : BitVec 32).toInt < 0 ∨ BadDescriptor fewOpen 0 1) := by
      unfold BadDescriptor
      decide
    exact ⟨r, hr, fun h => hgood (hiff.mp h)⟩
  · obtain ⟨r, hr, hiff⟩ := dup2_reports_iff fewOpen_refsOk rfl 5 5
    exact ⟨r, hr, fun h => absurd (hiff.mp h) (by decide)⟩

end Fluke.Libc
