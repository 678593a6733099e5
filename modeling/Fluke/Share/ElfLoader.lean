import Fluke.User.Vm.Tlb

/-!
# The ELF loader

The loader runs in user mode and asks the kernel to map each segment and to read it from the
file. The system calls it makes are given by `LoaderCalls`, over the state `σ` of the process.

A segment is mapped with `MAP_FIXED`, which discards what lay in the range before. The loader
compares the start of each segment with the end of the one before it, so that no segment
discards another.
-/

namespace Fluke

open Outcome

/-- `PT_LOAD` -/
def ptLoad : BitVec 32 := 1
/-- `PT_INTERP` -/
def ptInterp : BitVec 32 := 3
/-- `PF_X` -/
def pfX : BitVec 32 := 1 <<< 0

/-- `Elf64_Phdr`, without the fields the loader does not read -/
structure Phdr where
  pType : BitVec 32
  pFlags : BitVec 32
  pOffset : Word
  pVaddr : Word
  pFilesz : Word
  pMemsz : Word

/-- `sizeof(Elf64_Phdr)` -/
def phdrSize : ℕ := 56

/-- `Elf64_Ehdr`, with the fields that locate the program headers -/
structure Ehdr where
  ePhoff : Word
  ePhnum : BitVec 16

/-- Why the loader does not return: it halts in `fail`, or the kernel stops. -/
inductive LoadStop where
  | fail
  | panic (p : Panic)

/-- The system calls of the loader, with the values they return in `rax`, and the program header
that the memory holds at an address. -/
structure LoaderCalls (σ : Type) where
  virtualMap : (base size flags mapFlags : ℕ) → σ → Except Panic (ℕ × σ)
  seek : (fd offset : ℕ) → σ → Except Panic (ℤ × σ)
  read : (fd buffer : ℕ) → (length : ℤ) → σ → Except Panic (ℤ × σ)
  phdrAt : ℕ → σ → Phdr

/-- A system call, in the loader -/
def call {σ : Type} {α : Type} (x : Except Panic (α × σ)) : Except LoadStop (α × σ) :=
  match x with
  | .ok r => .ok r
  | .error p => .error (.panic p)

section

variable {σ : Type} (sys : LoaderCalls σ)

/-- `map_fixed` -/
def loaderMapFixed (base size : ℕ) (flags : BitVec 32) (s : σ) : Except LoadStop σ := do
  let (result, s) ← call (sys.virtualMap base size flags.toNat mapFixed.toNat s)
  if result ≠ base then .error .fail else .ok s

/-- The loop of `read_into` -/
def readLoop (fd buffer : ℕ) (length : ℤ) (s : σ) : Except LoadStop σ :=
  if length > 0 then
    match call (sys.read fd buffer length s) with
    | .error stop => .error stop
    | .ok (n, s) =>
      if n ≤ 0 then .error .fail else readLoop fd (uaddIsize buffer n) (length - n) s
  else .ok s
termination_by length.toNat

/-- `read_into` -/
def readInto (fd buffer : ℕ) (length : ℤ) (offset : ℕ) (s : σ) : Except LoadStop σ := do
  let (n, s) ← call (sys.seek fd offset s)
  if n < 0 then .error .fail else readLoop sys fd buffer length s

/-- `base` in `load_segment` -/
def Phdr.pageBegin (phdr : Phdr) : ℕ := roundDownP2 phdr.pVaddr.toNat pageSize

/-- `p_vaddr + p_memsz` -/
def Phdr.memEnd (phdr : Phdr) : ℕ := uadd phdr.pVaddr.toNat phdr.pMemsz.toNat

/-- `end` in `load_segment` -/
def Phdr.pageEnd (phdr : Phdr) : ℕ := roundUpP2 phdr.memEnd pageSize

/-- `load_segment` -/
def loadSegment (fd : ℕ) (phdr : Phdr) (s : σ) : Except LoadStop σ := do
  let flags := protRead ||| protWrite ||| if phdr.pFlags &&& pfX ≠ 0 then protExec else 0
  let s ← loaderMapFixed sys phdr.pageBegin (usub phdr.pageEnd phdr.pageBegin) flags s
  readInto sys fd phdr.pVaddr.toNat (toIsize phdr.pFilesz.toNat) phdr.pOffset.toNat s

/-- The loop of `load_elf_segments`, with `n` headers to go from the `i`-th on. It returns the
headers whose segments it loaded; `phdr` is where the loader keeps the current header. -/
def loadLoop (fd phdr phoff : ℕ) : (n i lastLoadedAddress : ℕ) → σ →
    Except LoadStop (List Phdr × σ)
  | 0, _, _, s => .ok ([], s)
  | n + 1, i, lastLoadedAddress, s => do
    let s ← readInto sys fd phdr phdrSize (uadd phoff (i * phdrSize)) s
    let header := sys.phdrAt phdr s
    if header.pType = ptLoad then
      if header.pageBegin < lastLoadedAddress then .error .fail
      else do
        let s ← loadSegment sys fd header s
        let (loaded, s) ← loadLoop fd phdr phoff n (i + 1) header.memEnd s
        .ok (header :: loaded, s)
    else if header.pType = ptInterp then .error .fail
    else loadLoop fd phdr phoff n (i + 1) lastLoadedAddress s

/-- `load_elf_segments`; the offset of the table is an `int`. -/
def loadElfSegments (fd phdr : ℕ) (elf : Ehdr) (s : σ) : Except LoadStop (List Phdr × σ) :=
  let phoff := ((elf.ePhoff.setWidth 32).signExtend 64).toNat
  loadLoop sys fd phdr phoff elf.ePhnum.toNat 0 pageSize s

/-- `virtual_map` with `MAP_FIXED` returns its base only for ranges of user memory. -/
def LoaderCalls.MapsUserRanges : Prop :=
  ∀ base size flags s s', isPageAligned base → base < 2 ^ 64 → isPageAligned size →
    size < 2 ^ 64 → sys.virtualMap base size flags mapFixed.toNat s = .ok (base, s') →
    0 < toIsize size ∧ base + size ≤ memLowHalfMax

variable {sys}

lemma call_eq_ok {α : Type} {x : Except Panic (α × σ)} {r : α × σ} :
    call x = .ok r ↔ x = .ok r := by
  cases x with
  | ok a => simp [call]
  | error p => simp [call]

/-- A segment that is mapped: its pages are user memory, and they end with the page that holds
the segment's last byte. -/
lemma loadSegment_range (hsys : sys.MapsUserRanges) {fd : ℕ} {phdr : Phdr} {s s' : σ}
    (h : loadSegment sys fd phdr s = .ok s') :
    phdr.pageBegin < phdr.pageEnd ∧ phdr.pageEnd ≤ memLowHalfMax ∧
      phdr.memEnd ≤ phdr.pageEnd ∧ phdr.pageEnd < phdr.memEnd + pageSize := by
  obtain ⟨s₁, hmap, -⟩ := bind_eq_ok.mp h
  obtain ⟨⟨result, s₂⟩, hcall, hresult⟩ := bind_eq_ok.mp hmap
  have hbase : result = phdr.pageBegin := by
    by_contra hne
    simp only [ne_eq, hne, not_false_eq_true, if_true] at hresult
    cases hresult
  rw [call_eq_ok, hbase] at hcall
  have hvaddr := phdr.pVaddr.isLt
  have hmem : phdr.memEnd < 2 ^ 64 := Nat.mod_lt _ (by decide)
  have hend : phdr.pageEnd = (phdr.memEnd + 4095) % 2 ^ 64 / 4096 * 4096 := by
    unfold Phdr.pageEnd roundUpP2 roundDownP2 usub uadd
    simp only [pageSize]
    omega
  have hbegin : phdr.pageBegin = phdr.pVaddr.toNat / 4096 * 4096 := by
    unfold Phdr.pageBegin roundDownP2
    simp only [pageSize]
    omega
  have hsize : usub phdr.pageEnd phdr.pageBegin =
      (phdr.pageEnd + 2 ^ 64 - phdr.pageBegin) % 2 ^ 64 := rfl
  obtain ⟨hpos, hle⟩ := hsys _ _ _ _ _ (isPageAligned_iff.mpr (by omega)) (by omega)
    (isPageAligned_iff.mpr (by omega)) (by omega) hcall
  unfold toIsize at hpos
  simp only [memLowHalfMax, pageSize] at hle ⊢
  split_ifs at hpos with hlt
  · omega
  · omega

/-- Every segment begins behind the address the loop starts with, and behind the pages of the
segments loaded before it. -/
lemma loadLoop_spec (hsys : sys.MapsUserRanges) {fd phdr phoff : ℕ} (n : ℕ) :
    ∀ (i last : ℕ) (s : σ) (r : List Phdr × σ), pageSize ≤ last →
      loadLoop sys fd phdr phoff n i last s = .ok r →
      (∀ p ∈ r.1, last ≤ p.pageBegin ∧ p.pageBegin < p.pageEnd ∧ p.pageEnd ≤ memLowHalfMax) ∧
        r.1.Pairwise fun p q => p.pageEnd ≤ q.pageBegin := by
  induction n with
  | zero =>
    intro i last s r hlast h
    cases h
    exact ⟨fun p hp => (by cases hp), List.Pairwise.nil⟩
  | succ n ih =>
    intro i last s r hlast h
    rw [loadLoop] at h
    obtain ⟨s₁, -, h⟩ := bind_eq_ok.mp h
    dsimp only at h
    split_ifs at h with hload hoverlap
    · obtain ⟨s₂, hsegment, h⟩ := bind_eq_ok.mp h
      obtain ⟨⟨loaded, s₃⟩, hrest, h⟩ := bind_eq_ok.mp h
      cases h
      obtain ⟨hlt, hle, hmem, hend⟩ := loadSegment_range hsys hsegment
      generalize sys.phdrAt phdr s₁ = header at *
      have hbegin : last ≤ header.pageBegin := not_lt.mp hoverlap
      simp only [pageSize] at hlast hend
      have haligned : header.pageBegin % 4096 = 0 ∧ header.pageEnd % 4096 = 0 := by
        unfold Phdr.pageBegin Phdr.pageEnd roundUpP2 roundDownP2
        simp only [pageSize]
        omega
      have hlast' : pageSize ≤ header.memEnd := by
        simp only [pageSize]
        omega
      obtain ⟨hall, hsorted⟩ := ih _ _ _ _ hlast' hrest
      -- a page that begins behind the last byte begins behind its page
      have hbehind : ∀ p ∈ loaded, header.pageEnd ≤ p.pageBegin := by
        intro p hp
        have hp' := (hall p hp).1
        have : p.pageBegin % 4096 = 0 := by
          unfold Phdr.pageBegin roundDownP2
          simp only [pageSize]
          omega
        omega
      refine ⟨fun p hp => ?_, List.pairwise_cons.mpr ⟨hbehind, hsorted⟩⟩
      rcases List.mem_cons.mp hp with rfl | hp
      · exact ⟨hbegin, hlt, hle⟩
      · obtain ⟨-, hrange⟩ := hall p hp
        exact ⟨by have := hbehind p hp; omega, hrange⟩
    · exact ih _ _ _ _ hlast h

/-- The pages of the segments that were loaded lie in user memory, in the order of the program
headers, and apart from each other. -/
theorem loadElfSegments_disjoint (hsys : sys.MapsUserRanges) {fd phdr : ℕ} {elf : Ehdr} {s s' : σ}
    {loaded : List Phdr} (h : loadElfSegments sys fd phdr elf s = .ok (loaded, s')) :
    (∀ p ∈ loaded, pageSize ≤ p.pageBegin ∧ p.pageBegin < p.pageEnd ∧
      p.pageEnd ≤ memLowHalfMax) ∧ loaded.Pairwise fun p q => p.pageEnd ≤ q.pageBegin :=
  loadLoop_spec hsys _ _ _ _ _ le_rfl h

end

/-- The value a system call leaves in `rax` -/
def syscallResult : Result ℕ → ℕ
  | .ok value => value
  | .error e => usub 0 e.value

/-- `virtual_map`, as a process calls it -/
def kernelMap (base size flags mapFlags : ℕ) (s : Vm × Heap) : Except Panic (ℕ × Vm × Heap) := do
  let (result, areas, heap) ← virtualMap s.1 (BitVec.ofNat 64 base) (BitVec.ofNat 64 size)
    (BitVec.ofNat 64 flags) (BitVec.ofNat 64 mapFlags) s.2
  .ok (syscallResult result, { s.1 with first := areas }, heap)

/-- An error code is no page-aligned address. -/
lemma syscallResult_error (e : ErrorCode) : syscallResult (.error e) % 4096 ≠ 0 := by
  cases e <;> decide

/-- The kernel maps ranges of user memory only. -/
lemma mapsUserRanges_kernelMap {sys : LoaderCalls (Vm × Heap)} (h : sys.virtualMap = kernelMap) :
    sys.MapsUserRanges := by
  intro base size flags s s' hbase hbaselt hsize hsizelt hmap
  rw [h] at hmap
  obtain ⟨⟨result, areas, heap⟩, hmap, hresult⟩ := bind_eq_ok.mp hmap
  have hvalue : syscallResult result = base := congrArg Prod.fst (Except.ok.inj hresult)
  rw [isPageAligned_iff] at hbase hsize
  have hround : roundUpP2 size pageSize = size := by
    unfold roundUpP2 roundDownP2 usub uadd
    simp only [pageSize]
    omega
  have hlen : roundedLength (BitVec.ofNat 64 size) = toIsize size := by
    rw [roundedLength, BitVec.toNat_ofNat, Nat.mod_eq_of_lt hsizelt, hround]
  unfold virtualMap at hmap
  rw [hlen, BitVec.toNat_ofNat, Nat.mod_eq_of_lt hbaselt] at hmap
  dsimp only at hmap
  cases hcheck : checkUserRange base (toIsize size) with
  | error e =>
    rw [hcheck] at hmap
    cases hmap
    exact absurd (hvalue ▸ hbase) (syscallResult_error e)
  | ok u =>
    have hlt : toIsize size < 2 ^ 63 := by
      unfold toIsize
      split_ifs <;> omega
    obtain ⟨hpos, hle⟩ := (checkUserRange_eq_ok hlt).mp hcheck
    refine ⟨hpos, ?_⟩
    unfold toIsize at hpos hle
    split_ifs at hpos hle with hsmall
    · exact_mod_cast hle
    · omega

/-- The offset in the file, and the offset from which the current header was read -/
structure LoaderFile where
  offset : ℕ
  header : ℕ

/-- A segment of code, with two pages -/
def codeSegment : Phdr := ⟨ptLoad, pfX, 0x1000, 0x400000, 0x1800, 0x1800⟩

/-- A note, which is not loaded -/
def noteSegment : Phdr := ⟨4, 0, 0x2800, 0, 0x20, 0x20⟩

/-- A segment of data, which begins in the page behind the code and is longer than in the file -/
def dataSegment : Phdr := ⟨ptLoad, 0, 0x2820, 0x402820, 0x200, 0x1000⟩

/-- A process with a file of three segments, whose headers begin at offset 64; the header is read
to `0x7000`. -/
def threeSegmentCalls : LoaderCalls LoaderFile where
  virtualMap base size _ _ s :=
    .ok (if 0 < toIsize size ∧ base + size ≤ memLowHalfMax then base else usub 0 9, s)
  seek _ offset s := .ok (offset, { s with offset := offset })
  read _ buffer length s := .ok (length,
    { offset := s.offset + length.toNat
      header := if buffer = 0x7000 then s.offset else s.header })
  phdrAt _ s :=
    if s.header = 64 then codeSegment else if s.header = 64 + phdrSize then noteSegment
    else dataSegment

lemma mapsUserRanges_threeSegmentCalls : threeSegmentCalls.MapsUserRanges := by
  intro base size flags s s' hbase _ _ _ hmap
  rw [isPageAligned_iff] at hbase
  have hvalue : (if 0 < toIsize size ∧ base + size ≤ memLowHalfMax then base else usub 0 9) =
    base := congrArg Prod.fst (Except.ok.inj hmap)
  by_contra hnot
  rw [if_neg hnot] at hvalue
  have : usub 0 9 % 4096 ≠ 0 := by decide
  omega

/-- What is asked for is read at once. -/
lemma threeSegmentCalls_readInto (buffer : ℕ) {length : ℤ} (hlength : 0 < length) (offset : ℕ)
    (s : LoaderFile) : readInto threeSegmentCalls 3 buffer length offset s =
      .ok ⟨offset + length.toNat, if buffer = 0x7000 then offset else s.header⟩ := by
  show readLoop threeSegmentCalls 3 buffer length { s with offset := offset } = _
  rw [readLoop, if_pos hlength]
  dsimp only [threeSegmentCalls, call]
  rw [if_neg (by omega), sub_self, readLoop, if_neg (by omega)]

/-- A segment of user memory is mapped and read. -/
lemma threeSegmentCalls_loadSegment (header : Phdr) (s : LoaderFile)
    (hsize : 0 < toIsize (usub header.pageEnd header.pageBegin) ∧
      header.pageBegin + usub header.pageEnd header.pageBegin ≤ memLowHalfMax)
    (hfile : 0 < toIsize header.pFilesz.toNat) (haddress : header.pVaddr.toNat ≠ 0x7000) :
    loadSegment threeSegmentCalls 3 header s =
      .ok ⟨header.pOffset.toNat + (toIsize header.pFilesz.toNat).toNat, s.header⟩ := by
  have hmap : ∀ flags, loaderMapFixed threeSegmentCalls header.pageBegin
      (usub header.pageEnd header.pageBegin) flags s = .ok s := by
    intro flags
    simp only [loaderMapFixed, threeSegmentCalls, call, if_pos hsize, ok_bind, ne_eq,
      not_true_eq_false, if_false]
  rw [loadSegment, hmap, ok_bind, threeSegmentCalls_readInto _ hfile, if_neg haddress]

/-- Code and data are loaded, next to each other. -/
theorem loadElfSegments_disjoint_threeSegments :
    loadElfSegments threeSegmentCalls 3 0x7000 ⟨64, 3⟩ ⟨0, 0⟩ =
      .ok ([codeSegment, dataSegment], ⟨0x2a20, 176⟩) ∧
    (∀ p ∈ [codeSegment, dataSegment], pageSize ≤ p.pageBegin ∧ p.pageBegin < p.pageEnd ∧
      p.pageEnd ≤ memLowHalfMax) ∧
      [codeSegment, dataSegment].Pairwise fun p q => p.pageEnd ≤ q.pageBegin := by
  have hcode := fun s => threeSegmentCalls_loadSegment codeSegment s (by decide)
    (by decide) (by decide)
  have hdata := fun s => threeSegmentCalls_loadSegment dataSegment s (by decide)
    (by decide) (by decide)
  have hread := @threeSegmentCalls_readInto 0x7000 56 (by decide)
  have hheaders : ∀ offset,
      threeSegmentCalls.phdrAt 0x7000 ⟨offset, uadd 64 (0 * 56)⟩ = codeSegment ∧
      threeSegmentCalls.phdrAt 0x7000 ⟨offset, uadd 64 (1 * 56)⟩ = noteSegment ∧
      threeSegmentCalls.phdrAt 0x7000 ⟨offset, uadd 64 (2 * 56)⟩ = dataSegment :=
    fun _ => ⟨rfl, rfl, rfl⟩
  have hfirst : ¬ codeSegment.pageBegin < pageSize := by decide
  have hsecond : ¬ dataSegment.pageBegin < codeSegment.memEnd := by decide
  have hlast : ∀ s, loadLoop threeSegmentCalls 3 0x7000 64 1 2 codeSegment.memEnd s =
      .ok ([dataSegment], ⟨0x2a20, 176⟩) := by
    intro s
    simp only [loadLoop, phdrSize, Nat.cast_ofNat, hread, ok_bind, if_true, (hheaders _).2.2,
      hsecond, if_false, hdata]
    rfl
  have hnote : ∀ s, loadLoop threeSegmentCalls 3 0x7000 64 2 1 codeSegment.memEnd s =
      .ok ([dataSegment], ⟨0x2a20, 176⟩) := by
    intro s
    have hload : noteSegment.pType ≠ ptLoad := by decide
    have hinterp : noteSegment.pType ≠ ptInterp := by decide
    rw [loadLoop, phdrSize, Nat.cast_ofNat, hread, ok_bind]
    simp only [if_true, (hheaders _).2.1, hload, hinterp, if_false]
    exact hlast _
  have hrun : loadElfSegments threeSegmentCalls 3 0x7000 ⟨64, 3⟩ ⟨0, 0⟩ =
      .ok ([codeSegment, dataSegment], ⟨0x2a20, 176⟩) := by
    show loadLoop threeSegmentCalls 3 0x7000 64 3 0 pageSize ⟨0, 0⟩ = _
    have hload : codeSegment.pType = ptLoad := rfl
    rw [loadLoop, phdrSize, Nat.cast_ofNat, hread, ok_bind]
    simp only [if_true, (hheaders _).1, hload, hfirst, if_false, hcode, ok_bind, hnote]
  exact ⟨hrun, loadElfSegments_disjoint mapsUserRanges_threeSegmentCalls hrun⟩

end Fluke
