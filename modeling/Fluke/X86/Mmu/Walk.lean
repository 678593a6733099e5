import Fluke.X86.Mmu.AddressSpace

/-!
# What `virt_to_phys` sees

`virt_to_phys` walks the tables from an address space's root to the entry of a page. In the user
half this is `userLookup`; in the kernel half it reads tables that no operation on a user range
writes to. Together this says what `mmu_assign` and `mmu_clear` do to the translation of every
address.
-/

namespace Fluke

open Outcome TableEntry TableRange

/-- The way of `virt_to_phys` from an entry of a table of depth `d + 1` on: the entry it ends at
and how many tables it had left to read, or nothing when it meets an entry that is not present. -/
def walk (memory : Frame → Page) (va : ℕ) : ℕ → Word → Option (ℕ × Word)
  | 0, entry => if !isPresent entry then none else some (0, entry)
  | d + 1, entry =>
    if !isPresent entry then none
    else if d + 1 < PDPT ∧ entry &&& psBit ≠ 0 then some (d + 1, entry)
    else walk memory va d (memory (entryTarget entry) (tableIndex (d + 1) va))

/-- The tables this way reads. -/
def walkTables (memory : Frame → Page) (va : ℕ) : ℕ → Word → List Frame
  | 0, _ => []
  | d + 1, entry =>
    if !isPresent entry then []
    else if d + 1 < PDPT ∧ entry &&& psBit ≠ 0 then []
    else entryTarget entry ::
      walkTables memory va d (memory (entryTarget entry) (tableIndex (d + 1) va))

/-- The entry that translates an address. -/
def leafEntry (memory : Frame → Page) (pm : Frame) (va : ℕ) : Option (ℕ × Word) :=
  walk memory va PDPT (memory pm (tableIndex PML4 va))

/-- The physical address that an entry gives to an address in its page. -/
def physicalAddress (va : ℕ) : ℕ × Word → Word
  | (2, entry) => (entry &&& 0x000fffffc0000000) ||| (BitVec.ofNat 64 va &&& 0x3fffffff)
  | (1, entry) => (entry &&& 0x000fffffffe00000) ||| (BitVec.ofNat 64 va &&& 0x1fffff)
  | (_, entry) => (entry &&& 0x000ffffffffff000) ||| (BitVec.ofNat 64 va &&& 0xfff)

lemma virtToPhys_eq (memory : Frame → Page) (pm : Frame) (va : ℕ) :
    virtToPhys memory pm va = ((leafEntry memory pm va).map (physicalAddress va)).getD 0 := by
  unfold virtToPhys leafEntry walk walk walk walk
  dsimp only
  simp only [show ¬ (2 + 1 < PDPT) by decide, show 1 + 1 < PDPT by decide,
    show 0 + 1 < PDPT by decide, false_and, true_and, if_false]
  split_ifs <;> rfl

/-- The way depends on the tables it reads. -/
lemma walk_congr {memory memory' : Frame → Page} {va d : ℕ} {entry : Word}
    (h : ∀ g ∈ walkTables memory va d entry, memory' g = memory g) :
    walk memory' va d entry = walk memory va d entry := by
  induction d generalizing entry with
  | zero => rfl
  | succ d ih =>
    unfold walkTables at h
    unfold walk
    split_ifs at h ⊢ with h1 h2
    · rfl
    · rfl
    · rw [h _ List.mem_cons_self]
      exact ih fun g hg => h g (List.mem_cons_of_mem _ hg)

/-- Below an entry made by the kernel the way ends at the page that the tree gives. -/
lemma walk_eq_lookup {memory : Frame → Page} {va d : ℕ} {entry : Word}
    (h : (treeOf memory d entry).Tables IsIntermediate) :
    walk memory va d entry =
      ((treeOf memory d entry).lookup (pathOf d va)).map fun e => (0, e) := by
  induction d generalizing entry with
  | zero =>
    unfold walk
    split_ifs with he
    · rw [treeOf_absent (by simpa using he)]
      rfl
    · rw [treeOf_zero (by simpa using he)]
      rfl
  | succ d ih =>
    unfold walk
    cases he : isPresent entry with
    | false =>
      rw [treeOf_absent he]
      rfl
    | true =>
      rw [treeOf_succ he] at h ⊢
      obtain ⟨hentry, hslots⟩ := (Radix.tables_table _ _ _).mp h
      rw [if_neg (by simp), if_neg (fun hps => hps.2 hentry.table), pathOf_succ,
        Radix.lookup_table_cons]
      exact ih (hslots _)

/-- In the user half the walk ends at the page that the tree gives. -/
lemma leafEntry_user {s : Pmm} {pm : Frame} (hs : SpaceOk pm s) {va : ℕ}
    (hva : va < memLowHalfMax) :
    leafEntry s.memory pm va = (userLookup s.memory pm va).map fun entry => (0, entry) := by
  have htables := hs.tables (tableIndex PML4 va)
  rw [userSlots, slotsOf_of_owned (userHalf_iff.mpr (tableIndex_lt_of_user hva))] at htables
  rw [userLookup_eq hva]
  exact walk_eq_lookup htables

lemma leafEntry_user_eq_none {s : Pmm} {pm : Frame} (hs : SpaceOk pm s) {va : ℕ}
    (hva : va < memLowHalfMax) :
    leafEntry s.memory pm va = none ↔ userLookup s.memory pm va = none := by
  rw [leafEntry_user hs hva, Option.map_eq_none_iff]

/-- An address that the processor accepts: one of the user half or one of the kernel half. -/
def Canonical (va : ℕ) : Prop := va < memLowHalfMax ∨ memHighHalfMin ≤ va ∧ va < 2 ^ 64

lemma userHalf_of_kernel {va : ℕ} (h : memHighHalfMin ≤ va) (h' : va < 2 ^ 64) :
    userHalf (tableIndex PML4 va) = false := by
  have hsize : pointeeSize PML4 = 2 ^ 39 := by decide
  have hindex : ¬ (tableIndex PML4 va).val < 256 := by
    rw [tableIndex_val, hsize]
    simp only [memHighHalfMin] at h
    omega
  exact Bool.eq_false_iff.mpr fun hown => hindex (userHalf_iff.mp hown)

/-- A well-formed page-table tree: the user half is well formed, and the tables that translate
the kernel half have nothing to do with it or with the free list. -/
structure PageMapOk (pm : Frame) (s : Pmm) : Prop extends SpaceOk pm s where
  kernel : ∀ va, memHighHalfMin ≤ va → va < 2 ^ 64 →
    ∀ g ∈ walkTables s.memory va PDPT (s.memory pm (tableIndex PML4 va)),
      g ∉ spaceFrames s.memory pm ∧ g ∉ s.freeList

/-- A step on the user half does not change the translation of the kernel half. -/
lemma SpaceStep.leafEntry_kernel {pm : Frame} {s s' : Pmm} (h : SpaceStep pm s s')
    (hs : PageMapOk pm s) {va : ℕ} (h1 : memHighHalfMin ≤ va) (h2 : va < 2 ^ 64) :
    leafEntry s'.memory pm va = leafEntry s.memory pm va := by
  unfold leafEntry
  rw [h.kernel _ (userHalf_of_kernel h1 h2)]
  refine walk_congr fun g hg => ?_
  obtain ⟨hspace, hfree⟩ := hs.kernel va h1 h2 g hg
  exact h.frame g hspace hfree

/-- From the entries of the user half to those of every address. -/
lemma SpaceStep.leafEntry_of_userLookup {pm : Frame} {s s' : Pmm} (h : SpaceStep pm s s')
    (hs : PageMapOk pm s) (hs' : SpaceOk pm s') {va : ℕ} (hva : Canonical va)
    (huser : va < memLowHalfMax → userLookup s'.memory pm va = userLookup s.memory pm va) :
    leafEntry s'.memory pm va = leafEntry s.memory pm va ∧
      virtToPhys s'.memory pm va = virtToPhys s.memory pm va := by
  have hleaf : leafEntry s'.memory pm va = leafEntry s.memory pm va := by
    rcases hva with hlow | ⟨h1, h2⟩
    · rw [leafEntry_user hs' hlow, leafEntry_user hs.toSpaceOk hlow, huser hlow]
    · exact h.leafEntry_kernel hs h1 h2
  refine ⟨hleaf, ?_⟩
  rw [virtToPhys_eq, virtToPhys_eq, hleaf]

/-- The address a page entry made by the kernel gives. -/
lemma physicalAddress_page {flags : Word} (hflags : FlagBits flags) (page : Frame) (va : ℕ) :
    physicalAddress va (0, entryAddressBits page ||| flags) =
      page.address + BitVec.ofNat 64 (va % 4096) := by
  have htarget : (entryAddressBits page ||| flags) &&& 0x000ffffffffff000 = page.address :=
    congrArg Frame.address (entryTarget_or hflags page)
  have hoffset : BitVec.ofNat 64 va &&& 0xfff = BitVec.ofNat 64 (va % 4096) := by
    apply BitVec.eq_of_toNat_eq
    rw [BitVec.toNat_and, BitVec.toNat_ofNat, BitVec.toNat_ofNat]
    show va % 2 ^ 64 &&& 2 ^ 12 - 1 = _
    rw [Nat.and_two_pow_sub_one_eq_mod]
    omega
  have hdisjoint : page.address &&& BitVec.ofNat 64 (va % 4096) = 0 := by
    have hmask : tableEntryAddressMask &&& 0xfff = 0 := by decide
    calc page.address &&& BitVec.ofNat 64 (va % 4096)
        = page.address &&& tableEntryAddressMask &&& (BitVec.ofNat 64 va &&& 0xfff) := by
          rw [page.aligned, hoffset]
      _ = page.address &&& BitVec.ofNat 64 va &&& (tableEntryAddressMask &&& 0xfff) := by
          ac_rfl
      _ = 0 := by
          rw [hmask]
          exact BitVec.and_zero
  show ((entryAddressBits page ||| flags) &&& 0x000ffffffffff000) ||| _ = _
  rw [htarget, hoffset, BitVec.add_eq_or_of_and_eq_zero _ _ hdisjoint]

/-! ### Ranges -/

/-- Every byte of the range lies in a zeroed page of its own that was free before. -/
structure RangeAssigned (pm : Frame) (address len : ℕ) (flags : Word) (s s' : Pmm) : Prop where
  inside : ∀ va, address ≤ va → va < address + len → ∃ page ∈ s.freeList, ∃ entry,
    leafEntry s'.memory pm va = some (0, entry) ∧ entryTarget entry = page ∧
      entryPermissions entry = flags ∧
      virtToPhys s'.memory pm va = page.address + BitVec.ofNat 64 (va % 4096) ∧
      s'.memory page = Page.fill 0 ∧ page ∉ s'.freeList
  distinct : ∀ va va', address ≤ va → va < address + len → address ≤ va' → va' < address + len →
    ∀ entry entry', leafEntry s'.memory pm va = some (0, entry) →
      leafEntry s'.memory pm va' = some (0, entry') → entryTarget entry = entryTarget entry' →
      va / 4096 = va' / 4096

/-- No byte of the range is mapped. -/
def RangeUnmapped (pm : Frame) (address len : ℕ) (s : Pmm) : Prop :=
  ∀ va, address ≤ va → va < address + len → leafEntry s.memory pm va = none ∧
    virtToPhys s.memory pm va = 0

/-- Every address outside the range is translated as before, with the same flags. -/
def OutsideSame (pm : Frame) (address len : ℕ) (s s' : Pmm) : Prop :=
  ∀ va, Canonical va → ¬ (address ≤ va ∧ va < address + len) →
    leafEntry s'.memory pm va = leafEntry s.memory pm va ∧
      virtToPhys s'.memory pm va = virtToPhys s.memory pm va

/-- The same tree in the user half, the same entries in the kernel half, and the same frames
free. -/
structure Restored (pm : Frame) (s s' : Pmm) : Prop where
  user : userSlots s'.memory pm = userSlots s.memory pm
  kernel : ∀ i, userHalf i = false → s'.memory pm i = s.memory pm i
  free : (s'.freeList : Multiset Frame) = s.freeList

variable {pm : Frame} {address len : ℕ} {s s' s'' : Pmm}

lemma entryTarget_mem_spaceFrames {va : ℕ} (hva : va < memLowHalfMax) {entry : Word}
    (h : userLookup s.memory pm va = some entry) :
    entryTarget entry ∈ spaceFrames s.memory pm := by
  rw [userLookup_eq hva] at h
  refine Multiset.mem_cons_of_mem (mem_userFrames ?_ (Radix.mem_collect_of_lookup entryTarget h))
  exact userHalf_iff.mpr (tableIndex_lt_of_user hva)

lemma Assigned.rangeAssigned {flags : Word} (hflags : FlagBits flags)
    (h : Assigned pm address len flags s s') (hr : UserRange address len) :
    RangeAssigned pm address len flags s s' := by
  have hle := hr.le
  constructor
  · intro va h1 h2
    have hva : va < memLowHalfMax := h2.trans_le hle
    obtain ⟨page, hpage, hlookup, hzero⟩ := h.inside va h1 h2
    have hmem := entryTarget_mem_spaceFrames hva hlookup
    have hleaf := leafEntry_user h.ok hva
    rw [hlookup, Option.map_some] at hleaf
    rw [entryTarget_or hflags] at hmem
    refine ⟨page, hpage, _, hleaf, entryTarget_or hflags page, entryPermissions_or hflags page, ?_,
      hzero, h.ok.notMem_free hmem⟩
    rw [virtToPhys_eq, hleaf]
    exact physicalAddress_page hflags page va
  · intro va va' _ h2 _ h2' entry entry' hleaf hleaf' htarget
    rw [leafEntry_user h.ok (h2.trans_le hle)] at hleaf
    rw [leafEntry_user h.ok (h2'.trans_le hle)] at hleaf'
    simp only [Option.map_eq_some_iff, Prod.mk.injEq, true_and, exists_eq_right] at hleaf hleaf'
    exact userLookup_inj h.ok (h2.trans_le hle) (h2'.trans_le hle) hleaf hleaf' htarget

lemma ClearedRange.rangeUnmapped (h : ClearedRange pm address len s s')
    (hr : UserRange address len) : RangeUnmapped pm address len s' := by
  intro va h1 h2
  have hva : va < memLowHalfMax := h2.trans_le hr.le
  have hleaf : leafEntry s'.memory pm va = none := by
    rw [leafEntry_user_eq_none h.ok hva, h.lookup hr hva, if_pos ⟨h1, h2⟩]
  refine ⟨hleaf, ?_⟩
  rw [virtToPhys_eq, hleaf]
  rfl

lemma ClearedRange.outsideSame (h : ClearedRange pm address len s s') (hs : PageMapOk pm s)
    (hr : UserRange address len) : OutsideSame pm address len s s' := fun va hva hout =>
  h.step.leafEntry_of_userLookup hs h.ok hva fun hlow => by rw [h.lookup hr hlow, if_neg hout]

lemma Assigned.restored {flags : Word} (h : Assigned pm address len flags s s')
    (hne : NoEmptyTables s.memory pm) (h' : ClearedRange pm address len s' s'') :
    Restored pm s s'' := by
  have huser : userSlots s''.memory pm = userSlots s.memory pm := by
    funext i
    rw [h'.slots i, h.erase hne i]
  refine ⟨huser, fun i hi => by rw [h'.step.kernel i hi, h.step.kernel i hi], ?_⟩
  have hframes : userFrames s''.memory pm = userFrames s.memory pm := congrArg framesOfSlots huser
  have hconserved := h'.step.conserved.trans h.step.conserved
  rw [hframes] at hconserved
  exact add_left_cancel hconserved

/-- `mmu_assign` on an unmapped range, `mmu_clear` on any range, and the one after the other. -/
theorem mmuAssign_mmuClear {mode : MmuMode} {cache : MmuCache} (hs : PageMapOk pm s)
    (hr : UserRange address len) :
    ((∀ va, address ≤ va → va < address + len → leafEntry s.memory pm va = none) →
      Ensures (· = .outOfMemory) (fun s' =>
        RangeAssigned pm address len (entryFlags cache mode) s s' ∧
        OutsideSame pm address len s s' ∧
        (NoEmptyTables s.memory pm →
          Ensures (fun _ => False) (fun s'' => Restored pm s s'') (mmuClear pm address len s')))
        (mmuAssign pm address len mode cache s)) ∧
    Ensures (fun _ => False) (fun s' =>
      RangeUnmapped pm address len s' ∧ OutsideSame pm address len s s')
      (mmuClear pm address len s) := by
  constructor
  · intro hnone
    have hunmapped : ¬ RangeMapped pm address len s := by
      rintro ⟨va, h1, h2, hmapped⟩
      exact hmapped ((leafEntry_user_eq_none hs.toSpaceOk (h2.trans_le hr.le)).mp (hnone va h1 h2))
    refine (mmuAssign_spec hr hs.toSpaceOk).mono (fun e he => he.outOfMemory hunmapped)
      fun s' h => ?_
    refine ⟨h.rangeAssigned (flagBits_entryFlags cache mode) hr, fun va hva hout => ?_,
      fun hne => ?_⟩
    · exact h.step.leafEntry_of_userLookup hs h.ok hva fun hlow => h.outside va hlow hout
    · exact (mmuClear_spec hr h.ok).imp fun s'' h' => h.restored hne h'
  · exact (mmuClear_spec hr hs.toSpaceOk).imp fun s' h =>
      ⟨h.rangeUnmapped hr, h.outsideSame hs hr⟩

/-! ### A machine with nothing mapped -/

lemma aligned_page1 : (0x1000 : Word) &&& tableEntryAddressMask = 0x1000 := by decide

lemma aligned_page2 : (0x2000 : Word) &&& tableEntryAddressMask = 0x2000 := by decide

lemma aligned_page3 : (0x3000 : Word) &&& tableEntryAddressMask = 0x3000 := by decide

/-- Frames in a row -/
def framesFrom (start : Word) (n : ℕ) : List Frame :=
  (List.range n).map fun i => Frame.offset start (i * pageSize)

/-- Memory of zeroes, and a free list. -/
def Pmm.blank (free : List Frame) : Pmm where
  memory := fun _ => Page.fill 0
  freeList := free
  freeCount := free.length
  totalCount := free.length

lemma userSlots_blank (free : List Frame) (pm : Frame) (i : Fin 512) :
    userSlots (Pmm.blank free).memory pm i = .absent := by
  unfold userSlots slotsOf
  split_ifs
  · exact treeOf_absent (isPresent_fill_zero i) _
  · rfl

lemma userFrames_blank (free : List Frame) (pm : Frame) :
    userFrames (Pmm.blank free).memory pm = 0 :=
  framesOfSlots_of_absent (userSlots_blank free pm)

lemma pageMapOk_blank {free : List Frame} {pm : Frame} (h : (pm :: free).Nodup) :
    PageMapOk pm (Pmm.blank free) where
  apart := by
    constructor
    show (pm ::ₘ (userFrames (Pmm.blank free).memory pm + _)).Nodup
    rw [userFrames_blank, zero_add]
    exact h
  counted := rfl
  tables i := by
    rw [userSlots_blank]
    exact Radix.tables_absent _
  kernel va _ _ g hg := by
    have hp : isPresent ((Pmm.blank free).memory pm (tableIndex PML4 va)) = false :=
      isPresent_fill_zero (tableIndex PML4 va)
    unfold walkTables at hg
    simp [hp] at hg

lemma leafEntry_blank (free : List Frame) (pm : Frame) (va : ℕ) :
    leafEntry (Pmm.blank free).memory pm va = none := by
  have hp : isPresent ((Pmm.blank free).memory pm (tableIndex PML4 va)) = false :=
    isPresent_fill_zero (tableIndex PML4 va)
  unfold leafEntry walk
  simp [hp]

/-- One page is mapped with the last four frames of the machine. -/
theorem mmuAssign_mmuClear_page :
    Ensures (· = .outOfMemory) (fun s' =>
      RangeAssigned ⟨0x1000, by decide⟩ 0x7ffff000 0x1000 (entryFlags MmuCache.default
        (MmuMode.user ||| MmuMode.write))
        (Pmm.blank [⟨0x2000, by decide⟩, ⟨0x3000, by decide⟩, ⟨0x4000, by decide⟩,
          ⟨0x5000, by decide⟩]) s' ∧
      OutsideSame ⟨0x1000, by decide⟩ 0x7ffff000 0x1000
        (Pmm.blank [⟨0x2000, by decide⟩, ⟨0x3000, by decide⟩, ⟨0x4000, by decide⟩,
          ⟨0x5000, by decide⟩]) s' ∧
      (NoEmptyTables (Pmm.blank [⟨0x2000, by decide⟩, ⟨0x3000, by decide⟩, ⟨0x4000, by decide⟩,
          ⟨0x5000, by decide⟩]).memory ⟨0x1000, by decide⟩ →
        Ensures (fun _ => False) (fun s'' => Restored ⟨0x1000, by decide⟩
          (Pmm.blank [⟨0x2000, by decide⟩, ⟨0x3000, by decide⟩, ⟨0x4000, by decide⟩,
          ⟨0x5000, by decide⟩]) s'')
          (mmuClear ⟨0x1000, by decide⟩ 0x7ffff000 (0x1000 : ℕ) s')))
      (mmuAssign ⟨0x1000, by decide⟩ 0x7ffff000 (0x1000 : ℕ) (MmuMode.user ||| MmuMode.write)
        MmuCache.default (Pmm.blank [⟨0x2000, by decide⟩, ⟨0x3000, by decide⟩,
          ⟨0x4000, by decide⟩, ⟨0x5000, by decide⟩])) :=
  (mmuAssign_mmuClear (pageMapOk_blank (by decide)) ⟨by decide, by decide, by decide, by decide⟩).1
    fun va _ _ => leafEntry_blank _ _ va

end Fluke
