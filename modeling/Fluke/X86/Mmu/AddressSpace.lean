import Fluke.X86.Mmu.Clone

/-!
# The user half of an address space

The first 256 entries of a `PML4` translate the user addresses. `SpaceOk` says that the tables
below them are well formed and apart from the free frames; `userLookup` is the page-table entry
of a user address. The entry points `mmu_assign`, `mmu_clear`, `mmu_create_address_space`,
`mmu_clone_address_space` and `mmu_destroy_address_space` are specified through these two.
-/

namespace Fluke

open Outcome TableEntry TableRange

/-- The entries of a `PML4` that translate user addresses. -/
def userHalf : Fin 512 → Bool := cloneOwned PML4

lemma userHalf_iff {i : Fin 512} : userHalf i = true ↔ i.val < 256 := by
  simp [userHalf, cloneOwned, cloneEnd]

/-- The trees below the user half of a `PML4`. -/
def userSlots (memory : Frame → Page) (pm : Frame) : Fin 512 → PageTree :=
  slotsOf userHalf memory PDPT pm

/-- The user half as one tree; its root is not an entry, so that its label means nothing. -/
def userTree (memory : Frame → Page) (pm : Frame) : PageTree :=
  .table intermediate (userSlots memory pm)

/-- The page-table entry of a user address. -/
def userLookup (memory : Frame → Page) (pm : Frame) (va : ℕ) : Option Word :=
  (userTree memory pm).lookup (pathOf PML4 va)

/-- The frames that the entries of the user half point at, tables and pages, each counted once
for every entry that points at it. -/
def userFrames (memory : Frame → Page) (pm : Frame) : Multiset Frame :=
  slotFrames userHalf memory PDPT pm

/-- All frames of an address space but the shared ones of the kernel half. -/
def spaceFrames (memory : Frame → Page) (pm : Frame) : Multiset Frame :=
  pm ::ₘ userFrames memory pm

/-- No table of the user half is empty. -/
def NoEmptyTables (memory : Frame → Page) (pm : Frame) : Prop :=
  ∀ i, (userSlots memory pm i).NoEmpty

/-- The user half of an address space is well formed. -/
structure SpaceOk (pm : Frame) (s : Pmm) : Prop where
  apart : Apart userHalf PDPT pm s
  counted : s.Counted
  tables : ∀ i, (userSlots s.memory pm i).Tables IsIntermediate

/-- A page-aligned, non-empty range of user addresses. -/
structure UserRange (address len : ℕ) : Prop where
  aligned : 4096 ∣ address
  len_aligned : 4096 ∣ len
  pos : 0 < len
  le : address + len ≤ memLowHalfMax

namespace UserRange

variable {address len : ℕ}

lemma tableRange (h : UserRange address len) : TableRange PML4 0 address (address + len) where
  base_dvd := dvd_zero _
  bound := by decide
  lower := Nat.zero_le _
  lt := Nat.lt_add_of_pos_right h.pos
  upper := h.le.trans (by decide)
  vbegin_aligned := h.aligned
  vend_aligned := (Nat.dvd_add_right h.aligned).mpr h.len_aligned

lemma uaddIsize_eq (h : UserRange address len) : uaddIsize address len = address + len := by
  have hle := h.le
  simp only [memLowHalfMax] at hle
  rw [uaddIsize_of_nonneg (by omega) (by omega)]
  simp

lemma validateLimits_eq (h : UserRange address len) : validateLimits address len = .ok () := by
  have hle := h.le
  have hpos := h.pos
  obtain ⟨k, hk⟩ := h.aligned
  obtain ⟨l, hl⟩ := h.len_aligned
  unfold validateLimits
  rw [h.uaddIsize_eq]
  simp only [memLowHalfMax, pageSize] at hle ⊢
  have h1 : address % 0x1000 = 0 ∧ (len : ℤ) % 0x1000 = 0 := by omega
  have h2 : (len : ℤ) > 0 := by omega
  have h3 : address ≤ 0x0000800000000000 := by omega
  simp only [Nat.cast_ofNat, h1, h2, h3, hle, assert, decide_true, if_true]
  rfl

/-- A visited entry belongs to the user half. -/
lemma userHalf_of_mem (h : UserRange address len) {i : Fin 512}
    (hi : i ∈ indices PML4 address (address + len)) : userHalf i = true := by
  have hmem := (h.tableRange.mem_indices_iff.mp hi).2
  have hle := h.le
  have hsize : pointeeSize PML4 = 2 ^ 39 := by decide
  rw [hsize] at hmem
  simp only [memLowHalfMax] at hle
  rw [userHalf_iff]
  omega

end UserRange

/-! ### Looking up -/

lemma pathOf_PML4 (va : ℕ) : pathOf PML4 va = tableIndex PML4 va :: pathOf PDPT va := rfl

lemma tableIndex_lt_of_user {va : ℕ} (h : va < memLowHalfMax) : (tableIndex PML4 va).val < 256 := by
  have hsize : pointeeSize PML4 = 2 ^ 39 := by decide
  rw [tableIndex_val, hsize]
  simp only [memLowHalfMax] at h
  omega

lemma userLookup_eq {memory : Frame → Page} {pm : Frame} {va : ℕ} (h : va < memLowHalfMax) :
    userLookup memory pm va =
      (treeOf memory PDPT (memory pm (tableIndex PML4 va))).lookup (pathOf PDPT va) := by
  have hown : userHalf (tableIndex PML4 va) = true := userHalf_iff.mpr (tableIndex_lt_of_user h)
  rw [userLookup, userTree, pathOf_PML4, Radix.lookup_table_cons, userSlots, slotsOf, if_pos hown]

/-- Two user addresses with one path lie in one page. -/
lemma page_eq_of_user {va va' : ℕ} (h : va < memLowHalfMax) (h' : va' < memLowHalfMax)
    (hpath : pathOf PML4 va = pathOf PML4 va') : va / 4096 = va' / 4096 := by
  have hbound : memLowHalfMax ≤ 0 + pointeeSize (PML4 + 1) := by decide
  exact @page_eq_of_pathOf_eq PML4 0 va va' (dvd_zero _) (Nat.zero_le _) (h.trans_le hbound)
    (Nat.zero_le _) (h'.trans_le hbound) hpath

lemma userLookup_inj {s : Pmm} {pm : Frame} (hs : SpaceOk pm s) {va va' : ℕ}
    (h : va < memLowHalfMax) (h' : va' < memLowHalfMax) {entry entry' : Word}
    (hl : userLookup s.memory pm va = some entry) (hl' : userLookup s.memory pm va' = some entry')
    (ht : entryTarget entry = entryTarget entry') : va / 4096 = va' / 4096 := by
  have hslots : (slotFrames userHalf s.memory PDPT pm).Nodup :=
    (Multiset.nodup_add.mp (Multiset.nodup_cons.mp hs.apart.nodup).2).1
  rw [userLookup_eq h] at hl
  rw [userLookup_eq h'] at hl'
  have hi := userHalf_iff.mpr (tableIndex_lt_of_user h)
  have hi' := userHalf_iff.mpr (tableIndex_lt_of_user h')
  have hg := Radix.mem_collect_of_lookup entryTarget hl
  have hg' := Radix.mem_collect_of_lookup entryTarget hl'
  have hindex : tableIndex PML4 va = tableIndex PML4 va' := by
    rw [ht] at hg
    exact hs.apart.slot_eq hi hi' hg hg'
  have hnodup : (frames (s.treeAt PDPT pm (tableIndex PML4 va))).Nodup :=
    Multiset.nodup_of_le (Apart.frames_le hi) hslots
  rw [← hindex] at hl'
  have hpath : pathOf PDPT va = pathOf PDPT va' := Radix.lookup_inj hnodup hl hl' ht
  refine page_eq_of_user h h' ?_
  rw [pathOf_PML4, pathOf_PML4, hindex, hpath]

/-- The paths of a range are those of its own addresses only. -/
lemma UserRange.pathOf_mem_pathsIn {address len va : ℕ} (hr : UserRange address len)
    (h : va < memLowHalfMax) :
    pathOf PML4 va ∈ pathsIn PML4 address (address + len) ↔
      address ≤ va ∧ va < address + len := by
  constructor
  · rintro ⟨va', h1, h2, hpath⟩
    have hpage := page_eq_of_user (h2.trans_le hr.le) h hpath
    have ha := hr.aligned
    have hl := hr.len_aligned
    omega
  · rintro ⟨h1, h2⟩
    exact mem_pathsIn h1 h2

/-! ### Steps -/

/-- What an operation on one address space does: it moves frames between the space and the free
list, and writes to frames of these two only. -/
structure SpaceStep (pm : Frame) (s s' : Pmm) : Prop where
  counted : s'.Counted
  conserved : userFrames s'.memory pm + (s'.freeList : Multiset Frame) =
    userFrames s.memory pm + (s.freeList : Multiset Frame)
  frame : ∀ g ∉ spaceFrames s.memory pm, g ∉ s.freeList → s'.memory g = s.memory g
  kernel : ∀ i, userHalf i = false → s'.memory pm i = s.memory pm i

lemma mem_userFrames {s : Pmm} {pm : Frame} {g : Frame} {i : Fin 512} (hi : userHalf i = true)
    (hg : g ∈ frames (s.treeAt PDPT pm i)) : g ∈ userFrames s.memory pm :=
  Multiset.mem_of_le (Apart.frames_le hi) hg

lemma SpaceStep.of_slots {T : Touch} {pm : Frame} {s s' : Pmm} {visited : List (Fin 512)}
    (howned : ∀ i ∈ visited, userHalf i = true)
    (h : SlotsStep T userHalf PDPT pm visited s s') : SpaceStep pm s s' := by
  refine ⟨h.counted, h.conserved, fun g hg hfree => ?_, fun i hi => ?_⟩
  · rw [spaceFrames, Multiset.mem_cons, not_or] at hg
    refine h.frame g hg.1 (fun i hi hT => hg.2 ?_) hfree
    exact mem_userFrames (howned i hi) (Multiset.mem_of_le (T.le _) hT)
  · exact h.entries i fun hmem => by simp [howned i hmem] at hi

namespace SpaceStep

variable {pm : Frame} {s s' s'' : Pmm}

lemma apart (h : SpaceStep pm s s') (hs : Apart userHalf PDPT pm s) :
    Apart userHalf PDPT pm s' :=
  hs.of_conserved h.conserved

end SpaceStep

/-! ### `mmu_assign` -/

/-- What `mmu_assign` does to an address space. -/
structure Assigned (pm : Frame) (address len : ℕ) (flags : Word) (s s' : Pmm) : Prop where
  step : SpaceStep pm s s'
  ok : SpaceOk pm s'
  unmapped : ∀ va, address ≤ va → va < address + len → userLookup s.memory pm va = none
  inside : ∀ va, address ≤ va → va < address + len → ∃ page ∈ s.freeList,
    userLookup s'.memory pm va = some (entryAddressBits page ||| flags) ∧
      s'.memory page = Page.fill 0
  outside : ∀ va < memLowHalfMax, ¬ (address ≤ va ∧ va < address + len) →
    userLookup s'.memory pm va = userLookup s.memory pm va
  noEmpty : NoEmptyTables s.memory pm → NoEmptyTables s'.memory pm
  erase : NoEmptyTables s.memory pm → ∀ i,
    (userSlots s'.memory pm i).erase {p | i :: p ∈ pathsIn PML4 address (address + len)} =
      userSlots s.memory pm i

/-- A page of the range is mapped. -/
def RangeMapped (pm : Frame) (address len : ℕ) (s : Pmm) : Prop :=
  ∃ va, address ≤ va ∧ va < address + len ∧ userLookup s.memory pm va ≠ none

lemma mmuAssign_spec {pm : Frame} {address len : ℕ} {mode : MmuMode} {cache : MmuCache} {s : Pmm}
    (hr : UserRange address len) (hs : SpaceOk pm s) :
    Ensures (AssignStop (RangeMapped pm address len s))
      (Assigned pm address len (entryFlags cache mode) s)
      (mmuAssign pm address len mode cache s) := by
  unfold mmuAssign
  rw [hr.validateLimits_eq, hr.uaddIsize_eq, ok_bind]
  have hle := hr.le
  have htr := hr.tableRange
  have howned := fun i (hi : i ∈ indices PML4 address (address + len)) => hr.userHalf_of_mem hi
  refine (assign_slots (flagBits_entryFlags cache mode) s.freeList PDPT htr howned hs.apart
    hs.counted fun g hg => hg).mono ?_ ?_
  · rintro e (he | ⟨he, hmapped⟩)
    · exact Or.inl he
    · refine Or.inr ⟨he, ?_⟩
      by_contra hnone
      refine hmapped fun va h1 h2 => ?_
      rw [Pmm.treeAt]
      by_contra hlookup
      exact hnone ⟨va, h1, h2, by rwa [userLookup_eq (h2.trans_le hle)]⟩
  rintro s' ⟨hslots, hassigned⟩
  have hsame : ∀ i, i ∉ indices PML4 address (address + len) →
      userSlots s'.memory pm i = userSlots s.memory pm i := by
    intro i hi
    cases hown : userHalf i with
    | false => simp [userSlots, slotsOf, hown]
    | true =>
      rw [userSlots, slotsOf_of_owned hown, userSlots, slotsOf_of_owned hown]
      exact hslots.same i hi hown
  have hin : ∀ i ∈ indices PML4 address (address + len),
      AssignedSlot s.freeList (entryFlags cache mode) PDPT 0 address (address + len) i
        (userSlots s.memory pm i) (userSlots s'.memory pm i) s'.memory := by
    intro i hi
    rw [userSlots, slotsOf_of_owned (howned i hi), userSlots, slotsOf_of_owned (howned i hi)]
    exact hassigned i hi
  have hopen : Opened intermediate (userSlots s.memory pm) (userTree s.memory pm) := .old
  have hroot : AssignedAt s.freeList (entryFlags cache mode) PML4 0 address (address + len)
      (userTree s.memory pm) (.table intermediate (userSlots s'.memory pm)) s'.memory :=
    AssignedAt.of_slots htr hopen hsame hin
  have hstep := SpaceStep.of_slots howned hslots
  refine ⟨hstep, ⟨hstep.apart hs.apart, hstep.counted, fun i => ?_⟩, hroot.unmapped,
    hroot.inside, ?_, fun hne i => ?_, fun hne i => ?_⟩
  · by_cases hi : i ∈ indices PML4 address (address + len)
    · exact (hin i hi).tables (hs.tables i)
    · rw [hsame i hi]
      exact hs.tables i
  · intro va hva
    have hbound : memLowHalfMax ≤ 0 + pointeeSize (PML4 + 1) := by decide
    exact hroot.outside va (Nat.zero_le _) (hva.trans_le hbound)
  · by_cases hi : i ∈ indices PML4 address (address + len)
    · exact (hin i hi).noEmpty (hne i)
    · rw [hsame i hi]
      exact hne i
  · by_cases hi : i ∈ indices PML4 address (address + len)
    · rw [htr.pathsIn_child i]
      exact (hin i hi).erase (hne i)
    · rw [htr.pathsIn_child_of_notMem hi, Radix.erase_empty, hsame i hi]

/-! ### `mmu_clear` -/

/-- What `mmu_clear` does to an address space. -/
structure ClearedRange (pm : Frame) (address len : ℕ) (s s' : Pmm) : Prop where
  step : SpaceStep pm s s'
  ok : SpaceOk pm s'
  slots : ∀ i, userSlots s'.memory pm i =
    (userSlots s.memory pm i).erase {p | i :: p ∈ pathsIn PML4 address (address + len)}

lemma mmuClear_spec {pm : Frame} {address len : ℕ} {s : Pmm} (hr : UserRange address len)
    (hs : SpaceOk pm s) :
    Ensures (fun _ => False) (ClearedRange pm address len s) (mmuClear pm address len s) := by
  unfold mmuClear
  rw [hr.validateLimits_eq, hr.uaddIsize_eq, ok_bind]
  have htr := hr.tableRange
  have howned := fun i (hi : i ∈ indices PML4 address (address + len)) => hr.userHalf_of_mem hi
  refine (clear_slots PDPT htr howned hs.apart hs.counted).bind ?_
  rintro ⟨empty, s'⟩ ⟨hslots, hcleared, -⟩
  have hstep := SpaceStep.of_slots howned hslots
  have herase : ∀ i, userSlots s'.memory pm i =
      (userSlots s.memory pm i).erase {p | i :: p ∈ pathsIn PML4 address (address + len)} := by
    intro i
    by_cases hi : i ∈ indices PML4 address (address + len)
    · rw [userSlots, slotsOf_of_owned (howned i hi), userSlots, slotsOf_of_owned (howned i hi),
        htr.pathsIn_child i]
      exact hcleared i hi
    · rw [htr.pathsIn_child_of_notMem hi, Radix.erase_empty]
      cases hown : userHalf i with
      | false => simp [userSlots, slotsOf, hown]
      | true =>
        rw [userSlots, slotsOf_of_owned hown, userSlots, slotsOf_of_owned hown]
        exact hslots.same i hi hown
  refine ⟨hstep, ⟨hstep.apart hs.apart, hstep.counted, fun i => ?_⟩, herase⟩
  rw [herase i]
  exact (hs.tables i).erase _

namespace ClearedRange

variable {pm : Frame} {address len : ℕ} {s s' : Pmm}

lemma noEmpty (h : ClearedRange pm address len s s') (hne : NoEmptyTables s.memory pm) :
    NoEmptyTables s'.memory pm := fun i => by
  rw [h.slots i]
  exact (hne i).erase _

/-- The pages of the range are gone, the others stay. -/
lemma lookup (h : ClearedRange pm address len s s') (hr : UserRange address len) {va : ℕ}
    (hva : va < memLowHalfMax) : userLookup s'.memory pm va =
      if address ≤ va ∧ va < address + len then none else userLookup s.memory pm va := by
  have hmem : pathOf PDPT va ∈ {p | tableIndex PML4 va :: p ∈ pathsIn PML4 address (address + len)}
      ↔ address ≤ va ∧ va < address + len := hr.pathOf_mem_pathsIn hva
  rw [userLookup, userTree, pathOf_PML4, Radix.lookup_table_cons, h.slots, Radix.lookup_erase]
  by_cases hin : address ≤ va ∧ va < address + len
  · rw [if_pos (hmem.mpr hin), if_pos hin]
  · rw [if_neg (fun hp => hin (hmem.mp hp)), if_neg hin]
    rfl

end ClearedRange

/-! ### Creating, copying and destroying an address space -/

/-- What the making of a new address space does. Its frames were free; no other frame changes. -/
structure NewSpace (pm page : Frame) (s s' : Pmm) : Prop where
  ok : SpaceOk page s'
  conserved : spaceFrames s'.memory page + (s'.freeList : Multiset Frame) = s.freeList
  frame : ∀ g ∉ s.freeList, s'.memory g = s.memory g
  kernel : ∀ i, userHalf i = false → s'.memory page i = s.memory pm i

/-- A new `PML4` with a copy of the kernel half. -/
lemma newSpace_of_alloc {pm page : Frame} {s s₁ : Pmm} (hnodup : s.freeList.Nodup)
    (hpm : pm ∉ s.freeList) (halloc : Allocated page s s₁) :
    NewSpace pm page s (s₁.setPage page (copyKernelHalf (s₁.memory pm) (s₁.memory page))) ∧
      ∀ i, userHalf i = true →
        isPresent ((s₁.setPage page (copyKernelHalf (s₁.memory pm) (s₁.memory page))).memory
          page i) = false := by
  set s' := s₁.setPage page (copyKernelHalf (s₁.memory pm) (s₁.memory page)) with hs'
  have hne : pm ≠ page := fun h => hpm (h ▸ halloc.mem)
  have hempty : ∀ i, userHalf i = true → isPresent (s'.memory page i) = false := by
    intro i hi
    rw [hs', Pmm.setPage_self, copyKernelHalf, if_pos (userHalf_iff.mp hi), halloc.zero]
    exact isPresent_fill_zero i
  have hslots : ∀ i, userSlots s'.memory page i = .absent := by
    intro i
    unfold userSlots slotsOf
    split_ifs with hi
    · exact treeOf_absent (hempty i hi) _
    · rfl
  have hframes : userFrames s'.memory page = 0 := framesOfSlots_of_absent hslots
  have hlist : (page ::ₘ (s'.freeList : Multiset Frame)) = s.freeList := by
    rw [halloc.freeList]
    rfl
  refine ⟨⟨⟨⟨?_⟩, halloc.counted, fun i => ?_⟩, ?_, fun g hg => ?_, fun i hi => ?_⟩, hempty⟩
  · have hzero : slotFrames userHalf s'.memory PDPT page = 0 := hframes
    rw [hzero, zero_add, hlist]
    exact hnodup
  · rw [hslots i]
    exact Radix.tables_absent _
  · rw [spaceFrames, hframes, Multiset.cons_add, zero_add, hlist]
  · have hgp : g ≠ page := fun h => hg (h ▸ halloc.mem)
    rw [hs', Pmm.setPage_of_ne _ _ hgp, halloc.other g hgp]
  · have hlow : ¬ i.val < 256 := fun h => by simp [userHalf_iff.mpr h] at hi
    rw [hs', Pmm.setPage_self, copyKernelHalf, if_neg hlow, halloc.other pm hne]

lemma mmuCreateAddressSpace_spec {cr3 out : Frame} {s : Pmm} (hout : out.address = 0)
    (hnodup : s.freeList.Nodup) (hcr3 : cr3 ∉ s.freeList) (hcount : s.Counted) :
    Ensures (· = .outOfMemory) (fun r => NewSpace cr3 r.1 s r.2 ∧
      ∀ i, userSlots r.2.memory r.1 i = .absent) (mmuCreateAddressSpace cr3 out s) := by
  unfold mmuCreateAddressSpace assert
  rw [if_pos (by simpa using hout), ok_bind]
  refine (mmuAllocPage_spec hcount).bind ?_
  rintro ⟨page, s₁⟩ halloc
  obtain ⟨hnew, hempty⟩ := newSpace_of_alloc hnodup hcr3 halloc
  refine ⟨hnew, fun i => ?_⟩
  unfold userSlots slotsOf
  split_ifs with hi
  · exact treeOf_absent (hempty i hi) _
  · rfl

/-- The frames of a space, split into its root and the rest. -/
lemma SpaceOk.notMem_free {pm : Frame} {s : Pmm} (hs : SpaceOk pm s) {g : Frame}
    (hg : g ∈ spaceFrames s.memory pm) : g ∉ s.freeList := by
  have hnodup := hs.apart.nodup
  rw [← Multiset.cons_add] at hnodup
  exact fun hmem => Multiset.disjoint_left.mp (Multiset.nodup_add.mp hnodup).2.2 hg
    (Multiset.mem_coe.mpr hmem)

lemma SpaceOk.nodup_free {pm : Frame} {s : Pmm} (hs : SpaceOk pm s) : s.freeList.Nodup :=
  (Multiset.nodup_add.mp (Multiset.nodup_cons.mp hs.apart.nodup).2).2.1

/-- Filling the user half of a new address space with the copy of another one. -/
lemma newSpace_clone {pm page : Frame} {s s₁ : Pmm} (hs : SpaceOk pm s) (hpage : page ∈ s.freeList)
    (hnew : NewSpace pm page s s₁)
    (hempty : ∀ i, userHalf i = true → isPresent (s₁.memory page i) = false) :
    Ensures (fun e => e = .outOfMemory ∧
        s.freeList.length < Multiset.card (spaceFrames s.memory pm))
      (fun s' => NewSpace pm page s s' ∧
        ∀ i, TreeCopy s.memory s'.memory (userSlots s.memory pm i) (userSlots s'.memory page i))
      (clone (PDPT + 1) pm page s₁) := by
  have hslots : ∀ i, userSlots s₁.memory page i = .absent := by
    intro i
    unfold userSlots slotsOf
    split_ifs with hi
    · exact treeOf_absent (hempty i hi) _
    · rfl
  have hframes : userFrames s₁.memory page = 0 := framesOfSlots_of_absent hslots
  have hlist : (page ::ₘ (s₁.freeList : Multiset Frame)) = s.freeList := by
    rw [← hnew.conserved, spaceFrames, hframes, Multiset.cons_add, zero_add]
  have hfree : ∀ g ∈ s₁.freeList, g ∈ s.freeList := by
    intro g hg
    rw [← Multiset.mem_coe, ← hlist]
    exact Multiset.mem_cons_of_mem (Multiset.mem_coe.mpr hg)
  have hsrc : CloneSource s.memory userHalf PDPT pm page s₁ :=
    ⟨fun g hg => hnew.frame g (hs.notMem_free hg), fun g hg h => hs.notMem_free hg (h ▸ hpage),
      fun g hg hmem => hs.notMem_free hg (hfree g hmem)⟩
  refine (clone_slots s.memory PDPT le_rfl hnew.ok.apart hnew.ok.counted hempty hsrc).mono ?_ ?_
  · rintro e ⟨he, hlt⟩
    have hlength := congrArg Multiset.card hlist
    rw [Multiset.card_cons, Multiset.coe_card, Multiset.coe_card] at hlength
    refine ⟨he, ?_⟩
    rw [spaceFrames, Multiset.card_cons, ← hlength]
    exact Nat.succ_lt_succ hlt
  rintro s' ⟨hstep, hcopy⟩
  have hspace := SpaceStep.of_slots (fun i hi => mem_cloneIndices.mp hi) hstep
  have htree : ∀ i, TreeCopy s.memory s'.memory (userSlots s.memory pm i)
      (userSlots s'.memory page i) := by
    intro i
    cases hi : userHalf i with
    | false =>
      simp only [userSlots, slotsOf, hi, Bool.false_eq_true, if_false]
      exact .absent
    | true =>
      simp only [userSlots, slotsOf, hi, if_true]
      exact hcopy i (mem_cloneIndices.mpr hi)
  refine ⟨⟨⟨hspace.apart hnew.ok.apart, hspace.counted, fun i => (htree i).tables fun _ _ h => h⟩,
    ?_, fun g hg => ?_, fun i hi => ?_⟩, htree⟩
  · rw [← hnew.conserved, spaceFrames, spaceFrames, Multiset.cons_add, Multiset.cons_add,
      hspace.conserved]
  · have hgp : g ≠ page := fun h => hg (h ▸ hpage)
    rw [hspace.frame g ?_ fun hmem => hg (hfree g hmem), hnew.frame g hg]
    rw [spaceFrames, hframes]
    simpa using hgp
  · rw [hspace.kernel i hi, hnew.kernel i hi]

/-- `mmu_clone_address_space` copies every tree of the user half, unless fewer frames are free than
the space has. -/
lemma mmuCloneAddressSpace_spec {pm out : Frame} {s : Pmm} (hout : out.address = 0)
    (hs : SpaceOk pm s) :
    Ensures (fun e => e = .outOfMemory ∧
        s.freeList.length < Multiset.card (spaceFrames s.memory pm))
      (fun r => NewSpace pm r.1 s r.2 ∧
        ∀ i, TreeCopy s.memory r.2.memory (userSlots s.memory pm i) (userSlots r.2.memory r.1 i))
      (mmuCloneAddressSpace pm out s) := by
  have hpm : pm ∉ s.freeList := hs.apart.table_notMem_free
  unfold mmuCloneAddressSpace assert
  rw [if_pos (by simpa using hout), ok_bind]
  have hshort : s.freeList = [] → s.freeList.length < Multiset.card (spaceFrames s.memory pm) := by
    intro hnil
    rw [hnil, spaceFrames, Multiset.card_cons]
    exact Nat.succ_pos _
  refine ((mmuAllocPage_short hs.counted).mono (fun e he => ⟨he.1, hshort he.2⟩)
    fun _ h => h).bind fun r halloc => ?_
  obtain ⟨hnew, hempty⟩ := newSpace_of_alloc hs.nodup_free hpm halloc
  refine (newSpace_clone hs halloc.mem hnew hempty).bind fun s' h => ?_
  exact h

/-- Without pages and without empty tables, a tree has nothing. -/
lemma treeOf_eq_absent_of_lookup {memory : Frame → Page} {d base : ℕ} {entry : Word}
    (hd : pointeeSize (d + 1) ∣ base) (hne : (treeOf memory d entry).NoEmpty)
    (h : ∀ va, base ≤ va → va < base + pointeeSize (d + 1) →
      (treeOf memory d entry).lookup (pathOf d va) = none) : treeOf memory d entry = .absent := by
  refine hne.eq_absent fun p => ?_
  by_cases hp : p.length = d
  · obtain ⟨va, h1, h2, rfl⟩ := exists_pathOf hd hp
    exact h va h1 h2
  · exact lookup_of_length hp

/-- The share of an entry of the user half. -/
lemma tableIndex_of_share {i : Fin 512} {va : ℕ} (hi : i.val < 256)
    (h1 : i.val * pointeeSize (PDPT + 1) ≤ va)
    (h2 : va < i.val * pointeeSize (PDPT + 1) + pointeeSize (PDPT + 1)) :
    va < memLowHalfMax ∧ tableIndex PML4 va = i := by
  have hsize : pointeeSize (PDPT + 1) = 2 ^ 39 := by decide
  have hsize' : pointeeSize PML4 = 2 ^ 39 := by decide
  rw [hsize] at h1 h2
  have hva : va < memLowHalfMax := by
    simp only [memLowHalfMax]
    omega
  have hbound : memLowHalfMax ≤ 0 + pointeeSize (PML4 + 1) := by decide
  refine ⟨hva, (@tableIndex_eq_iff PML4 0 va (dvd_zero _) (Nat.zero_le _) (hva.trans_le hbound)
    i).mpr ?_⟩
  rw [hsize']
  omega

/-- `mmu_destroy_address_space` gives back the frames of the space and no others. -/
structure Destroyed (pm : Frame) (s s' : Pmm) : Prop where
  counted : s'.Counted
  freed : (s'.freeList : Multiset Frame) =
    spaceFrames s.memory pm + (s.freeList : Multiset Frame)
  frame : ∀ g ∉ spaceFrames s.memory pm, g ∉ s.freeList → s'.memory g = s.memory g

lemma userRange_all : UserRange 0 memLowHalfMax := ⟨by decide, by decide, by decide, by decide⟩

lemma mmuDestroyAddressSpace_spec {cr3 pm : Frame} {s : Pmm} (hcr3 : pm ≠ cr3)
    (hs : SpaceOk pm s) (hne : NoEmptyTables s.memory pm) :
    Ensures (fun _ => False) (Destroyed pm s) (mmuDestroyAddressSpace cr3 pm s) := by
  unfold mmuDestroyAddressSpace assert
  have haddress : pm.address ≠ cr3.address := fun h => hcr3 (Frame.ext_address h)
  rw [if_pos (by simpa using haddress), ok_bind]
  refine (mmuClear_spec userRange_all hs).bind fun s' h => ?_
  have habsent : ∀ i, userSlots s'.memory pm i = .absent := by
    intro i
    cases hi : userHalf i with
    | false => simp [userSlots, slotsOf, hi]
    | true =>
      have hnei := h.noEmpty hne i
      rw [userSlots, slotsOf_of_owned hi] at hnei ⊢
      refine treeOf_eq_absent_of_lookup (Dvd.intro_left i.val rfl) hnei fun va h1 h2 => ?_
      obtain ⟨hva, hindex⟩ := tableIndex_of_share (userHalf_iff.mp hi) h1 h2
      have hnone := h.lookup userRange_all hva
      rw [if_pos ⟨Nat.zero_le _, by simpa using hva⟩, userLookup_eq hva, hindex] at hnone
      exact hnone
  have hframes : userFrames s'.memory pm = 0 := framesOfSlots_of_absent habsent
  have hconserved := h.step.conserved
  rw [hframes, zero_add] at hconserved
  refine ⟨freePage_counted h.step.counted pm, ?_, fun g hg hfree => ?_⟩
  · rw [spaceFrames, Multiset.cons_add, ← hconserved]
    rfl
  · have hgp : g ≠ pm := fun heq => hg (heq ▸ Multiset.mem_cons_self _ _)
    rw [freePage_memory_of_ne hgp, h.step.frame g hg hfree]

end Fluke
