import Fluke.X86.Mmu.Slots

/-!
# Entries made by the kernel

An entry is put together from the address of a frame and flag bits outside the address; both
can be read back. `Allocated` is what `mmu_alloc_page` does.
-/

namespace Fluke

open Outcome TableEntry

/-- Flag bits of a present entry, none of them in the address. -/
structure FlagBits (flags : Word) : Prop where
  noAddress : flags &&& tableEntryAddressMask = 0
  present : isPresent flags = true

/-- The flag bits of an entry. -/
def entryPermissions (entry : Word) : Word := entry &&& ~~~tableEntryAddressMask

/-- The entry points at a table that user code may read and write through; it has the flags the
kernel gives to such entries, and the processor may have added others. -/
structure IsIntermediate (entry : Word) : Prop where
  flags : entry &&& intermediate = intermediate
  table : entry &&& psBit = 0

lemma entryAddressBits_eq (page : Frame) : entryAddressBits page = page.address := page.aligned

lemma Frame.ext_address {f g : Frame} (h : f.address = g.address) : f = g := by
  cases f
  cases g
  simpa using h

lemma entryTarget_or {flags : Word} (h : FlagBits flags) (page : Frame) :
    entryTarget (entryAddressBits page ||| flags) = page := by
  apply Frame.ext_address
  simp only [entryTarget]
  rw [BitVec.and_or_distrib_right, h.noAddress, entryAddressBits_eq, page.aligned]
  simp

lemma isPresent_or {flags : Word} (h : isPresent flags = true) (word : Word) :
    isPresent (word ||| flags) = true := by
  simp only [isPresent, bne_iff_ne, ne_eq] at h ⊢
  intro hzero
  rw [BitVec.and_or_distrib_right] at hzero
  exact h (BitVec.or_eq_zero_iff.mp hzero).2

lemma entryPermissions_or {flags : Word} (h : FlagBits flags) (page : Frame) :
    entryPermissions (entryAddressBits page ||| flags) = flags := by
  have haddress : page.address &&& ~~~tableEntryAddressMask = 0 := by
    rw [← page.aligned, BitVec.and_assoc]
    simp
  have hflags : flags &&& ~~~tableEntryAddressMask = flags := by
    have hsplit : (flags &&& tableEntryAddressMask) ||| (flags &&& ~~~tableEntryAddressMask)
        = flags := by
      rw [← BitVec.and_or_distrib_left, BitVec.or_not_self, BitVec.and_allOnes]
    rw [h.noAddress] at hsplit
    simpa using hsplit
  unfold entryPermissions
  rw [BitVec.and_or_distrib_right, entryAddressBits_eq, haddress, hflags]
  simp

lemma flagBits_intermediate : FlagBits intermediate := ⟨by decide, by decide⟩

lemma flagBits_entryFlags (cache : MmuCache) (mode : MmuMode) :
    FlagBits (entryFlags cache mode) := by
  unfold entryFlags
  split_ifs <;> exact ⟨by decide, by decide⟩

/-- A bit outside the address of an entry is found among its flag bits. -/
lemma and_eq_entryPermissions_and {bits : Word} (h : ~~~tableEntryAddressMask &&& bits = bits)
    (entry : Word) : entry &&& bits = entryPermissions entry &&& bits := by
  rw [entryPermissions, BitVec.and_assoc, h]

lemma isIntermediate_or (page : Frame) :
    IsIntermediate (entryAddressBits page ||| intermediate) := by
  constructor
  · rw [and_eq_entryPermissions_and (by decide), entryPermissions_or flagBits_intermediate]
    decide
  · rw [and_eq_entryPermissions_and (by decide), entryPermissions_or flagBits_intermediate]
    decide

@[simp] lemma isPresent_zero : isPresent 0 = false := by decide

lemma isPresent_fill_zero (i : Fin 512) : isPresent (Page.fill 0 i) = false := by
  show isPresent (0 ++ 0 ++ 0 ++ 0 ++ 0 ++ 0 ++ 0 ++ 0) = false
  decide

/-- A table filled with zeroes has no present entry. -/
lemma treeAt_of_zero {s : Pmm} {table : Frame} (h : s.memory table = Page.fill 0) (d : ℕ)
    (i : Fin 512) : s.treeAt d table i = .absent :=
  treeOf_absent (by rw [h]; exact isPresent_fill_zero i) d

lemma slotFrames_of_zero {s : Pmm} {table : Frame} (h : s.memory table = Page.fill 0) (d : ℕ) :
    slotFrames allSlots s.memory d table = 0 :=
  framesOfSlots_of_absent fun i => treeAt_of_zero h d i

/-- `page` was taken off the free list and zeroed. -/
structure Allocated (page : Frame) (s s' : Pmm) : Prop where
  freeList : s.freeList = page :: s'.freeList
  counted : s'.Counted
  zero : s'.memory page = Page.fill 0
  other : ∀ g, g ≠ page → s'.memory g = s.memory g

/-- There is a page unless no frame is free. -/
lemma mmuAllocPage_short {s : Pmm} (h : s.Counted) :
    Ensures (fun e => e = .outOfMemory ∧ s.freeList = []) (fun r => Allocated r.1 s r.2)
      (mmuAllocPage s) := by
  unfold mmuAllocPage
  rcases allocPage_eq h with ⟨hnil, heq⟩ | ⟨page, next, hfree, heq⟩
  · rw [heq]
    exact ⟨rfl, hnil⟩
  · rw [heq]
    refine ⟨hfree, rfl, by simp, fun g hg => ?_⟩
    rw [Pmm.setPage_of_ne _ _ hg, Pmm.setPage_of_ne _ _ hg]

lemma mmuAllocPage_spec {s : Pmm} (h : s.Counted) :
    Ensures (· = .outOfMemory) (fun r => Allocated r.1 s r.2) (mmuAllocPage s) :=
  (mmuAllocPage_short h).mono (fun _ he => he.1) fun _ hr => hr

lemma Allocated.mem {page : Frame} {s s' : Pmm} (h : Allocated page s s') :
    page ∈ s.freeList := by
  rw [h.freeList]
  exact List.mem_cons_self

lemma Allocated.free_subset {page : Frame} {s s' : Pmm} (h : Allocated page s s') {g : Frame}
    (hg : g ∈ s'.freeList) : g ∈ s.freeList := by
  rw [h.freeList]
  exact List.mem_cons_of_mem _ hg

end Fluke
