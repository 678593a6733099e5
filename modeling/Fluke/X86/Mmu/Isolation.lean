import Fluke.X86.Mmu.Spaces

/-!
# A cloned address space

The clone has the pages of the original under the same addresses, with the same permissions and
contents, in frames of its own. From then on the two are independent: what user code and the
kernel do in one of them is not seen in the other.
-/

namespace Fluke

open Outcome TableEntry

/-- A word that user code stores; without a writable user page at the address nothing happens. -/
def userStore (pm : Frame) (va : ℕ) (word : Word) (s : Pmm) : Pmm :=
  match leafEntry s.memory pm va with
  | some (0, entry) =>
    if entry &&& (user ||| write) = user ||| write then
      s.setWord (entryTarget entry) ⟨va % 4096 / 8, by omega⟩ word
    else s
  | _ => s

/-- What happens in one address space. -/
inductive SpaceOp where
  | store (va : ℕ) (word : Word)
  | assign (address : ℕ) (len : ℤ) (mode : MmuMode) (cache : MmuCache)
  | clear (address : ℕ) (len : ℤ)

/-- One such event in the space `pm`. -/
def SpaceOp.run (pm : Frame) : SpaceOp → Pmm → Except Panic Pmm
  | .store va word, s => .ok (userStore pm va word s)
  | .assign address len mode cache, s => mmuAssign pm address len mode cache s
  | .clear address len, s => mmuClear pm address len s

/-- User addresses and ranges of the user half. -/
def SpaceOp.Admits : SpaceOp → Pmm → Prop
  | .store va _, _ => va < memLowHalfMax
  | .assign address len _ _, _ => UserLimits address len
  | .clear address len, _ => UserLimits address len

/-- Two address spaces without a common frame. -/
structure TwoSpaces (pm other : Frame) (s : Pmm) : Prop where
  nodup : (spaceFrames s.memory pm + spaceFrames s.memory other +
    (s.freeList : Multiset Frame)).Nodup
  counted : s.Counted
  tables : ∀ i, (userSlots s.memory pm i).Tables IsIntermediate
  tables' : ∀ i, (userSlots s.memory other i).Tables IsIntermediate

namespace TwoSpaces

variable {pm other : Frame} {s s' : Pmm}

lemma symm (h : TwoSpaces pm other s) : TwoSpaces other pm s := by
  refine ⟨?_, h.counted, h.tables', h.tables⟩
  rw [add_comm (spaceFrames s.memory other)]
  exact h.nodup

lemma left (h : TwoSpaces pm other s) : SpaceOk pm s := by
  refine ⟨⟨?_⟩, h.counted, h.tables⟩
  rw [← Multiset.cons_add]
  refine Multiset.nodup_of_le ?_ h.nodup
  exact add_le_add_left (Multiset.le_add_right _ _) _

/-- The other space lies apart from this one and from the free list. -/
lemma apart (h : TwoSpaces pm other s) {g : Frame} (hg : g ∈ spaceFrames s.memory other) :
    g ∉ spaceFrames s.memory pm ∧ g ∉ s.freeList := by
  obtain ⟨hspaces, -, hfree⟩ := Multiset.nodup_add.mp h.nodup
  refine ⟨fun hmem => ?_, fun hmem => ?_⟩
  · exact Multiset.disjoint_left.mp (Multiset.nodup_add.mp hspaces).2.2 hmem hg
  · exact Multiset.disjoint_left.mp hfree (Multiset.mem_add.mpr (Or.inr hg))
      (Multiset.mem_coe.mpr hmem)

/-- A step in one space. -/
lemma of_step (h : TwoSpaces pm other s) (hstep : SpaceStep pm s s') (hok : SpaceOk pm s') :
    TwoSpaces pm other s' ∧ ∀ g ∈ spaceFrames s.memory other, s'.memory g = s.memory g := by
  have hsame : ∀ g ∈ spaceFrames s.memory other, s'.memory g = s.memory g := fun g hg =>
    hstep.frame g (h.apart hg).1 (h.apart hg).2
  refine ⟨⟨?_, hstep.counted, hok.tables, ?_⟩, hsame⟩
  · have hconserved : spaceFrames s'.memory pm + (s'.freeList : Multiset Frame) =
        spaceFrames s.memory pm + (s.freeList : Multiset Frame) := by
      rw [spaceFrames, spaceFrames, Multiset.cons_add, Multiset.cons_add, hstep.conserved]
    rw [spaceFrames_congr hsame, add_right_comm, hconserved, add_right_comm]
    exact h.nodup
  · rw [userSlots_congr hsame]
    exact h.tables'

end TwoSpaces

/-- Writing to a page changes no tree. -/
lemma userSlots_setPage {pm : Frame} {s : Pmm} (hs : SpaceOk pm s) {va : ℕ}
    (hva : va < memLowHalfMax) {entry : Word} (h : userLookup s.memory pm va = some entry)
    (page : Page) :
    userSlots (s.setPage (entryTarget entry) page).memory pm = userSlots s.memory pm := by
  rw [userLookup_eq hva] at h
  have hi := userHalf_iff.mpr (tableIndex_lt_of_user hva)
  have htarget : entryTarget entry ∈ frames (s.treeAt PDPT pm (tableIndex PML4 va)) :=
    Radix.mem_collect_of_lookup entryTarget h
  have hroot : (s.setPage (entryTarget entry) page).memory pm = s.memory pm :=
    Pmm.setPage_of_ne _ _ (hs.apart.ne_table hi htarget).symm
  funext j
  unfold userSlots slotsOf
  rw [hroot]
  split_ifs with hj
  · refine treeOf_congr fun g hg => Pmm.setPage_of_ne _ _ ?_
    rintro rfl
    have hmem : entryTarget entry ∈ frames (s.treeAt PDPT pm j) :=
      Multiset.mem_of_le (Radix.collectTables_le _ _) hg
    have hij := hs.apart.slot_eq hi hj htarget hmem
    subst hij
    have hnodup : (frames (s.treeAt PDPT pm (tableIndex PML4 va))).Nodup :=
      Multiset.nodup_of_le (Apart.frames_le hi)
        (Multiset.nodup_add.mp (Multiset.nodup_cons.mp hs.apart.nodup).2).1
    exact Radix.notMem_collectTables_of_lookup hnodup h hg
  · rfl

/-- A store leaves the tables alone. -/
lemma userStore_slots {pm : Frame} {s : Pmm} (hs : SpaceOk pm s) {va : ℕ}
    (hva : va < memLowHalfMax) (word : Word) :
    userSlots (userStore pm va word s).memory pm = userSlots s.memory pm := by
  unfold userStore
  rw [leafEntry_user hs hva]
  cases h : userLookup s.memory pm va with
  | none => rfl
  | some entry =>
    simp only [Option.map_some]
    split_ifs
    · exact userSlots_setPage hs hva h _
    · rfl

/-- A store is a step of its space. -/
lemma userStore_step {pm : Frame} {s : Pmm} (hs : SpaceOk pm s) {va : ℕ}
    (hva : va < memLowHalfMax) (word : Word) :
    SpaceStep pm s (userStore pm va word s) ∧ SpaceOk pm (userStore pm va word s) := by
  have hrefl : SpaceStep pm s s := ⟨hs.counted, rfl, fun _ _ _ => rfl, fun _ _ => rfl⟩
  unfold userStore
  rw [leafEntry_user hs hva]
  cases h : userLookup s.memory pm va with
  | none => exact ⟨hrefl, hs⟩
  | some entry =>
    simp only [Option.map_some]
    split_ifs with hflags
    · have hslots := userSlots_setPage hs hva h
        (Function.update (s.memory (entryTarget entry)) ⟨va % 4096 / 8, by omega⟩ word)
      have hmem := entryTarget_mem_spaceFrames hva h
      have hframes : userFrames (s.setWord (entryTarget entry) ⟨va % 4096 / 8, by omega⟩
          word).memory pm = userFrames s.memory pm := congrArg framesOfSlots hslots
      have hne : pm ≠ entryTarget entry := by
        have hi := userHalf_iff.mpr (tableIndex_lt_of_user hva)
        rw [userLookup_eq hva] at h
        exact (hs.apart.ne_table hi (Radix.mem_collect_of_lookup entryTarget h)).symm
      have hstep : SpaceStep pm s (s.setWord (entryTarget entry) ⟨va % 4096 / 8, by omega⟩
          word) := by
        refine ⟨hs.counted, by rw [hframes]; rfl, fun g hg _ => ?_, fun i _ => ?_⟩
        · exact Pmm.setWord_of_ne_frame _ _ _ fun heq => hg (heq ▸ hmem)
        · rw [Pmm.setWord_of_ne_frame _ _ _ hne]
      refine ⟨hstep, hstep.apart hs.apart, hs.counted, fun i => ?_⟩
      have hi := congrFun hslots i
      exact hi ▸ hs.tables i
    · exact ⟨hrefl, hs⟩

/-- What one event in a space does to it. -/
lemma SpaceOp.run_step {pm : Frame} {s s' : Pmm} (hs : SpaceOk pm s) {op : SpaceOp}
    (hadmits : op.Admits s) (hrun : op.run pm s = .ok s') : SpaceStep pm s s' ∧ SpaceOk pm s' := by
  cases op with
  | store va word =>
    cases hrun
    exact userStore_step hs hadmits word
  | assign address len mode cache =>
    obtain ⟨_, hvalid, -⟩ := bind_eq_ok.mp hrun
    obtain ⟨n, rfl, hr⟩ := userRange_of_validateLimits hadmits hvalid
    have hspec := (mmuAssign_spec hr hs).of_eq_ok hrun
    exact ⟨hspec.step, hspec.ok⟩
  | clear address len =>
    obtain ⟨_, hvalid, -⟩ := bind_eq_ok.mp hrun
    obtain ⟨n, rfl, hr⟩ := userRange_of_validateLimits hadmits hvalid
    have hspec := (mmuClear_spec hr hs).of_eq_ok hrun
    exact ⟨hspec.step, hspec.ok⟩

/-- The translations of a space and the contents of its pages are the same in both states. -/
def SameUserView (pm : Frame) (s s' : Pmm) : Prop :=
  ∀ va < memLowHalfMax, leafEntry s'.memory pm va = leafEntry s.memory pm va ∧
    virtToPhys s'.memory pm va = virtToPhys s.memory pm va ∧
    ∀ entry, leafEntry s.memory pm va = some (0, entry) →
      s'.memory (entryTarget entry) = s.memory (entryTarget entry)

/-- A space whose frames are left alone looks the same. -/
lemma sameUserView_of_frames {pm : Frame} {s s' : Pmm} (hs : SpaceOk pm s) (hs' : SpaceOk pm s')
    (h : ∀ g ∈ spaceFrames s.memory pm, s'.memory g = s.memory g) : SameUserView pm s s' := by
  intro va hva
  have hlookup : userLookup s'.memory pm va = userLookup s.memory pm va := by
    rw [userLookup, userLookup, userTree, userTree, userSlots_congr h]
  have hleaf : leafEntry s'.memory pm va = leafEntry s.memory pm va := by
    rw [leafEntry_user hs' hva, leafEntry_user hs hva, hlookup]
  refine ⟨hleaf, by rw [virtToPhys_eq, virtToPhys_eq, hleaf], fun entry hentry => ?_⟩
  rw [leafEntry_user hs hva] at hentry
  simp only [Option.map_eq_some_iff, Prod.mk.injEq, true_and, exists_eq_right] at hentry
  exact h _ (entryTarget_mem_spaceFrames hva hentry)

/-- A run in one of two spaces is not seen in the other. -/
lemma TwoSpaces.run {pm other : Frame} {s s' : Pmm} (h : TwoSpaces pm other s)
    (hrun : Reachable (· = s) SpaceOp.Admits (SpaceOp.run pm) s') : SameUserView other s s' := by
  have hinv : TwoSpaces pm other s' ∧
      ∀ g ∈ spaceFrames s.memory other, s'.memory g = s.memory g := by
    refine hrun.invariant (I := fun s' => TwoSpaces pm other s' ∧
      ∀ g ∈ spaceFrames s.memory other, s'.memory g = s.memory g) ?_ ?_
    · rintro _ rfl
      exact ⟨h, fun _ _ => rfl⟩
    · rintro op s₁ s₂ ⟨htwo, hsame⟩ hadmits hstep
      obtain ⟨hspace, hok⟩ := SpaceOp.run_step htwo.left hadmits hstep
      obtain ⟨htwo', hsame'⟩ := htwo.of_step hspace hok
      rw [spaceFrames_congr hsame] at hsame'
      exact ⟨htwo', fun g hg => (hsame' g hg).trans (hsame g hg)⟩
  exact sameUserView_of_frames h.symm.left hinv.1.symm.left hinv.2

/-- What `mmu_clone_address_space` made of `pm`. -/
structure Cloned (pm copy : Frame) (s s' : Pmm) : Prop where
  present : ∀ va < memLowHalfMax,
    (leafEntry s'.memory copy va = none ↔ leafEntry s.memory pm va = none)
  page : ∀ va < memLowHalfMax, ∀ entry, leafEntry s.memory pm va = some (0, entry) →
    ∃ entry', leafEntry s'.memory copy va = some (0, entry') ∧
      entryPermissions entry' = entryPermissions entry ∧
      s'.memory (entryTarget entry') = s.memory (entryTarget entry)
  fresh : spaceFrames s'.memory copy ≤ s.freeList
  nodup : (spaceFrames s'.memory copy + spaceFrames s'.memory pm).Nodup
  source : ∀ g ∈ spaceFrames s.memory pm, s'.memory g = s.memory g
  tree : userSlots s'.memory pm = userSlots s.memory pm
  kernel : ∀ i, userHalf i = false → s'.memory copy i = s.memory pm i

lemma NewSpace.twoSpaces {pm copy : Frame} {s s' : Pmm} (hs : SpaceOk pm s)
    (hnew : NewSpace pm copy s s') : TwoSpaces pm copy s' := by
  have hsame : ∀ g ∈ spaceFrames s.memory pm, s'.memory g = s.memory g := fun g hg =>
    hnew.frame g (hs.notMem_free hg)
  refine ⟨?_, hnew.ok.counted, ?_, hnew.ok.tables⟩
  · rw [add_assoc, hnew.conserved, spaceFrames_congr hsame, spaceFrames, Multiset.cons_add]
    exact hs.apart.nodup
  · rw [userSlots_congr hsame]
    exact hs.tables

lemma NewSpace.cloned {pm copy : Frame} {s s' : Pmm} (hs : SpaceOk pm s)
    (hnew : NewSpace pm copy s s')
    (hcopy : ∀ i, TreeCopy s.memory s'.memory (userSlots s.memory pm i)
      (userSlots s'.memory copy i)) : Cloned pm copy s s' := by
  have hsame : ∀ g ∈ spaceFrames s.memory pm, s'.memory g = s.memory g := fun g hg =>
    hnew.frame g (hs.notMem_free hg)
  have hroot : TreeCopy s.memory s'.memory (userTree s.memory pm) (userTree s'.memory copy) :=
    .table ⟨by decide, by decide⟩ hcopy
  have hpage : ∀ va < memLowHalfMax, ∀ entry, leafEntry s.memory pm va = some (0, entry) →
      ∃ entry', leafEntry s'.memory copy va = some (0, entry') ∧
        entryPermissions entry' = entryPermissions entry ∧
        s'.memory (entryTarget entry') = s.memory (entryTarget entry) := by
    intro va hva entry hentry
    rw [leafEntry_user hs hva] at hentry
    simp only [Option.map_eq_some_iff, Prod.mk.injEq, true_and, exists_eq_right] at hentry
    obtain ⟨entry', hentry', hperm, hcontents⟩ := hroot.lookup_some hentry
    refine ⟨entry', ?_, hperm, hcontents⟩
    rw [leafEntry_user hnew.ok hva]
    exact congrArg (Option.map _) hentry'
  have htwo := (hnew.twoSpaces hs).symm.nodup
  refine ⟨fun va hva => ?_, hpage, ?_, (Multiset.nodup_add.mp htwo).1, hsame,
    userSlots_congr hsame, hnew.kernel⟩
  · rw [leafEntry_user_eq_none hnew.ok hva, leafEntry_user_eq_none hs hva]
    refine ⟨fun hnone => ?_, fun hnone => hroot.lookup_none hnone⟩
    by_contra hmapped
    obtain ⟨entry, hentry⟩ := Option.ne_none_iff_exists'.mp hmapped
    obtain ⟨entry', hentry', -⟩ := hroot.lookup_some hentry
    rw [← userLookup, hnone] at hentry'
    cases hentry'
  · rw [← hnew.conserved]
    exact Multiset.le_add_right _ _

/-- Cloning copies the address space, and from then on nothing that happens in one of the two is
seen in the other. It fails only when fewer frames are free than the space has. -/
theorem clone_isolated {pm : Frame} {s : Pmm} (hs : SpaceOk pm s) :
    Ensures (fun e => e = .outOfMemory ∧
        s.freeList.length < Multiset.card (spaceFrames s.memory pm))
      (fun r => Cloned pm r.1 s r.2 ∧
        (∀ s'', Reachable (· = r.2) SpaceOp.Admits (SpaceOp.run pm) s'' →
          SameUserView r.1 r.2 s'') ∧
        ∀ s'', Reachable (· = r.2) SpaceOp.Admits (SpaceOp.run r.1) s'' → SameUserView pm r.2 s'')
      (mmuCloneAddressSpace pm .null s) := by
  refine (mmuCloneAddressSpace_spec rfl hs).imp fun r h => ?_
  obtain ⟨hnew, hcopy⟩ := h
  have htwo := hnew.twoSpaces hs
  exact ⟨hnew.cloned hs hcopy, fun s'' hrun => htwo.run hrun, fun s'' hrun => htwo.symm.run hrun⟩

/-- A space with two pages, in one of which a word was written -/
def writtenSpace : Pmm :=
  userStore (MmuState.roomyFrame 0) 0x1008 0x1234 MmuState.assigned.pmm

/-- The space has a copy, and its pages are there and hold what was written. -/
theorem clone_isolated_writtenSpace :
    ((leafEntry writtenSpace.memory (MmuState.roomyFrame 0) 0x1000).isSome ∧
      writtenSpace.memory (MmuState.roomyFrame 4) 1 = 0x1234) ∧
    ∃ r, mmuCloneAddressSpace (MmuState.roomyFrame 0) .null writtenSpace = .ok r ∧
      Cloned (MmuState.roomyFrame 0) r.1 writtenSpace r.2 ∧
      (∀ s'', Reachable (· = r.2) SpaceOp.Admits (SpaceOp.run (MmuState.roomyFrame 0)) s'' →
        SameUserView r.1 r.2 s'') ∧
      ∀ s'', Reachable (· = r.2) SpaceOp.Admits (SpaceOp.run r.1) s'' →
        SameUserView (MmuState.roomyFrame 0) r.2 s'' := by
  have hok : SpaceOk (MmuState.roomyFrame 0) writtenSpace :=
    (userStore_step MmuState.assigned_spaceOk (by decide) _).2
  have hreturns : (mmuCloneAddressSpace (MmuState.roomyFrame 0) .null
      writtenSpace).toOption.isSome := by decide +kernel
  refine ⟨by decide +kernel, ?_⟩
  cases hclone : mmuCloneAddressSpace (MmuState.roomyFrame 0) .null writtenSpace with
  | error e =>
    rw [hclone] at hreturns
    cases hreturns
  | ok r => exact ⟨r, rfl, (clone_isolated hok).of_eq_ok hclone⟩

end Fluke
