import Fluke.User.Descriptor.Table

/-!
# Operations on all descriptors

`clone` copies a table into an empty one and takes a reference for each descriptor; it may stop
half-way when no sub-table can be allocated. `cloexec` closes the descriptors that are marked.
-/

namespace Fluke

open Outcome

/-- How many descriptors of an array refer to the object -/
def arrayUses {N : ℕ} (a : DescriptorArray N) (h : HandleId) : ℕ :=
  (List.finRange N).countP fun i => (a i).refersTo h

/-- How many descriptors of a sub-table refer to the object -/
def subUses (sub : Option SubTable) (h : HandleId) : ℕ :=
  match sub with
  | none => 0
  | some sub => arrayUses sub.entries h

lemma DescriptorTable.uses_eq (t : DescriptorTable) (h : HandleId) :
    t.uses h = arrayUses t.l0 h + ∑ i, subUses (t.l1 i) h := by
  have hsub : ∀ i, (List.finRange 16).countP (fun j => (t.read (.indirect i j)).refersTo h) =
      subUses (t.l1 i) h := by
    intro i
    cases hi : t.l1 i with
    | none => simp [DescriptorTable.read, hi, subUses]
    | some sub => simp [DescriptorTable.read, hi, subUses, arrayUses]
  rw [DescriptorTable.uses, descriptorSlots, List.countP_append, List.countP_map,
    List.countP_flatMap, Fin.sum_univ_def]
  congr 2
  refine List.map_congr_left fun i _ => ?_
  rw [Function.comp_apply, List.countP_map]
  exact hsub i

lemma DescriptorTable.uses_setSub {t : DescriptorTable} {i : Fin 4} (hi : t.l1 i = none)
    (sub : SubTable) (h : HandleId) :
    (t.setSub i (some sub)).uses h = t.uses h + arrayUses sub.entries h := by
  have hold := Finset.add_sum_erase Finset.univ (fun i => subUses (t.l1 i) h) (Finset.mem_univ i)
  have hnew := Finset.add_sum_erase Finset.univ
    (fun j => subUses ((t.setSub i (some sub)).l1 j) h) (Finset.mem_univ i)
  rw [DescriptorTable.uses_eq, DescriptorTable.uses_eq, ← hold, ← hnew]
  have hrest : ∑ j ∈ Finset.univ.erase i, subUses ((t.setSub i (some sub)).l1 j) h =
      ∑ j ∈ Finset.univ.erase i, subUses (t.l1 j) h := by
    refine Finset.sum_congr rfl fun j hj => ?_
    rw [DescriptorTable.setSub_of_ne _ _ (Finset.ne_of_mem_erase hj)]
  rw [hrest, hi]
  rw [DescriptorTable.setSub_self]
  simp only [DescriptorTable.setSub, subUses]
  omega

lemma arrayUses_empty {N : ℕ} (h : HandleId) : arrayUses (fun _ : Fin N => none) h = 0 := by
  simp [arrayUses]

/-! ### `clone` -/

/-- The heap after any number of allocations: pages have left the free list. -/
structure HeapGrowth (s s' : Heap) : Prop where
  counted : s'.pmm.Counted
  suffix : s'.pmm.freeList <:+ s.pmm.freeList
  memory : ∀ g ∉ s.pmm.freeList, s'.pmm.memory g = s.pmm.memory g

lemma HeapStep.growth {s s' : Heap} (h : HeapStep s s') : HeapGrowth s s' :=
  ⟨h.counted, h.suffix, h.memory⟩

lemma HeapGrowth.refl {s : Heap} (h : s.pmm.Counted) : HeapGrowth s s :=
  ⟨h, List.suffix_rfl, fun _ _ => rfl⟩

lemma HeapGrowth.trans {s s' s'' : Heap} (h : HeapGrowth s s') (h' : HeapGrowth s' s'') :
    HeapGrowth s s'' :=
  ⟨h'.counted, h'.suffix.trans h.suffix, fun g hg =>
    (h'.memory g fun hmem => hg (h.suffix.subset hmem)).trans (h.memory g hg)⟩

/-- The reference counts have grown and the heap has been used; the objects are the same. -/
structure MoreRefs (more : HandleId → ℕ) (s s' : Handles) : Prop where
  eq : s' = { s with heap := s'.heap, refCount := s'.refCount }
  refCount : ∀ h, s'.refCount h = s.refCount h + more h
  heap : HeapGrowth s.heap s'.heap

lemma MoreRefs.trans {more more' : HandleId → ℕ} {s s' s'' : Handles} (h : MoreRefs more s s')
    (h' : MoreRefs more' s' s'') : MoreRefs (fun handle => more handle + more' handle) s s'' := by
  refine ⟨?_, fun handle => ?_, h.heap.trans h'.heap⟩
  · have heq := h'.eq
    rw [h.eq] at heq
    exact heq
  · rw [h'.refCount, h.refCount]
    push_cast
    omega

lemma MoreRefs.of_same {s s' : Handles} (h : SameObjects s s') : MoreRefs (fun _ => 0) s s' := by
  refine ⟨?_, fun handle => ?_, h.heap.growth⟩
  · have heq := h.eq
    rw [heq]
  · rw [h.refCount]
    simp

lemma MoreRefs.congr {more more' : HandleId → ℕ} {s s' : Handles} (h : MoreRefs more s s')
    (heq : ∀ handle, more handle = more' handle) : MoreRefs more' s s' := by
  obtain rfl : more = more' := funext heq
  exact h

lemma MoreRefs.live {more : HandleId → ℕ} {s s' : Handles} (h : MoreRefs more s s')
    (handle : HandleId) : s'.Live handle ↔ s.Live handle := by
  rw [h.eq]
  cases handle <;> exact Iff.rfl

lemma MoreRefs.nonneg {more : HandleId → ℕ} {s s' : Handles} (h : MoreRefs more s s')
    (hs : ∀ handle, 0 ≤ s.refCount handle) (handle : HandleId) : 0 ≤ s'.refCount handle := by
  rw [h.refCount]
  have := hs handle
  omega

/-- The elements handled are copied, and their references taken. -/
def ArrayCopied {N : ℕ} (source : DescriptorArray N) (s : Handles) (done : List (Fin N))
    (r : DescriptorArray N × Handles) : Prop :=
  (r.1 = fun i => if i ∈ done then source i else none) ∧
    MoreRefs (fun h => done.countP fun i => (source i).refersTo h) s r.2 ∧ r.2.heap = s.heap

lemma cloneArray_spec {N : ℕ} (source : DescriptorArray N) {s : Handles}
    (hs : ∀ h, 0 ≤ s.refCount h) (hc : s.heap.pmm.Counted) :
    Ensures (fun _ => False) (fun r => r.1 = source ∧ MoreRefs (arrayUses source) s r.2 ∧
      r.2.heap = s.heap) (cloneArray source (fun _ => none) s) := by
  unfold cloneArray
  refine Ensures.imp (ensures_forEach (ArrayCopied source s) (List.finRange N) []
    (fun _ => none, s) ?_ ?_) fun r h => ⟨?_, h.2⟩
  · rintro i done ⟨dest, s'⟩ hpre ⟨hdest, hrefs, hheap⟩
    have hnotin : i ∉ done := by
      rw [List.nil_append] at hpre
      have hnodup := (List.nodup_finRange N).sublist hpre.sublist
      exact fun hmem => (List.disjoint_of_nodup_append hnodup) hmem (by simp)
    dsimp only at hdest hrefs hheap ⊢
    subst hdest
    simp only [hnotin, if_false, Descriptor.isOpen, Option.isSome_none, Bool.not_false, assert,
      if_true, ok_bind]
    cases hsource : source i with
    | none =>
      refine ⟨funext fun j => ?_, hrefs.congr fun h => ?_, hheap⟩
      · by_cases hj : j = i
        · subst hj
          simp [hnotin, hsource]
        · simp [hj]
      · simp [List.countP_append, hsource]
    | some tagged =>
      have hnonneg := hrefs.nonneg hs tagged.handle
      unfold Descriptor.assign
      simp only [Descriptor.isOpen, Option.isSome_none, Bool.not_false, assert, if_true, ok_bind,
        ge_iff_le, decide_eq_true hnonneg]
      refine ⟨funext fun j => ?_, ⟨?_, fun h => ?_, ?_⟩, hheap⟩
      · by_cases hj : j = i
        · subst hj
          simp [hsource]
        · simp [hj]
      · have heq := hrefs.eq
        exact congrArg
          (fun s : Handles => { s with refCount := (s'.dup tagged.handle).refCount }) heq
      · have hcount := hrefs.refCount h
        by_cases hh : h = tagged.handle
        · subst hh
          simp only [Handles.dup, Handles.setRefCount, Function.update_self, hcount,
            List.countP_append, List.countP_singleton, hsource, Descriptor.refersTo_some,
            decide_true, if_true]
          push_cast
          omega
        · simp [Handles.dup, Handles.setRefCount, Function.update_of_ne hh, hcount,
            List.countP_append, hsource, Ne.symm hh]
      · have hgrow := hrefs.heap
        exact hgrow
  · exact ⟨by simp, ⟨rfl, fun h => by simp, .refl hc⟩, rfl⟩
  · rw [h.1]
    simp

/-- What the loop over the sub-tables has copied: those in `done` are there, with the entries of
the original. -/
structure SubTablesCopied (source dest dest' : DescriptorTable) (done : List (Fin 4)) :
    Prop where
  l0 : dest'.l0 = dest.l0
  copied : ∀ i ∈ done, (dest'.l1 i).map SubTable.entries = (source.l1 i).map SubTable.entries
  rest : ∀ i ∉ done, dest'.l1 i = dest.l1 i

/-- A sub-table cannot be copied: there is no memory for it. -/
def SubTableFails (source : DescriptorTable) (e : ErrorCode) (heap : Heap) : Prop :=
  e = .ENOMEM ∧ (∃ i, source.l1 i ≠ none) ∧ kalloc subTableSize heap = .ok (none, heap)

/-- How the loop over the sub-tables ended. -/
structure IndirectCloned (source dest : DescriptorTable) (is : List (Fin 4)) (s : Handles)
    (r : Result Unit × DescriptorTable × Handles) : Prop where
  done : ∃ done, done <+: is ∧ SubTablesCopied source dest r.2.1 done ∧
    (r.1 = .ok () → done = is)
  refs : ∃ more, MoreRefs more s r.2.2 ∧ ∀ h, r.2.1.uses h = dest.uses h + more h
  failed : ∀ e, r.1 = .error e → SubTableFails source e r.2.2.heap

lemma DescriptorTable.cloneIndirect_spec (source : DescriptorTable) (is : List (Fin 4)) :
    ∀ (dest : DescriptorTable) (s : Handles), is.Nodup → (∀ i ∈ is, dest.l1 i = none) →
      (∀ h, 0 ≤ s.refCount h) → s.heap.pmm.Counted →
      Ensures (fun _ => False) (IndirectCloned source dest is s)
        (source.cloneIndirect is dest s) := by
  induction is with
  | nil =>
    intro dest s _ _ _ hc
    refine ⟨⟨[], List.prefix_rfl, ⟨rfl, by simp, fun _ _ => rfl⟩, fun _ => rfl⟩,
      ⟨fun _ => 0, .of_same (.refl hc), fun _ => rfl⟩, fun e he => (by cases he)⟩
  | cons i is ih =>
    intro dest s hnodup hempty hnonneg hc
    obtain ⟨hi, hnodup⟩ := List.nodup_cons.mp hnodup
    obtain ⟨hdest, hrest⟩ := List.forall_mem_cons.mp hempty
    unfold DescriptorTable.cloneIndirect
    rw [hdest]
    simp only [Option.isNone_none, assert, if_true, ok_bind]
    cases hsource : source.l1 i with
    | none =>
      refine (ih dest s hnodup hrest hnonneg hc).imp fun r h => ?_
      obtain ⟨done, hpre, hcopied, hall⟩ := h.done
      have hnotin : i ∉ done := fun hmem => hi (hpre.subset hmem)
      refine ⟨⟨i :: done, List.cons_prefix_cons.mpr ⟨rfl, hpre⟩, ⟨hcopied.l0, ?_, ?_⟩,
        fun hok => by rw [hall hok]⟩, h.refs, h.failed⟩
      · refine List.forall_mem_cons.mpr ⟨?_, hcopied.copied⟩
        rw [hcopied.rest i hnotin, hdest, hsource]
      · exact fun j hj => hcopied.rest j fun hmem => hj (List.mem_cons_of_mem _ hmem)
    | some sub =>
      refine ((makeSubTable_spec hc).with_eq.mono (fun _ he => he.1) fun _ h => h).bind ?_
      rintro ⟨_ | new, s₁⟩ ⟨⟨hsame, hnew, -⟩, hmake⟩
      · refine ⟨⟨[], List.nil_prefix, ⟨rfl, by simp, fun _ _ => rfl⟩, fun hok => (by cases hok)⟩,
          ⟨fun _ => 0, .of_same hsame, fun _ => rfl⟩, fun e he => ?_⟩
        cases he
        obtain ⟨rfl, hnone⟩ := makeSubTable_none hc hmake
        exact ⟨rfl, ⟨i, by simp [hsource]⟩, hnone⟩
      have hnonneg₁ : ∀ h, 0 ≤ s₁.refCount h := by
        rw [hsame.refCount]
        exact hnonneg
      dsimp only
      rw [hnew new rfl]
      refine (cloneArray_spec sub.entries hnonneg₁ hsame.heap.counted).bind ?_
      rintro ⟨entries, s₂⟩ ⟨hentries, hmore, -⟩
      dsimp only at hentries hmore
      subst hentries
      have hmore' := (MoreRefs.of_same hsame).trans hmore
      have hrest' : ∀ j ∈ is, (dest.setSub i (some ⟨new.block, sub.entries⟩)).l1 j = none := by
        intro j hj
        rw [DescriptorTable.setSub_of_ne _ _ (ne_of_mem_of_not_mem hj hi)]
        exact hrest j hj
      refine (ih _ s₂ hnodup hrest' (hmore'.nonneg hnonneg) hmore.heap.counted).imp fun r h => ?_
      obtain ⟨done, hpre, hcopied, hall⟩ := h.done
      have hnotin : i ∉ done := fun hmem => hi (hpre.subset hmem)
      obtain ⟨more, hrefs, huses⟩ := h.refs
      refine ⟨⟨i :: done, List.cons_prefix_cons.mpr ⟨rfl, hpre⟩, ⟨hcopied.l0, ?_, ?_⟩,
        fun hok => by rw [hall hok]⟩, ⟨_, hmore'.trans hrefs, fun handle => ?_⟩, h.failed⟩
      · refine List.forall_mem_cons.mpr ⟨?_, hcopied.copied⟩
        rw [hcopied.rest i hnotin, hsource, DescriptorTable.setSub_self]
        rfl
      · intro j hj
        rw [List.mem_cons, not_or] at hj
        rw [hcopied.rest j hj.2, DescriptorTable.setSub_of_ne _ _ hj.1]
      · rw [huses, DescriptorTable.uses_setSub hdest]
        dsimp only
        omega

lemma DescriptorTable.uses_empty (h : HandleId) : DescriptorTable.empty.uses h = 0 := by
  rw [DescriptorTable.uses_eq]
  simp [DescriptorTable.empty, arrayUses_empty, subUses]

/-- A table copied into an empty one. When a sub-table cannot be allocated, the copy holds what
has been copied until then, and its references have been taken. -/
structure TableCloned (source : DescriptorTable) (s : Handles)
    (r : Result Unit × DescriptorTable × Handles) : Prop where
  done : r.1 = .ok () → r.2.1.read = source.read
  part : ∀ slot, r.2.1.read slot = none ∨ r.2.1.read slot = source.read slot
  refs : MoreRefs r.2.1.uses s r.2.2
  failed : ∀ e, r.1 = .error e → SubTableFails source e r.2.2.heap

lemma DescriptorTable.clone_spec (source : DescriptorTable) {s : Handles}
    (hnonneg : ∀ h, 0 ≤ s.refCount h) (hc : s.heap.pmm.Counted) :
    Ensures (fun _ => False) (TableCloned source s) (source.clone .empty s) := by
  unfold DescriptorTable.clone
  refine (cloneArray_spec source.l0 hnonneg hc).bind ?_
  rintro ⟨l0, s₁⟩ ⟨hl0, hmore, -⟩
  dsimp only at hl0 hmore
  subst hl0
  refine (source.cloneIndirect_spec (List.finRange 4) ⟨source.l0, fun _ => none⟩ s₁
    (List.nodup_finRange 4) (fun _ _ => rfl) (hmore.nonneg hnonneg) hmore.heap.counted).imp
    fun r h => ?_
  obtain ⟨done, hpre, hcopied, hall⟩ := h.done
  obtain ⟨more, hrefs, huses⟩ := h.refs
  have hread : ∀ i j, i ∈ done →
      r.2.1.read (.indirect i j) = source.read (.indirect i j) := by
    intro i j hi
    rw [DescriptorTable.read_indirect, DescriptorTable.read_indirect, hcopied.copied i hi]
  have hdirect : ∀ i, r.2.1.read (.direct i) = source.read (.direct i) := fun i =>
    congrFun hcopied.l0 i
  refine ⟨fun hok => funext fun slot => ?_, fun slot => ?_,
    (hmore.trans hrefs).congr fun handle => ?_, h.failed⟩
  · cases slot with
    | direct i => exact hdirect i
    | indirect i j => exact hread i j (by rw [hall hok]; exact List.mem_finRange i)
  · cases slot with
    | direct i => exact Or.inr (hdirect i)
    | indirect i j =>
      by_cases hi : i ∈ done
      · exact Or.inr (hread i j hi)
      · refine Or.inl ?_
        rw [DescriptorTable.read_indirect, hcopied.rest i hi]
        rfl
  · rw [huses, DescriptorTable.uses_eq]
    simp [subUses]

/-! ### `cloexec` -/

/-- The descriptors of the slots handled are gone if they were marked. -/
def cloexecRead (t : DescriptorTable) (done : List Slot) (slot : Slot) : Descriptor :=
  if slot ∈ done ∧ (t.read slot).isCloexec then none else t.read slot

/-- What `cloexec` leaves. The log of the calls of `close` grows by the objects whose last
references were given up. -/
structure Cloexeced (t : DescriptorTable) (other : HandleId → ℕ) (s : Handles) (done : List Slot)
    (r : DescriptorTable × Handles) : Prop where
  read : r.1.read = cloexecRead t done
  refs : RefsOk r.1 other r.2
  pmm : r.2.heap.pmm = s.heap.pmm

lemma DescriptorTable.cloexec_spec {t : DescriptorTable} {other : HandleId → ℕ} {s : Handles}
    (h : RefsOk t other s) :
    Ensures (fun _ => False) (Cloexeced t other s descriptorSlots) (t.cloexec s) := by
  unfold DescriptorTable.cloexec
  refine ensures_forEach (Cloexeced t other s) descriptorSlots [] (t, s) ?_
    ⟨funext fun slot => by simp [cloexecRead], h, rfl⟩
  rintro slot done ⟨t', s'⟩ hpre hdone
  have hnotin : slot ∉ done := by
    rw [List.nil_append] at hpre
    have hnodup := nodup_descriptorSlots.sublist hpre.sublist
    exact fun hmem => (List.disjoint_of_nodup_append hnodup) hmem (by simp)
  have hslot : t'.read slot = t.read slot := by
    rw [hdone.read]
    simp [cloexecRead, hnotin]
  dsimp only
  split_ifs with hcloexec
  · have hopen : ∃ tagged, t'.read slot = some tagged := by
      cases hread : t'.read slot with
      | none => simp [hread, Descriptor.isCloexec] at hcloexec
      | some tagged => exact ⟨tagged, rfl⟩
    obtain ⟨tagged, hread⟩ := hopen
    have hhas := DescriptorTable.has_of_read hread
    refine (closeSlot_spec hdone.refs hread).bind ?_
    rintro ⟨desc, s''⟩ ⟨hdesc, hreleased, hrefs⟩
    dsimp only at hdesc hreleased hrefs
    subst hdesc
    refine ⟨?_, hrefs, hreleased.pmm.trans hdone.pmm⟩
    rw [DescriptorTable.read_write hhas, hdone.read]
    funext slot'
    by_cases hs : slot' = slot
    · subst hs
      rw [hslot] at hcloexec
      simp [cloexecRead, hcloexec]
    · simp [cloexecRead, hs]
  · refine ⟨?_, hdone.refs, hdone.pmm⟩
    rw [hdone.read]
    funext slot'
    by_cases hs : slot' = slot
    · subst hs
      rw [hslot] at hcloexec
      simp [cloexecRead, hcloexec]
    · simp [cloexecRead, hs]

end Fluke
