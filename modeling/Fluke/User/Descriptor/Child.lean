import Fluke.User.Descriptor.Destroy

/-!
# The descriptors of a child

A fork copies the descriptor table for the child and goes on to make its thread. When something
cannot be allocated, what has been copied is destroyed again. That undoes the fork, unless a
descriptor that was copied is marked.
-/

namespace Fluke

open Outcome

/-- `Process::fork` from `descriptors.clone` on, where `makeThread` is what it does to the heap for
the thread of the child. When something cannot be allocated, the descriptors of the child are
destroyed. -/
def DescriptorTable.fork {α : Type} (t : DescriptorTable)
    (makeThread : Heap → Except Panic (Option α × Heap)) (s : Handles) :
    Except Panic (Result (DescriptorTable × α) × Handles) := do
  match ← t.clone .empty s with
  | (.error e, copy, s) => do
    let s ← copy.destroy s
    .ok (.error e, s)
  | (.ok (), copy, s) => do
    match ← makeThread s.heap with
    | (none, heap) => do
      let s ← copy.destroy { s with heap := heap }
      .ok (.error .ENOMEM, s)
    | (some thread, heap) => .ok (.ok (copy, thread), { s with heap := heap })

/-- A descriptor of the table is marked. -/
def DescriptorTable.Marked (t : DescriptorTable) : Prop := ∃ slot, (t.read slot).isCloexec = true

/-- What a fork does to the objects -/
structure ForkedTable {α : Type} (t : DescriptorTable) (s : Handles)
    (r : Result (DescriptorTable × α) × Handles) : Prop where
  done : ∀ copy thread, r.1 = .ok (copy, thread) → copy.read = t.read ∧ MoreRefs t.uses s r.2
  failed : ∀ e, r.1 = .error e → e = .ENOMEM ∧ r.2 = { s with heap := r.2.heap } ∧
    HeapGrowth s.heap r.2.heap

section

variable {α : Type} {t copy : DescriptorTable} {s s' : Handles} {other : HandleId → ℕ}

lemma DescriptorTable.uses_pos {g : HandleId} (h : 0 < t.uses g) :
    ∃ slot tagged, t.read slot = some tagged ∧ tagged.handle = g := by
  rw [DescriptorTable.uses, List.countP_pos_iff] at h
  obtain ⟨slot, -, hslot⟩ := h
  cases hread : t.read slot with
  | none =>
    rw [hread] at hslot
    cases hslot
  | some tagged =>
    rw [hread] at hslot
    exact ⟨slot, tagged, hread, by simpa using hslot⟩

lemma DescriptorTable.uses_pos_of_read {slot : Slot} {tagged : TaggedHandle}
    (h : t.read slot = some tagged) : 0 < t.uses tagged.handle := by
  rw [DescriptorTable.uses, List.countP_pos_iff]
  exact ⟨slot, mem_descriptorSlots slot, by simp [h]⟩

/-- Destroying a table that was copied from another one undoes what copying it did, unless one of
its descriptors is marked. -/
lemma DescriptorTable.destroy_copy (h : RefsOk t other s)
    (hpart : ∀ slot, copy.read slot = none ∨ copy.read slot = t.read slot)
    (hrefs : MoreRefs copy.uses s s') :
    Ensures (fun e => e = .invalidPointer ∧ copy.Marked)
      (fun s'' => ¬ copy.Marked ∧ s'' = { s with heap := s''.heap } ∧ HeapGrowth s.heap s''.heap ∧
        GivenBack (Pi.single subTableClass copy.blocks) 0 s'.heap s''.heap) (copy.destroy s') := by
  have hsub : ∀ g, 0 < copy.uses g → 0 < s.refCount g := by
    intro g hg
    obtain ⟨slot, tagged, hread, rfl⟩ := DescriptorTable.uses_pos hg
    have hold : t.read slot = some tagged := by
      rcases hpart slot with hnone | hsame
      · rw [hread] at hnone
        cases hnone
      · rw [← hsame, hread]
    have := DescriptorTable.uses_pos_of_read hold
    rw [h.count]
    omega
  have hpos : ∀ g, 0 < s'.refCount g → 0 < s.refCount g := by
    intro g hg
    rw [hrefs.refCount] at hg
    by_cases huses : 0 < copy.uses g
    · exact hsub g huses
    · omega
  have hreferenced : Referenced copy.uses s' := by
    refine ⟨fun g => ?_, fun g hg => (hrefs.live g).mpr (h.live g (hpos g hg)), ?_⟩
    · have := h.nonneg g
      rw [hrefs.refCount]
      omega
    · rw [hrefs.eq]
      exact h.sized
  refine (copy.destroy_spec hreferenced).mono (fun e he => he) fun s'' hs'' => ?_
  obtain ⟨hmarked, hgiven⟩ := hs''
  have hcount : s''.refCount = s.refCount := by
    funext g
    rw [hgiven.refCount, hrefs.refCount]
    omega
  have hstay : ∀ g, 0 < s'.refCount g → 0 < s''.refCount g := by
    intro g hg
    rw [hcount]
    exact hpos g hg
  have hkept := hgiven.dropped.kept hstay
  rw [hrefs.eq, hcount] at hkept
  refine ⟨hmarked, hkept, ?_, hgiven.back hstay⟩
  have hgrowth := hrefs.heap
  have hpmm := hgiven.dropped.pmm
  refine ⟨?_, ?_, ?_⟩
  · rw [hpmm]
    exact hgrowth.counted
  · rw [hpmm]
    exact hgrowth.suffix
  · rw [hpmm]
    exact hgrowth.memory

/-- A fork copies the descriptors, or it leaves the objects as they were. It stops only when a copy
of a marked descriptor has to be destroyed. -/
lemma DescriptorTable.fork_spec {makeThread : Heap → Except Panic (Option α × Heap)}
    (h : RefsOk t other s) (hc : s.heap.pmm.Counted)
    (hthread : ∀ heap : Heap, heap.pmm.Counted →
      Ensures (fun _ => False) (fun r => HeapGrowth heap r.2) (makeThread heap)) :
    Ensures (fun e => e = .invalidPointer ∧ t.Marked) (ForkedTable t s)
      (t.fork makeThread s) := by
  have hmarked : ∀ {copy : DescriptorTable},
      (∀ slot, copy.read slot = none ∨ copy.read slot = t.read slot) → copy.Marked → t.Marked := by
    rintro copy hpart ⟨slot, hslot⟩
    refine ⟨slot, ?_⟩
    rcases hpart slot with hnone | hsame
    · rw [hnone] at hslot
      cases hslot
    · rw [← hsame]
      exact hslot
  unfold DescriptorTable.fork
  refine Ensures.bind ((t.clone_spec h.nonneg hc).mono (fun _ he => he.elim) fun _ h => h) ?_
  rintro ⟨e | _, copy, s₁⟩ hcloned
  · refine Ensures.bind ((DescriptorTable.destroy_copy h hcloned.part hcloned.refs).mono
      (fun _ he => ⟨he.1, hmarked hcloned.part he.2⟩) fun _ h => h) fun s₂ hs₂ => ?_
    refine ⟨fun _ _ hok => (by cases hok), fun e' he' => ?_⟩
    cases he'
    exact ⟨(hcloned.failed e rfl).1, hs₂.2.1, hs₂.2.2.1⟩
  · refine Ensures.bind ((hthread s₁.heap hcloned.refs.heap.counted).mono
      (fun _ he => he.elim) fun _ h => h) ?_
    rintro ⟨_ | thread, heap⟩ hgrowth
    · have hrefs : MoreRefs copy.uses s { s₁ with heap := heap } := by
        refine ⟨?_, hcloned.refs.refCount, hcloned.refs.heap.trans hgrowth⟩
        have heq := hcloned.refs.eq
        exact congrArg (fun s : Handles => { s with heap := heap }) heq
      refine Ensures.bind ((DescriptorTable.destroy_copy h hcloned.part hrefs).mono
        (fun _ he => ⟨he.1, hmarked hcloned.part he.2⟩) fun _ h => h) fun s₂ hs₂ => ?_
      refine ⟨fun _ _ hok => (by cases hok), fun e' he' => ?_⟩
      cases he'
      exact ⟨rfl, hs₂.2.1, hs₂.2.2.1⟩
    · refine ⟨fun copy' thread' hok => ?_, fun e' he' => (by cases he')⟩
      cases hok
      have hread := hcloned.done rfl
      refine ⟨hread, ?_, fun g => ?_, hcloned.refs.heap.trans hgrowth⟩
      · have heq := hcloned.refs.eq
        exact congrArg (fun s : Handles => { s with heap := heap }) heq
      · rw [← DescriptorTable.uses_congr hread]
        exact hcloned.refs.refCount g

/-- The thread of the child is one that `makeThread` makes. -/
lemma DescriptorTable.fork_thread {makeThread : Heap → Except Panic (Option α × Heap)}
    {P : α → Prop} (t : DescriptorTable) (s : Handles)
    (hthread : ∀ heap, Ensures (fun _ => True) (fun r => ∀ a, r.1 = some a → P a)
      (makeThread heap)) :
    Ensures (fun _ => True) (fun r => ∀ copy a, r.1 = .ok (copy, a) → P a)
      (t.fork makeThread s) := by
  unfold DescriptorTable.fork
  refine (ensures_trivial _).bind ?_
  rintro ⟨e | _, copy, s₁⟩ -
  · exact (ensures_trivial _).bind fun _ _ _ _ hok => (by cases hok)
  refine (hthread s₁.heap).bind ?_
  rintro ⟨_ | thread, heap⟩ hr
  · exact (ensures_trivial _).bind fun _ _ _ _ hok => (by cases hok)
  · intro copy' a hok
    cases hok
    exact hr thread rfl

/-! ### Blocks -/

lemma DescriptorTable.blocks_setSub {i : Fin 4} (hi : t.l1 i = none) (sub : SubTable) :
    (t.setSub i (some sub)).blocks = t.blocks + {sub.block} := by
  have hold := Finset.add_sum_erase Finset.univ (fun i => subBlock (t.l1 i)) (Finset.mem_univ i)
  have hnew := Finset.add_sum_erase Finset.univ
    (fun j => subBlock ((t.setSub i (some sub)).l1 j)) (Finset.mem_univ i)
  have hrest : ∑ j ∈ Finset.univ.erase i, subBlock ((t.setSub i (some sub)).l1 j) =
      ∑ j ∈ Finset.univ.erase i, subBlock (t.l1 j) := by
    refine Finset.sum_congr rfl fun j hj => ?_
    rw [DescriptorTable.setSub_of_ne _ _ (Finset.ne_of_mem_erase hj)]
  rw [DescriptorTable.blocks, DescriptorTable.blocks, ← hold, ← hnew, hrest, hi,
    DescriptorTable.setSub_self]
  simp only [subBlock]
  abel

lemma cloneArray_heap {N : ℕ} (source dest : DescriptorArray N) (s : Handles) :
    Ensures (fun _ => True) (fun r => r.2.heap = s.heap) (cloneArray source dest s) := by
  unfold cloneArray
  refine ensures_forEach (fun _ r => r.2.heap = s.heap) (List.finRange N) [] (dest, s) ?_ rfl
  rintro i done ⟨dest', s'⟩ - hheap
  refine (ensures_trivial _).bind fun _ _ => ?_
  cases source i with
  | none => exact hheap
  | some tagged =>
    have hassign : Ensures (fun _ => True) (fun r => r.2.heap = s'.heap)
        ((dest' i).assign tagged.handle tagged.cloexec s') := by
      unfold Descriptor.assign
      exact (ensures_trivial _).bind fun _ _ => (ensures_trivial _).bind fun _ _ => rfl
    refine hassign.bind ?_
    rintro ⟨desc, s''⟩ hr
    exact hr.trans hheap

lemma makeSubTable_spent (hc : s.heap.pmm.Counted) :
    Ensures (fun _ => True) (fun r => r.2.heap.pmm.Counted ∧
      (r.1 = none → HeapSpent 0 0 s.heap r.2.heap) ∧
      ∀ sub, r.1 = some sub → HeapSpent (Pi.single subTableClass {sub.block}) 0 s.heap r.2.heap)
      (makeSubTable s) := by
  unfold makeSubTable
  refine Ensures.bind ((kalloc_spent allocCalcSizeClass_subTable hc).mono (fun _ _ => trivial)
    fun _ h => h) ?_
  rintro ⟨block, heap⟩ ⟨hstep, hnone, hsome⟩
  refine ⟨hstep.counted, fun h => hnone (Option.map_eq_none_iff.mp h), fun sub hsub => ?_⟩
  obtain ⟨b, hb, rfl⟩ := Option.map_eq_some_iff.mp hsub
  exact hsome b hb

lemma DescriptorTable.cloneIndirect_spent (source : DescriptorTable) (is : List (Fin 4)) :
    ∀ (dest : DescriptorTable) (s : Handles), is.Nodup → (∀ i ∈ is, dest.l1 i = none) →
      s.heap.pmm.Counted → Ensures (fun _ => True) (fun r => ∃ blocks,
        HeapSpent (Pi.single subTableClass blocks) 0 s.heap r.2.2.heap ∧
          r.2.1.blocks = dest.blocks + blocks) (source.cloneIndirect is dest s) := by
  induction is with
  | nil =>
    intro dest s _ _ _
    refine ⟨0, ?_, (add_zero _).symm⟩
    rw [Pi.single_zero]
    exact .refl s.heap
  | cons i is ih =>
    intro dest s hnodup hempty hc
    obtain ⟨hi, hnodup⟩ := List.nodup_cons.mp hnodup
    obtain ⟨hdest, hrest⟩ := List.forall_mem_cons.mp hempty
    unfold DescriptorTable.cloneIndirect
    refine (ensures_trivial _).bind fun _ _ => ?_
    cases source.l1 i with
    | none => exact ih dest s hnodup hrest hc
    | some sub =>
      refine (makeSubTable_spent hc).bind ?_
      rintro ⟨_ | new, s₁⟩ ⟨hc₁, hnone, hsome⟩
      · refine ⟨0, ?_, (add_zero _).symm⟩
        rw [Pi.single_zero]
        exact hnone rfl
      refine (cloneArray_heap sub.entries new.entries s₁).bind ?_
      rintro ⟨entries, s₂⟩ hheap
      dsimp only at hheap ⊢
      have hrest' : ∀ j ∈ is, (dest.setSub i (some ⟨new.block, entries⟩)).l1 j = none := by
        intro j hj
        rw [DescriptorTable.setSub_of_ne _ _ (ne_of_mem_of_not_mem hj hi)]
        exact hrest j hj
      refine (ih _ s₂ hnodup hrest' (by rw [hheap]; exact hc₁)).imp fun r hr => ?_
      obtain ⟨blocks, hspent, hblocks⟩ := hr
      refine ⟨{new.block} + blocks, ?_, ?_⟩
      · rw [hheap] at hspent
        exact ((hsome new rfl).trans hspent).congr (Pi.single_add ..).symm (add_zero 0)
      · rw [hblocks, DescriptorTable.blocks_setSub hdest, add_assoc]

lemma DescriptorTable.clone_spent (source : DescriptorTable) (hc : s.heap.pmm.Counted) :
    Ensures (fun _ => True) (fun r => HeapSpent (Pi.single subTableClass r.2.1.blocks) 0 s.heap
      r.2.2.heap) (source.clone .empty s) := by
  unfold DescriptorTable.clone
  refine (cloneArray_heap source.l0 _ s).bind ?_
  rintro ⟨l0, s₁⟩ hheap
  dsimp only at hheap ⊢
  refine (source.cloneIndirect_spent (List.finRange 4) ⟨l0, fun _ => none⟩ s₁
    (List.nodup_finRange 4) (fun _ _ => rfl) (by rw [hheap]; exact hc)).imp fun r hr => ?_
  obtain ⟨blocks, hspent, hblocks⟩ := hr
  rw [hheap] at hspent
  rw [hblocks]
  simpa [DescriptorTable.blocks, subBlock] using hspent

/-- What a fork takes from the heap: nothing if it fails, and otherwise the sub-tables of the child
and what its thread consists of. -/
lemma DescriptorTable.fork_spent {makeThread : Heap → Except Panic (Option α × Heap)}
    {parts : α → Fin 10 → Multiset Block} (h : RefsOk t other s) (hc : s.heap.pmm.Counted)
    (hthread : ∀ heap : Heap, heap.pmm.Counted →
      Ensures (fun _ => False) (fun r => HeapGrowth heap r.2 ∧
        (r.1 = none → HeapSpent 0 0 heap r.2) ∧
        ∀ a, r.1 = some a → HeapSpent (parts a) 0 heap r.2) (makeThread heap)) :
    Ensures (fun _ => True) (fun r => (∀ e, r.1 = .error e → HeapSpent 0 0 s.heap r.2.heap) ∧
      ∀ copy thread, r.1 = .ok (copy, thread) →
        HeapSpent (Pi.single subTableClass copy.blocks + parts thread) 0 s.heap r.2.heap)
      (t.fork makeThread s) := by
  unfold DescriptorTable.fork
  refine Ensures.bind (((t.clone_spec h.nonneg hc).mono (fun _ _ => trivial) fun _ h => h).and
    (t.clone_spent hc)) ?_
  rintro ⟨e | _, copy, s₁⟩ ⟨hcloned, hspent⟩
  · refine Ensures.bind ((DescriptorTable.destroy_copy h hcloned.part hcloned.refs).mono
      (fun _ _ => trivial) fun _ h => h) fun s₂ hs₂ => ?_
    refine ⟨fun _ _ => ?_, fun _ _ hok => (by cases hok)⟩
    refine HeapSpent.giveBack ?_ hs₂.2.2.2
    simpa using hspent
  · refine Ensures.bind ((hthread s₁.heap hcloned.refs.heap.counted).mono
      (fun _ _ => trivial) fun _ h => h) ?_
    rintro ⟨_ | thread, heap⟩ ⟨hgrowth, hnone, hsome⟩
    · have hrefs : MoreRefs copy.uses s { s₁ with heap := heap } := by
        refine ⟨?_, hcloned.refs.refCount, hcloned.refs.heap.trans hgrowth⟩
        have heq := hcloned.refs.eq
        exact congrArg (fun s : Handles => { s with heap := heap }) heq
      refine Ensures.bind ((DescriptorTable.destroy_copy h hcloned.part hrefs).mono
        (fun _ _ => trivial) fun _ h => h) fun s₂ hs₂ => ?_
      refine ⟨fun _ _ => ?_, fun _ _ hok => (by cases hok)⟩
      refine HeapSpent.giveBack ?_ hs₂.2.2.2
      simpa using hspent.trans (hnone rfl)
    · refine ⟨fun _ he => (by cases he), fun copy' thread' hok => ?_⟩
      cases hok
      simpa using hspent.trans (hsome thread rfl)

end

end Fluke
