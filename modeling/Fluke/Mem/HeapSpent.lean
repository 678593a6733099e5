import Fluke.Mem.Alloc

/-!
# What has been taken from the heap

A part of the kernel takes blocks and pages and may give them back. What it has taken and not given
back is accounted for against the heap it began with: the rest is free, as pages or as blocks of
pages that were cut.
-/

namespace Fluke

open Outcome

/-- The blocks and pages that have been taken and not given back. Some pages have been cut. -/
def HeapSpent (blocks : Fin 10 → Multiset Block) (pages : Multiset Frame) (s s' : Heap) : Prop :=
  ∃ cut : Fin 10 → Multiset Frame,
    (s.pmm.freeList : Multiset Frame) = s'.pmm.freeList + pages + ∑ c, cut c ∧
    ∀ c, (s'.pools c : Multiset Block) + blocks c = s.pools c + (cut c).bind (blocksOf c)

/-- Blocks and pages that are given back -/
structure GivenBack (blocks : Fin 10 → Multiset Block) (pages : Multiset Frame) (s s' : Heap) :
    Prop where
  pools : ∀ c, (s'.pools c : Multiset Block) = blocks c + s.pools c
  free : (s'.pmm.freeList : Multiset Frame) = pages + s.pmm.freeList

section

variable {blocks blocks' : Fin 10 → Multiset Block} {pages pages' : Multiset Frame}
  {s s' s'' : Heap}

lemma HeapSpent.refl (s : Heap) : HeapSpent 0 0 s s := ⟨0, by simp, by simp⟩

lemma HeapSpent.trans (h : HeapSpent blocks pages s s') (h' : HeapSpent blocks' pages' s' s'') :
    HeapSpent (blocks + blocks') (pages + pages') s s'' := by
  obtain ⟨cut, hfree, hpools⟩ := h
  obtain ⟨cut', hfree', hpools'⟩ := h'
  refine ⟨cut + cut', ?_, fun c => ?_⟩
  · rw [hfree, hfree']
    simp only [Pi.add_apply, Finset.sum_add_distrib]
    abel
  · have hold := hpools c
    have hnew := hpools' c
    calc (s''.pools c : Multiset Block) + (blocks + blocks') c
        = (s''.pools c + blocks' c) + blocks c := by
          rw [Pi.add_apply]
          abel
      _ = s'.pools c + (cut' c).bind (blocksOf c) + blocks c := by rw [hnew]
      _ = (s'.pools c + blocks c) + (cut' c).bind (blocksOf c) := by abel
      _ = s.pools c + ((cut + cut') c).bind (blocksOf c) := by
          rw [hold, Pi.add_apply, Multiset.add_bind, add_assoc]

lemma HeapSpent.congr (h : HeapSpent blocks pages s s') (hblocks : blocks = blocks')
    (hpages : pages = pages') : HeapSpent blocks' pages' s s' := by
  rw [← hblocks, ← hpages]
  exact h

lemma GivenBack.refl (s : Heap) : GivenBack 0 0 s s := ⟨by simp, by simp⟩

lemma GivenBack.trans (h : GivenBack blocks pages s s') (h' : GivenBack blocks' pages' s' s'') :
    GivenBack (blocks + blocks') (pages + pages') s s'' := by
  refine ⟨fun c => ?_, ?_⟩
  · rw [h'.pools, h.pools, Pi.add_apply]
    abel
  · rw [h'.free, h.free]
    abel

/-- What is given back is no longer taken. -/
lemma HeapSpent.giveBack (h : HeapSpent (blocks + blocks') (pages + pages') s s')
    (h' : GivenBack blocks' pages' s' s'') : HeapSpent blocks pages s s'' := by
  obtain ⟨cut, hfree, hpools⟩ := h
  refine ⟨cut, ?_, fun c => ?_⟩
  · rw [hfree, h'.free]
    abel
  · rw [← hpools, h'.pools, Pi.add_apply]
    abel

/-- Pages that leave the free list -/
lemma HeapSpent.of_pages (hpages : pages + s'.pmm.freeList = (s.pmm.freeList : Multiset Frame))
    (hpools : s'.pools = s.pools) : HeapSpent 0 pages s s' := by
  refine ⟨0, ?_, fun c => ?_⟩
  · rw [← hpages]
    simp [add_comm]
  · simp [hpools]

/-- Pages that come back to the free list -/
lemma GivenBack.of_pages (hpages : (s'.pmm.freeList : Multiset Frame) = pages + s.pmm.freeList)
    (hpools : s'.pools = s.pools) : GivenBack 0 pages s s' :=
  ⟨fun c => by simp [hpools], hpages⟩

/-! ### Blocks -/

lemma setPool_spent {c : Fin 10} {entry : Block} {next : List Block}
    (hpool : s.pools c = entry :: next) (data : PoolData) :
    HeapSpent (Pi.single c {entry}) 0 s (s.setPool c next data) := by
  refine ⟨0, by simp [Heap.setPool], fun c' => ?_⟩
  by_cases hc : c' = c
  · subst hc
    rw [Heap.setPool_pools_self, hpool, Pi.single_eq_same, ← Multiset.cons_coe, Multiset.add_comm,
      Multiset.singleton_add]
    simp
  · rw [Heap.setPool_pools_of_ne _ _ _ hc, Pi.single_eq_of_ne hc]
    simp

lemma allocFromFreshPage_spent (hcounted : s.pmm.Counted) {c : Fin 10} (hpool : s.pools c = []) :
    Ensures (fun _ => False) (fun r => (r.1 = none → HeapSpent 0 0 s r.2) ∧
      ∀ b, r.1 = some b → HeapSpent (Pi.single c {b}) 0 s r.2) (allocFromFreshPage c s) := by
  unfold allocFromFreshPage
  rw [hpool]
  rcases allocPage_eq hcounted with ⟨-, heq⟩ | ⟨page, next, hfree, heq⟩
  · rw [heq]
    exact ⟨fun _ => .refl s, fun b hb => (by cases hb)⟩
  · rw [heq]
    refine ⟨fun hb => (by cases hb), fun b hb => ?_⟩
    cases hb
    refine ⟨Pi.single c {page}, ?_, fun c' => ?_⟩
    · rw [Finset.sum_pi_single', if_pos (Finset.mem_univ c), hfree, ← Multiset.cons_coe, add_zero,
        Multiset.add_comm, Multiset.singleton_add]
      rfl
    · by_cases hc : c' = c
      · subst hc
        rw [Heap.setPool_pools_self, hpool, Pi.single_eq_same, Pi.single_eq_same,
          Multiset.singleton_bind, blocksOf_eq, Multiset.coe_nil, zero_add, Multiset.add_comm,
          Multiset.singleton_add]
      · rw [Heap.setPool_pools_of_ne _ _ _ hc, Pi.single_eq_of_ne hc, Pi.single_eq_of_ne hc]
        simp

lemma kalloc_spent {size : ℕ} {c : Fin 10} (hsize : allocCalcSizeClass size = c)
    (hcounted : s.pmm.Counted) :
    Ensures (fun _ => False) (fun r => HeapStep s r.2 ∧ (r.1 = none → HeapSpent 0 0 s r.2) ∧
      ∀ b, r.1 = some b → HeapSpent (Pi.single c {b}) 0 s r.2) (kalloc size s) := by
  rw [kalloc, hsize]
  refine (kallocClass_spec hcounted c).and ?_
  unfold kallocClass
  rw [checkSizeClass_fin, ok_bind]
  cases hpool : s.pools c with
  | nil => exact allocFromFreshPage_spent hcounted hpool
  | cons entry next =>
    refine ⟨fun hb => (by cases hb), fun b hb => ?_⟩
    cases hb
    exact setPool_spent hpool _

lemma kfree_givenBack {size : ℕ} {c : Fin 10} (hsize : allocCalcSizeClass size = c) (b : Block)
    (s : Heap) :
    Ensures (fun _ => False) (fun s' => s'.pmm = s.pmm ∧ GivenBack (Pi.single c {b}) 0 s s')
      (kfree b size s) := by
  rw [kfree, hsize, kfreeClass, checkSizeClass_fin, ok_bind]
  refine ⟨rfl, fun c' => ?_, by simp [Heap.setPool]⟩
  by_cases hc : c' = c
  · subst hc
    rw [Heap.setPool_pools_self, Pi.single_eq_same, Multiset.singleton_add]
    rfl
  · rw [Heap.setPool_pools_of_ne _ _ _ hc, Pi.single_eq_of_ne hc, zero_add]

end

end Fluke
