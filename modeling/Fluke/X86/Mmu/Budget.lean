import Fluke.X86.Mmu.AddressSpace

/-!
# How many frames `assign` takes

A page of the range costs at most one frame at each level of the tables. `assign` therefore runs
out of frames only when the free list was shorter than that.
-/

namespace Fluke

open Outcome TableRange

/-- Running out of frames, which happens only when the free frames do not pay for the bytes. -/
def Short (cost : ℕ) (s : Pmm) (e : Panic) : Prop :=
  e = .outOfMemory → 4096 * s.freeList.length < cost

/-- No more frames are taken than the bytes pay for. -/
def Spent (cost : ℕ) (s s' : Pmm) : Prop :=
  4096 * s.freeList.length ≤ 4096 * s'.freeList.length + cost

/-- `alloc_page` takes the first free frame when there is one. -/
lemma allocPage_budget (s : Pmm) :
    Ensures (· ≠ .outOfMemory) (fun r => (r.1 = none → s.freeList = []) ∧ Spent 4096 s r.2)
      (allocPage s) := by
  unfold allocPage
  cases hfree : s.freeList with
  | nil => exact ⟨fun _ => rfl, Nat.le_add_right _ _⟩
  | cons page next =>
    have hassert : ∀ b a, Ensures (· ≠ .outOfMemory) (fun _ => True) (assert b a) := by
      intro b a
      cases b
      · exact fun h => (by cases h)
      · trivial
    refine (hassert _ _).bind fun _ _ => ⟨fun h => (by cases h), ?_⟩
    show 4096 * s.freeList.length ≤ 4096 * next.length + 4096
    rw [hfree, List.length_cons, Nat.mul_succ]

lemma mmuAllocPage_budget (s : Pmm) :
    Ensures (Short 4096 s) (fun r => Spent 4096 s r.2) (mmuAllocPage s) := by
  unfold mmuAllocPage
  refine Ensures.bind ((allocPage_budget s).mono (fun e h he => absurd he h) fun _ h => h) ?_
  rintro ⟨_ | page, s'⟩ ⟨hnone, hspent⟩
  · intro _
    rw [hnone rfl]
    decide
  · exact hspent

lemma nextTable_budget (table : Frame) (i : Fin 512) (s : Pmm) :
    Ensures (Short 4096 s) (fun r => Spent 4096 s r.2) (nextTable table i s) := by
  unfold nextTable
  dsimp only
  split_ifs
  · exact (mmuAllocPage_budget s).bind fun r hr => hr
  · exact Nat.le_add_right _ _

lemma assignPage_budget (table : Frame) (i : Fin 512) (flags : Word) (s : Pmm) :
    Ensures (Short 4096 s) (Spent 4096 s) (assignPage table i flags s) := by
  unfold assignPage
  split_ifs
  · exact fun h => (by cases h)
  · exact (mmuAllocPage_budget s).bind fun r hr => hr

namespace TableRange

variable {d base vbegin vend : ℕ}

/-- The bytes of the range that entry `i` translates. -/
def width (d vbegin vend : ℕ) (i : Fin 512) : ℕ := nextVend d vbegin vend i - nextVbegin d vbegin i

/-- The entries share out the range. -/
lemma sum_width_le (h : TableRange d base vbegin vend) {is : List (Fin 512)} (his : is.Nodup) :
    (is.map (width d vbegin vend)).sum ≤ vend - vbegin := by
  have hdisj : (is.toFinset : Set (Fin 512)).PairwiseDisjoint fun i =>
      Finset.Ico (nextVbegin d vbegin i) (nextVend d vbegin vend i) := by
    intro i _ j _ hij
    refine Finset.disjoint_left.mpr fun va hi hj => hij ?_
    rw [Finset.mem_Ico, ← h.mem_child_iff] at hi hj
    exact hi.2.2.symm.trans hj.2.2
  have hcard : (is.map (width d vbegin vend)).sum = (is.toFinset.biUnion fun i =>
      Finset.Ico (nextVbegin d vbegin i) (nextVend d vbegin vend i)).card := by
    rw [Finset.card_biUnion hdisj, ← List.sum_toFinset _ his]
    exact Finset.sum_congr rfl fun i _ => (Nat.card_Ico _ _).symm
  rw [hcard, ← Nat.card_Ico]
  refine Finset.card_le_card fun va hva => ?_
  obtain ⟨i, -, hi⟩ := Finset.mem_biUnion.mp hva
  rw [Finset.mem_Ico, ← h.mem_child_iff] at hi
  exact Finset.mem_Ico.mpr ⟨hi.1, hi.2.1⟩

/-- A range has at least one page. -/
lemma page_le_width (h : TableRange (d + 1) base vbegin vend) {i : Fin 512}
    (hi : i ∈ indices (d + 1) vbegin vend) : 4096 ≤ width (d + 1) vbegin vend i := by
  have hchild := h.child hi
  have hlt := hchild.lt
  obtain ⟨k, hk⟩ := hchild.vbegin_aligned
  obtain ⟨l, hl⟩ := hchild.vend_aligned
  unfold width
  omega

end TableRange

/-- The loop over the entries of a table, where each entry has its cost. -/
lemma forEach_budget {d base vbegin vend cost : ℕ} (hr : TableRange (d + 1) base vbegin vend)
    {body : Fin 512 → Pmm → Except Panic Pmm} {s : Pmm}
    (hbody : ∀ i ∈ indices (d + 1) vbegin vend, ∀ s,
      Ensures (Short (cost * width (d + 1) vbegin vend i) s)
        (Spent (cost * width (d + 1) vbegin vend i) s) (body i s)) :
    Ensures (Short (cost * (vend - vbegin)) s) (Spent (cost * (vend - vbegin)) s)
      (forEach body (indices (d + 1) vbegin vend) s) := by
  have hle : ∀ done, done <+: indices (d + 1) vbegin vend →
      cost * (done.map (width (d + 1) vbegin vend)).sum ≤ cost * (vend - vbegin) := fun done h =>
    Nat.mul_le_mul_left cost (hr.sum_width_le (h.sublist.nodup (nodup_indices _ _ _)))
  refine Ensures.imp (ensures_forEach
    (fun done s' => Spent (cost * (done.map (width (d + 1) vbegin vend)).sum) s s')
    (indices (d + 1) vbegin vend) [] s ?_ (Nat.le_add_right _ _)) fun s' h => ?_
  rotate_left
  · have htotal := hle _ (List.prefix_refl _)
    rw [List.nil_append] at h
    unfold Spent at h ⊢
    omega
  · intro i done s' hpre hdone
    rw [List.nil_append] at hpre
    have hmem : i ∈ indices (d + 1) vbegin vend := hpre.subset (by simp)
    have htotal := hle _ hpre
    have hsum : cost * ((done ++ [i]).map (width (d + 1) vbegin vend)).sum =
        cost * (done.map (width (d + 1) vbegin vend)).sum +
          cost * width (d + 1) vbegin vend i := by
      rw [List.map_append, List.sum_append, List.map_singleton, List.sum_singleton, Nat.mul_add]
    unfold Spent at hdone
    refine (hbody i hmem s').mono (fun e h he => ?_) fun s'' h => ?_
    · have hlt := h he
      omega
    · unfold Spent at h ⊢
      omega

/-- `assign`, for a table of depth `d + 1`. -/
lemma assign_budget (flags : Word) (d : ℕ) {table : Frame} {base vbegin vend : ℕ} {s : Pmm}
    (hr : TableRange (d + 1) base vbegin vend) :
    Ensures (Short ((d + 1) * (vend - vbegin)) s) (Spent ((d + 1) * (vend - vbegin)) s)
      (assign (d + 1) table vbegin vend flags s) := by
  induction d generalizing table base vbegin vend s with
  | zero =>
    unfold assign
    rw [hr.forEntries_eq]
    refine forEach_budget hr fun i hi s => ?_
    have hpage := hr.page_le_width hi
    rw [if_neg (Nat.lt_irrefl _)]
    refine (assignPage_budget table i flags s).mono (fun e h he => ?_) fun s' h => ?_
    · have hlt := h he
      omega
    · unfold Spent at h ⊢
      omega
  | succ d ih =>
    unfold assign
    rw [hr.forEntries_eq]
    refine forEach_budget hr fun i hi s => ?_
    have hpage := hr.page_le_width hi
    have hcost : (d + 1 + 1) * width (d + 1 + 1) vbegin vend i =
        (d + 1) * width (d + 1 + 1) vbegin vend i + width (d + 1 + 1) vbegin vend i := by ring
    rw [if_pos (Nat.succ_lt_succ d.succ_pos)]
    refine Ensures.bind ((nextTable_budget table i s).mono (fun e h he => ?_) fun _ h => h) ?_
    · have hlt := h he
      omega
    rintro ⟨target, s₁⟩ hnext
    have hnext' : Spent 4096 s s₁ := hnext
    unfold width at hpage hcost ⊢
    unfold Spent at hnext'
    refine (ih (hr.child hi)).mono (fun e h he => ?_) fun s' h => ?_
    · have hlt := h he
      omega
    · unfold Spent at h ⊢
      omega

/-- With four free frames for every page, `mmu_assign` does not run out of frames. -/
lemma mmuAssign_budget {pm : Frame} {address len : ℕ} {mode : MmuMode} {cache : MmuCache}
    {s : Pmm} (hr : UserRange address len) (hfree : 4 * (len / 4096) ≤ s.freeList.length) :
    mmuAssign pm address len mode cache s ≠ .error .outOfMemory := by
  have hspec : Ensures (Short (4 * (address + len - address)) s) _
      (assign PML4 pm address (address + len) (entryFlags cache mode) s) :=
    assign_budget (entryFlags cache mode) PDPT hr.tableRange
  intro h
  unfold mmuAssign at h
  rw [hr.validateLimits_eq, hr.uaddIsize_eq, ok_bind] at h
  have hlt := (ensures_iff.mp hspec).2 _ h rfl
  obtain ⟨k, hk⟩ := hr.len_aligned
  rw [Nat.add_sub_cancel_left] at hlt
  omega

end Fluke
