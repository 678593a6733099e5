import Fluke.X86.Mmu.Assign

/-!
# `clear`

`clear` erases its range from the tree: the pages of the range and the tables this leaves empty
go back to the free list, in one step of the tree each, and nothing else changes. It never
stops.
-/

namespace Fluke

open Outcome TableEntry TableRange

variable {owned : Fin 512 → Bool} {d : ℕ} {table : Frame} {s : Pmm} {i : Fin 512}

lemma isEmptyTable_iff (page : Page) :
    isEmptyTable page = true ↔ ∀ i, isPresent (page i) = false := by
  unfold isEmptyTable
  simp only [List.all_eq_true, List.mem_finRange, Bool.not_eq_true', forall_const]

/-- An iteration on an entry that is not present. -/
lemma SlotStep.refl {T : Touch} (hcount : s.Counted) : SlotStep T d table i s s :=
  ⟨hcount, rfl, fun _ hg => Or.inl hg, fun _ _ _ _ => rfl, fun _ _ => rfl⟩

/-- Giving back the one frame that is left below entry `i`. -/
lemma SlotStep.of_free (hs : Apart owned d table s) (hi : owned i = true) (hcount : s.Counted)
    (hframes : frames (s.treeAt d table i) = {entryTarget (s.memory table i)}) :
    SlotStep .all d table i s
        ((freePage (entryTarget (s.memory table i)) s).setWord table i 0) ∧
      ((freePage (entryTarget (s.memory table i)) s).setWord table i 0).treeAt d table i =
        .absent := by
  have hmem : entryTarget (s.memory table i) ∈ frames (s.treeAt d table i) := by
    rw [hframes]
    exact Multiset.mem_singleton_self _
  have hne := hs.ne_table hi hmem
  have habsent : ((freePage (entryTarget (s.memory table i)) s).setWord table i 0).treeAt d table i
      = .absent := by
    unfold Pmm.treeAt
    rw [Pmm.setWord_self]
    exact treeOf_absent isPresent_zero d
  refine ⟨⟨freePage_counted hcount _, ?_, ?_, ?_, ?_⟩, habsent⟩
  · rw [habsent, hframes, frames_absent, zero_add]
    rfl
  · intro g hg
    rcases List.mem_cons.mp hg with rfl | hg
    · exact Or.inr ⟨rfl, hmem⟩
    · exact Or.inl hg
  · intro g hg hT _
    have hgt : g ≠ entryTarget (s.memory table i) := fun h => hT (h ▸ hmem)
    rw [Pmm.setWord_of_ne_frame _ _ _ hg, freePage_memory_of_ne hgt]
  · intro j hj
    rw [Pmm.setWord_of_ne _ _ _ hj, freePage_memory_of_ne hne.symm]

/-- `clear`, for entry `i` of a table of depth `d + 1`. -/
def ClearedSlot (d vbegin vend : ℕ) (i : Fin 512) (t t' : PageTree) (_ : Frame → Page) : Prop :=
  t' = t.erase (pathsIn d (nextVbegin (d + 1) vbegin i) (nextVend (d + 1) vbegin vend i))

/-- From the entries of a table to the table, before it is given back. -/
lemma erase_treeAt {base vbegin vend : ℕ} (hr : TableRange (d + 1) base vbegin vend)
    (entry : Word) {slots slots' : Fin 512 → PageTree} {memory : Frame → Page}
    (hout : ∀ j, j ∉ indices (d + 1) vbegin vend → slots' j = slots j)
    (hin : ∀ j ∈ indices (d + 1) vbegin vend,
      ClearedSlot d vbegin vend j (slots j) (slots' j) memory) :
    (Radix.table entry slots).erase (pathsIn (d + 1) vbegin vend) = Radix.prune entry slots' := by
  rw [Radix.erase_table _ _ hr.pathsIn_nonempty]
  congr 1
  funext j
  by_cases hj : j ∈ indices (d + 1) vbegin vend
  · rw [hr.pathsIn_child j, hin j hj]
  · rw [hr.pathsIn_child_of_notMem hj, Radix.erase_empty, hout j hj]

/-- What `clear` leaves of a table of depth `d + 1`, and what its answer says. -/
structure Cleared (owned : Fin 512 → Bool) (d : ℕ) (table : Frame) (vbegin vend : ℕ) (s : Pmm)
    (r : Bool × Pmm) : Prop where
  step : SlotsStep .all owned d table (indices (d + 1) vbegin vend) s r.2
  slots : ∀ i ∈ indices (d + 1) vbegin vend, ClearedSlot d vbegin vend i (s.treeAt d table i)
    (r.2.treeAt d table i) r.2.memory
  empty : r.1 = true ↔ ∀ i, isPresent (r.2.memory table i) = false

/-- The loop of `clear` and the scan that follows it. -/
lemma cleared_of_body {base vbegin vend : ℕ} (hr : TableRange (d + 1) base vbegin vend)
    (howned : ∀ i ∈ indices (d + 1) vbegin vend, owned i = true)
    (hs : Apart owned d table s) (hcount : s.Counted) {body : Fin 512 → Pmm → Except Panic Pmm}
    (hbody : ∀ i ∈ indices (d + 1) vbegin vend, ∀ s', Apart owned d table s' → s'.Counted →
      Ensures (fun _ => False) (fun s'' => SlotStep .all d table i s' s'' ∧
        ClearedSlot d vbegin vend i (s'.treeAt d table i) (s''.treeAt d table i) s''.memory)
        (body i s')) :
    Ensures (fun _ => False) (Cleared owned d table vbegin vend s) (do
      let s ← forEntries (indexBegin (d + 1) vbegin) (indexEnd (d + 1) vbegin vend) body s
      .ok (isEmptyTable (s.memory table), s)) := by
  rw [hr.forEntries_eq]
  refine (forEach_slots (ClearedSlot d vbegin vend) (fun _ _ _ _ _ h _ => h)
    (nodup_indices _ _ _) howned hs hcount
    fun i hi _ s' _ _ hdone hs' _ => hbody i hi s' hs' hdone.counted).bind ?_
  rintro s' ⟨hstep, hcleared⟩
  rw [ensures_ok]
  refine ⟨hstep, hcleared, ?_⟩
  dsimp only
  exact isEmptyTable_iff (s'.memory table)

/-- An entry that is not present has nothing to clear. -/
lemma clearedSlot_of_absent {vbegin vend : ℕ} (hcount : s.Counted)
    (hp : isPresent (s.memory table i) = false) :
    SlotStep .all d table i s s ∧
      ClearedSlot d vbegin vend i (s.treeAt d table i) (s.treeAt d table i) s.memory := by
  refine ⟨SlotStep.refl hcount, ?_⟩
  unfold ClearedSlot
  rw [Pmm.treeAt, treeOf_absent hp, Radix.erase_absent]

/-- The iteration on a present entry of a table above the `PT`s, after the recursive call. -/
lemma clearedSlot_of_child {base vbegin vend : ℕ}
    (hr : TableRange (d + 1) base (nextVbegin (d + 1 + 1) vbegin i)
      (nextVend (d + 1 + 1) vbegin vend i))
    (hs : Apart owned (d + 1) table s) (hi : owned i = true)
    (hp : isPresent (s.memory table i) = true) {r : Bool × Pmm}
    (h : Cleared allSlots d (entryTarget (s.memory table i))
      (nextVbegin (d + 1 + 1) vbegin i) (nextVend (d + 1 + 1) vbegin vend i) s r)
    {s' : Pmm}
    (hs' : s' = if r.1 then
      (freePage (entryTarget (s.memory table i)) r.2).setWord table i 0 else r.2) :
    SlotStep .all (d + 1) table i s s' ∧
      ClearedSlot (d + 1) vbegin vend i (s.treeAt (d + 1) table i) (s'.treeAt (d + 1) table i)
        s'.memory := by
  obtain ⟨empty, s₁⟩ := r
  dsimp only at hs'
  obtain ⟨hstep, htable⟩ := SlotStep.of_child hs hi hp h.step
  have hp₁ : isPresent (s₁.memory table i) = true := by rw [htable]; exact hp
  have htree : s.treeAt (d + 1) table i = .table (s.memory table i)
      (slotsOf allSlots s.memory d (entryTarget (s.memory table i))) := treeOf_table hp d
  have htree₁ : s₁.treeAt (d + 1) table i = .table (s.memory table i)
      (slotsOf allSlots s₁.memory d (entryTarget (s.memory table i))) := by
    rw [Pmm.treeAt, htable, treeOf_table hp]
  have herase := erase_treeAt hr (s.memory table i) (fun j hj => h.step.same j hj rfl)
    h.slots
  unfold ClearedSlot
  rw [htree]
  cases empty with
  | false =>
    have hne : ¬ ∀ j, isPresent (s₁.memory (entryTarget (s.memory table i)) j) = false :=
      fun hall => by simpa using h.empty.mpr hall
    obtain ⟨j, hj⟩ := not_forall.mp hne
    rw [if_neg (by simp)] at hs'
    subst hs'
    refine ⟨hstep, ?_⟩
    rw [htree₁]
    refine (herase.trans (Radix.prune_of_ne _ (i := j) ?_)).symm
    exact fun hslot => hj (treeOf_eq_absent_iff.mp hslot)
  | true =>
    have hall : ∀ j, slotsOf allSlots s₁.memory d (entryTarget (s.memory table i)) j = .absent :=
      fun j => treeOf_eq_absent_iff.mpr (h.empty.mp rfl j)
    have hs₁ : Apart owned (d + 1) table s₁ :=
      hs.of_conserved (hstep.slotFrames_conserved hs hi)
    have hframes : frames (s₁.treeAt (d + 1) table i) = {entryTarget (s₁.memory table i)} := by
      rw [htree₁, frames_table, framesOfSlots_of_absent hall, htable]
      rfl
    obtain ⟨hfree, habsent⟩ := SlotStep.of_free hs₁ hi hstep.counted hframes
    rw [if_pos rfl, ← htable] at hs'
    subst hs'
    have hsub : ∀ g ∈ frames (s₁.treeAt (d + 1) table i),
        g ∈ frames (s.treeAt (d + 1) table i) := by
      intro g hg
      rw [hframes, Multiset.mem_singleton, htable] at hg
      rw [hg, htree, frames_table]
      exact Multiset.mem_cons_self _ _
    refine ⟨hstep.trans hfree (fun g hg => Or.inr (hsub g hg)) fun _ g hg => hsub g hg, ?_⟩
    rw [habsent]
    exact (herase.trans (Radix.prune_of_absent _ hall)).symm

/-- `clear`, for a table of depth `d + 1`. -/
theorem clear_slots (d : ℕ) {owned : Fin 512 → Bool} {table : Frame} {base vbegin vend : ℕ}
    {s : Pmm} (hr : TableRange (d + 1) base vbegin vend)
    (howned : ∀ i ∈ indices (d + 1) vbegin vend, owned i = true)
    (hs : Apart owned d table s) (hcount : s.Counted) :
    Ensures (fun _ => False) (Cleared owned d table vbegin vend s)
      (clear (d + 1) table vbegin vend s) := by
  induction d generalizing owned table base vbegin vend s with
  | zero =>
    unfold clear
    refine cleared_of_body hr howned hs hcount fun i hi s' hs' hcount' => ?_
    have hchild := hr.child hi
    cases hp : isPresent (s'.memory table i) with
    | false =>
      rw [if_neg (by simp)]
      exact clearedSlot_of_absent hcount' hp
    | true =>
      rw [if_pos rfl]
      have htree : s'.treeAt 0 table i = .page (s'.memory table i) := treeOf_zero hp
      obtain ⟨hstep, habsent⟩ :=
        SlotStep.of_free hs' (howned i hi) hcount' (by rw [htree, frames_page])
      refine ⟨hstep, ?_⟩
      obtain ⟨p, va, h1, h2, -⟩ := hchild.pathsIn_nonempty
      unfold ClearedSlot
      rw [habsent, htree]
      exact (Radix.erase_page_of_mem _ (mem_pathsIn h1 h2)).symm
  | succ d ih =>
    unfold clear
    refine cleared_of_body hr howned hs hcount fun i hi s' hs' hcount' => ?_
    have hchild := hr.child hi
    cases hp : isPresent (s'.memory table i) with
    | false =>
      rw [if_neg (by simp)]
      exact clearedSlot_of_absent hcount' hp
    | true =>
      rw [if_pos rfl]
      dsimp only
      rw [if_neg (by simp)]
      refine (ih hchild (fun _ _ => rfl) (hs'.child (howned i hi) hp) hcount').bind ?_
      rintro ⟨empty, s₁⟩ hcleared
      have hslot := fun s'' (h : s'' = _) =>
        clearedSlot_of_child hchild hs' (howned i hi) hp hcleared h
      dsimp only at hslot ⊢
      split_ifs with hempty
      · exact hslot _ (by rw [if_pos hempty])
      · exact hslot _ (by rw [if_neg hempty])

end Fluke
