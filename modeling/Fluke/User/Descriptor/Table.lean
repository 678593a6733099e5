import Fluke.Library.Slots
import Fluke.User.Descriptor.Slots

/-!
# The operations on a descriptor table

What each operation does to the descriptors that can be read and to the reference counts.
-/

namespace Fluke

open Outcome

/-- Only the heap has changed. -/
structure SameObjects (s s' : Handles) : Prop where
  eq : s' = { s with heap := s'.heap }
  heap : HeapStep s.heap s'.heap

lemma SameObjects.refl {s : Handles} (h : s.heap.pmm.Counted) : SameObjects s s :=
  ⟨rfl, .refl h⟩

lemma SameObjects.live {s s' : Handles} (h : SameObjects s s') (handle : HandleId) :
    s'.Live handle ↔ s.Live handle := by
  rw [h.eq]
  cases handle <;> exact Iff.rfl

lemma SameObjects.sized {s s' : Handles} (h : SameObjects s s') (hs : s.Sized) : s'.Sized := by
  rw [h.eq]
  exact hs

lemma SameObjects.refCount {s s' : Handles} (h : SameObjects s s') : s'.refCount = s.refCount := by
  rw [h.eq]

lemma RefsOk.of_same {t t' : DescriptorTable} {other : HandleId → ℕ} {s s' : Handles}
    (h : RefsOk t other s) (hread : t'.read = t.read) (hs : SameObjects s s') :
    RefsOk t' other s' := by
  refine ⟨fun handle => ?_, fun handle hpos => ?_, hs.sized h.sized⟩
  · rw [hs.refCount, DescriptorTable.uses_congr hread]
    exact h.count handle
  · rw [hs.refCount] at hpos
    exact (hs.live handle).mpr (h.live handle hpos)

lemma makeSubTable_spec {s : Handles} (h : s.heap.pmm.Counted) :
    Ensures (fun _ => False) (fun r => SameObjects s r.2 ∧
      (∀ sub, r.1 = some sub → sub.entries = fun _ => none) ∧
      (r.1 = none → ∃ heap, kalloc subTableSize s.heap = .ok (none, heap)))
      (makeSubTable s) := by
  unfold makeSubTable
  refine (kalloc_spec (by decide) h).with_eq.mono (fun _ he => he.1) (fun _ h => h) |>.bind ?_
  rintro ⟨block, heap⟩ ⟨hstep, heq⟩
  refine ⟨⟨rfl, hstep⟩, fun sub hsub => ?_, fun hnone => ⟨heap, ?_⟩⟩
  · obtain ⟨b, -, rfl⟩ := Option.map_eq_some_iff.mp hsub
    rfl
  · rw [Option.map_eq_none_iff] at hnone
    rw [heq, hnone]

/-- Where no sub-table can be made, nothing has changed. -/
lemma makeSubTable_none {s s' : Handles} (h : s.heap.pmm.Counted)
    (hmake : makeSubTable s = .ok (none, s')) :
    s' = s ∧ kalloc subTableSize s.heap = .ok (none, s.heap) := by
  obtain ⟨c, hsize, -⟩ := allocCalcSizeClass_spec (by decide : subTableSize ≤ allocMax)
  unfold makeSubTable at hmake
  rcases kalloc_cases hsize h with ⟨-, hnone⟩ | ⟨block, heap, hsome⟩
  · rw [hnone] at hmake
    cases hmake
    exact ⟨rfl, hnone⟩
  · rw [hsome] at hmake
    cases hmake

/-! ### `get` -/

lemma DescriptorTable.get_eq (t : DescriptorTable) (fd : ℤ) :
    t.get fd = match slotOf fd with
      | some slot => if (t.read slot).isOpen then .ok slot else .error .EBADF
      | none => .error .EBADF := by
  unfold DescriptorTable.get slotOf
  dsimp only
  by_cases hneg : fd < 0
  · rw [if_pos hneg, if_pos hneg]
  rw [if_neg hneg, if_neg hneg]
  by_cases hdirect : fd.toNat < 8
  · rw [dif_pos hdirect, dif_pos hdirect]
    cases hopen : (t.read (.direct ⟨fd.toNat, hdirect⟩)).isOpen <;> simp [hopen]
  rw [dif_neg hdirect, dif_neg hdirect]
  by_cases hindirect : fd.toNat - 8 < 64
  · rw [dif_pos hindirect, dif_pos hindirect]
    cases hsub : t.l1 ⟨(fd.toNat - 8) / 16, by omega⟩ with
    | none => simp [DescriptorTable.read, hsub, Descriptor.isOpen]
    | some sub =>
      cases hopen : (t.read (.indirect ⟨(fd.toNat - 8) / 16, by omega⟩
        ⟨(fd.toNat - 8) % 16, by omega⟩)).isOpen <;> simp [hopen]
  · rw [dif_neg hindirect, dif_neg hindirect]

/-! ### `alloc` -/

/-- What `Descriptor_table::alloc` returns and leaves. -/
structure SlotAllocated (t : DescriptorTable) (s : Handles)
    (r : Result (ℕ × Slot) × DescriptorTable × Handles) : Prop where
  read : r.2.1.read = t.read
  same : SameObjects s r.2.2
  done : ∀ fd slot, r.1 = .ok (fd, slot) → slot.fd = fd ∧ t.read slot = none ∧ r.2.1.Has slot ∧
    ∀ slot' : Slot, slot'.fd < fd → t.read slot' ≠ none
  failed : ∀ e, r.1 = .error e → (e = .EMFILE ∧ ∀ slot, t.read slot ≠ none) ∨
    (e = .ENOMEM ∧ ∃ i heap, t.l1 i = none ∧ kalloc subTableSize s.heap = .ok (none, heap))

/-- A slot behind the first ones lies in a sub-table. -/
lemma Slot.fd_lt_succ {slot : Slot} {k : ℕ} (h : slot.fd < 8 + 16 * (k + 1)) :
    slot.fd < 8 + 16 * k ∨ ∃ (i : Fin 4) (j : Fin 16), i.val = k ∧ slot = .indirect i j := by
  cases slot with
  | direct i =>
    simp only [Slot.fd] at h ⊢
    omega
  | indirect i j =>
    simp only [Slot.fd] at h ⊢
    by_cases hi : i.val = k
    · exact Or.inr ⟨i, j, hi, rfl⟩
    · omega

lemma DescriptorTable.allocIndirect_spec (t : DescriptorTable) {s : Handles}
    (h : s.heap.pmm.Counted) (is : List (Fin 4)) : ∀ k, is = (List.finRange 4).drop k → k ≤ 4 →
    (∀ slot : Slot, slot.fd < 8 + 16 * k → t.read slot ≠ none) →
    Ensures (fun _ => False) (SlotAllocated t s) (t.allocIndirect is (8 + 16 * k) s) := by
  induction is with
  | nil =>
    intro k hk hle hopen
    have hfull : k = 4 := by
      have hlen := congrArg List.length hk
      simp only [List.length_nil, List.length_drop, List.length_finRange] at hlen
      omega
    refine ⟨rfl, .refl h, fun fd slot hok => (by cases hok), fun e he => ?_⟩
    cases he
    exact Or.inl ⟨rfl, fun slot => hopen slot (by have := slot.fd_lt; omega)⟩
  | cons i is ih =>
    intro k hk hle hopen
    have hlt : k < (List.finRange 4).length := by
      have hlen := congrArg List.length hk
      simp only [List.length_cons, List.length_drop, List.length_finRange] at hlen ⊢
      omega
    rw [List.drop_eq_getElem_cons hlt, List.cons.injEq, List.getElem_finRange] at hk
    obtain ⟨hi, his⟩ := hk
    have hival : i.val = k := by
      rw [hi]
      rfl
    unfold DescriptorTable.allocIndirect
    cases hsub : t.l1 i with
    | none =>
      refine (makeSubTable_spec h).bind ?_
      rintro ⟨_ | sub, s'⟩ ⟨hsame, hempty, hnone⟩
      · refine ⟨rfl, hsame, fun fd slot hok => (by cases hok), fun e he => ?_⟩
        cases he
        obtain ⟨heap, hheap⟩ := hnone rfl
        exact Or.inr ⟨rfl, i, heap, hsub, hheap⟩
      · refine ⟨DescriptorTable.read_setSub hsub (hempty sub rfl), hsame, fun fd slot hok => ?_,
          fun e he => (by cases he)⟩
        cases hok
        refine ⟨?_, ?_, DescriptorTable.has_setSub sub 0, hopen⟩
        · simp [Slot.fd, hival]
        · simp [DescriptorTable.read, hsub]
    | some sub =>
      dsimp only
      cases hfind : (List.finRange 16).find? fun j => !(sub.entries j).isOpen with
      | some j =>
        obtain ⟨hfree, hbefore⟩ := find_finRange hfind
        refine ⟨rfl, .refl h, fun fd slot hok => ?_, fun e he => (by cases he)⟩
        cases hok
        refine ⟨by simp [Slot.fd, hival], ?_, by simp [DescriptorTable.Has, hsub],
          fun slot' hslot' => ?_⟩
        · simpa [DescriptorTable.read, hsub, Descriptor.isOpen] using hfree
        · have hlt' : slot'.fd < 8 + 16 * (k + 1) := by omega
          rcases Slot.fd_lt_succ hlt' with hlow | ⟨i', j', hi', rfl⟩
          · exact hopen slot' hlow
          · have hii : i' = i := Fin.ext (hi'.trans hival.symm)
            subst hii
            have hjj : j' < j := by
              simp only [Slot.fd] at hslot'
              omega
            have hj' := hbefore j' hjj
            simp only [Descriptor.isOpen, Bool.not_eq_false', Option.isSome_iff_ne_none] at hj'
            simpa [DescriptorTable.read, hsub] using hj'
      | none =>
        rw [List.find?_eq_none] at hfind
        have hnext := ih (k + 1) his (by simpa using hlt) fun slot' hslot' => ?_
        · have hn : 8 + 16 * k + 16 = 8 + 16 * (k + 1) := by omega
          rw [hn]
          exact hnext
        · rcases Slot.fd_lt_succ hslot' with hlow | ⟨i', j', hi', rfl⟩
          · exact hopen slot' hlow
          · have hii : i' = i := Fin.ext (hi'.trans hival.symm)
            subst hii
            have hj' := hfind j' (List.mem_finRange j')
            simp only [Descriptor.isOpen, Bool.not_eq_true', Bool.not_eq_false,
              Option.isSome_iff_ne_none] at hj'
            simpa [DescriptorTable.read, hsub] using hj'

lemma DescriptorTable.alloc_spec (t : DescriptorTable) {s : Handles} (h : s.heap.pmm.Counted) :
    Ensures (fun _ => False) (SlotAllocated t s) (t.alloc s) := by
  unfold DescriptorTable.alloc
  cases hfind : (List.finRange 8).find? fun i => !(t.l0 i).isOpen with
  | some i =>
    obtain ⟨hfree, hbefore⟩ := find_finRange hfind
    refine ⟨rfl, .refl h, fun fd slot hok => ?_, fun e he => (by cases he)⟩
    cases hok
    refine ⟨rfl, ?_, trivial, fun slot' hslot' => ?_⟩
    · simpa [DescriptorTable.read, Descriptor.isOpen] using hfree
    · cases slot' with
      | direct i' =>
        have hi' := hbefore i' hslot'
        simp only [Descriptor.isOpen, Bool.not_eq_false', Option.isSome_iff_ne_none] at hi'
        exact hi'
      | indirect i' j' =>
        simp only [Slot.fd] at hslot'
        omega
  | none =>
    rw [List.find?_eq_none] at hfind
    refine t.allocIndirect_spec h (List.finRange 4) 0 rfl (by omega) fun slot hslot => ?_
    cases slot with
    | direct i =>
      have hi := hfind i (List.mem_finRange i)
      simp only [Descriptor.isOpen, Bool.not_eq_true', Bool.not_eq_false,
        Option.isSome_iff_ne_none] at hi
      exact hi
    | indirect i j =>
      simp only [Slot.fd] at hslot
      omega

/-! ### `close`, `alloc_overwrite` and `assign` -/

/-- A descriptor that is taken away, with its reference. -/
structure Removed (t : DescriptorTable) (slot : Slot) (other : HandleId → ℕ) (s : Handles)
    (t' : DescriptorTable) (s' : Handles) : Prop where
  read : t'.read = Function.update t.read slot none
  released : ∀ tagged, t.read slot = some tagged → Released tagged.handle s s'
  unused : t.read slot = none → SameObjects s s'
  refs : RefsOk t' other s'
  counted : s'.heap.pmm.Counted

lemma Released.counted {h : HandleId} {s s' : Handles} (hs : Released h s s')
    (hc : s.heap.pmm.Counted) : s'.heap.pmm.Counted := by
  rw [hs.pmm]
  exact hc

lemma DescriptorTable.closeIfOpen_spec {t : DescriptorTable} {slot : Slot}
    {other : HandleId → ℕ} {s : Handles} (h : RefsOk t other s) (hc : s.heap.pmm.Counted) :
    Ensures (fun _ => False) (fun r => Removed t slot other s r.1 r.2 ∧
      ∀ slot', t.Has slot' → r.1.Has slot') (t.closeIfOpen slot s) := by
  unfold DescriptorTable.closeIfOpen
  cases hread : t.read slot with
  | none =>
    refine ⟨⟨?_, fun tagged ht => ?_, fun _ => .refl hc, h, hc⟩, fun _ h => h⟩
    · rw [← hread, Function.update_eq_self]
    · rw [hread] at ht
      cases ht
  | some tagged =>
    have hopen : (t.read slot).isOpen = true := by
      rw [hread]
      rfl
    have hhas := DescriptorTable.has_of_read hread
    rw [← hread, if_pos hopen]
    refine (closeSlot_spec h hread).bind ?_
    rintro ⟨desc, s'⟩ ⟨hdesc, hreleased, hrefs⟩
    cases hdesc
    refine ⟨⟨DescriptorTable.read_write hhas none, fun tagged' ht => ?_, fun hnone => ?_, hrefs,
      hreleased.counted hc⟩, fun slot' hslot' => ?_⟩
    · rw [hread] at ht
      cases ht
      exact hreleased
    · rw [hread] at hnone
      cases hnone
    · cases slot with
      | direct i => cases slot' <;> exact hslot'
      | indirect i j =>
        obtain ⟨sub, hsub⟩ := Option.isSome_iff_exists.mp hhas
        cases slot' with
        | direct i' => trivial
        | indirect i' j' =>
          by_cases hi : i' = i
          · subst hi
            simp [DescriptorTable.Has, DescriptorTable.write, hsub, DescriptorTable.setSub]
          · simpa [DescriptorTable.Has, DescriptorTable.write, hsub, DescriptorTable.setSub, hi]
              using hslot'

lemma DescriptorTable.close_spec {t : DescriptorTable} {fd : ℤ} {other : HandleId → ℕ}
    {s : Handles} (h : RefsOk t other s) (hc : s.heap.pmm.Counted) :
    Ensures (fun _ => False) (fun r =>
      (∀ slot tagged, slotOf fd = some slot → t.read slot = some tagged →
        r.1 = .ok () ∧ Removed t slot other s r.2.1 r.2.2) ∧
      ((∀ slot, slotOf fd = some slot → t.read slot = none) →
        r = (.error .EBADF, t, s))) (t.close fd s) := by
  unfold DescriptorTable.close
  rw [DescriptorTable.get_eq]
  cases hslot : slotOf fd with
  | none => exact ⟨fun slot tagged hs => (by cases hs), fun _ => rfl⟩
  | some slot =>
    dsimp only
    cases hread : t.read slot with
    | none =>
      refine ⟨fun slot' tagged hs ht => ?_, fun _ => rfl⟩
      cases hs
      rw [hread] at ht
      cases ht
    | some tagged =>
      have hopen : (t.read slot).isOpen = true := by
        rw [hread]
        rfl
      rw [← hread, if_pos hopen]
      have hhas := DescriptorTable.has_of_read hread
      refine (closeSlot_spec h hread).bind ?_
      rintro ⟨desc, s'⟩ ⟨hdesc, hreleased, hrefs⟩
      cases hdesc
      refine ⟨fun slot' tagged' hs ht => ?_, fun hnone => ?_⟩
      · cases hs
        rw [hread] at ht
        cases ht
        refine ⟨rfl, DescriptorTable.read_write hhas none, fun tagged' ht' => ?_, fun hnone => ?_,
          hrefs, hreleased.counted hc⟩
        · rw [hread] at ht'
          cases ht'
          exact hreleased
        · rw [hread] at hnone
          cases hnone
      · have hn := hnone slot rfl
        rw [hread] at hn
        cases hn

/-- What `Descriptor_table::alloc_overwrite` returns and leaves. -/
structure SlotCleared (t : DescriptorTable) (fd : ℤ) (other : HandleId → ℕ) (s : Handles)
    (r : Result Slot × DescriptorTable × Handles) : Prop where
  done : ∀ slot, r.1 = .ok slot → slotOf fd = some slot ∧ r.2.1.Has slot ∧
    ∃ s₁, SameObjects s s₁ ∧ Removed t slot other s₁ r.2.1 r.2.2
  failed : ∀ e, r.1 = .error e → r.2.1 = t ∧ SameObjects s r.2.2 ∧
    (e = .EBADF ∧ slotOf fd = none ∨ e = .ENOMEM ∧ (slotOf fd).isSome ∧
      ∃ heap, kalloc subTableSize s.heap = .ok (none, heap))

lemma DescriptorTable.allocOverwrite_spec {t : DescriptorTable} {fd : ℤ} {other : HandleId → ℕ}
    {s : Handles} (h : RefsOk t other s) (hc : s.heap.pmm.Counted) :
    Ensures (fun _ => False) (SlotCleared t fd other s) (t.allocOverwrite fd s) := by
  unfold DescriptorTable.allocOverwrite
  dsimp only
  split_ifs with hneg hdirect hindirect
  · refine ⟨fun slot hok => (by cases hok), fun e he => ?_⟩
    cases he
    exact ⟨rfl, .refl hc, Or.inl ⟨rfl, if_pos hneg⟩⟩
  · refine (DescriptorTable.closeIfOpen_spec h hc).bind ?_
    rintro ⟨t', s'⟩ ⟨hremoved, -⟩
    refine ⟨fun slot hok => ?_, fun e he => (by cases he)⟩
    cases hok
    refine ⟨?_, trivial, s, .refl hc, hremoved⟩
    rw [slotOf_eq_some]
    simp only [Slot.fd]
    omega
  · have hslot : slotOf fd = some (.indirect ⟨(fd.toNat - 8) / 16, by omega⟩
        ⟨(fd.toNat - 8) % 16, by omega⟩) := by
      rw [slotOf_eq_some]
      simp only [Slot.fd]
      omega
    generalize (⟨(fd.toNat - 8) / 16, by omega⟩ : Fin 4) = i at *
    generalize (⟨(fd.toNat - 8) % 16, by omega⟩ : Fin 16) = j at *
    cases hsub : t.l1 i with
    | some sub =>
      refine (DescriptorTable.closeIfOpen_spec h hc).bind ?_
      rintro ⟨t', s'⟩ ⟨hremoved, hhas⟩
      refine ⟨fun slot hok => ?_, fun e he => (by cases he)⟩
      cases hok
      exact ⟨hslot, hhas _ (by simp [DescriptorTable.Has, hsub]), s, .refl hc, hremoved⟩
    | none =>
      refine (makeSubTable_spec hc).bind ?_
      rintro ⟨_ | sub, s₁⟩ ⟨hsame, hempty, hnone⟩
      · refine ⟨fun slot hok => (by cases hok), fun e he => ?_⟩
        cases he
        exact ⟨rfl, hsame, Or.inr ⟨rfl, by simp [hslot], hnone rfl⟩⟩
      · have hread := DescriptorTable.read_setSub hsub (hempty sub rfl)
        refine (DescriptorTable.closeIfOpen_spec (h.of_same hread hsame)
          hsame.heap.counted).bind ?_
        rintro ⟨t', s'⟩ ⟨hremoved, hhas⟩
        refine ⟨fun slot hok => ?_, fun e he => (by cases he)⟩
        cases hok
        refine ⟨hslot, hhas _ (DescriptorTable.has_setSub sub j), s₁, hsame, ?_⟩
        refine ⟨?_, fun tagged ht => ?_, fun hn => ?_, hremoved.refs, hremoved.counted⟩
        · rw [hremoved.read, hread]
        · exact hremoved.released tagged (by rw [hread]; exact ht)
        · exact hremoved.unused (by rw [hread]; exact hn)
  · refine ⟨fun slot hok => (by cases hok), fun e he => ?_⟩
    cases he
    refine ⟨rfl, .refl hc, Or.inl ⟨rfl, ?_⟩⟩
    unfold slotOf
    rw [if_neg hneg, dif_neg hdirect, dif_neg hindirect]

/-- A descriptor that is added, with its reference. -/
lemma DescriptorTable.assign_spec {t : DescriptorTable} {slot : Slot} {other : HandleId → ℕ}
    {s : Handles} (h : RefsOk t other s) (hhas : t.Has slot) (hread : t.read slot = none)
    (handle : HandleId) (cloexec : Bool) (hlive : s.Live handle) :
    ∃ s', (t.read slot).assign handle cloexec s = .ok (some ⟨handle, cloexec⟩, s') ∧
      s' = s.dup handle ∧ RefsOk (t.write slot (some ⟨handle, cloexec⟩)) other s' ∧
      (t.write slot (some ⟨handle, cloexec⟩)).read =
        Function.update t.read slot (some ⟨handle, cloexec⟩) := by
  refine ⟨s.dup handle, ?_, rfl, ?_, DescriptorTable.read_write hhas _⟩
  · have hnonneg : 0 ≤ s.refCount handle := by
      rw [h.count]
      exact_mod_cast Nat.zero_le _
    unfold Descriptor.assign
    rw [hread]
    simp only [assert, Descriptor.isOpen, Option.isSome_none, Bool.not_false, if_true, ok_bind,
      ge_iff_le, decide_eq_true hnonneg]
  · have huses := DescriptorTable.uses_write hhas (some ⟨handle, cloexec⟩)
    rw [hread] at huses
    simp only [Descriptor.refersTo_none, Bool.false_eq_true, if_false, Descriptor.refersTo_some,
      decide_eq_true_eq, add_zero] at huses
    refine ⟨fun h' => ?_, fun h' hpos => ?_, h.sized⟩
    · rw [huses h']
      by_cases hh : h' = handle
      · subst hh
        simp only [Handles.dup, Handles.setRefCount, Function.update_self, if_true]
        have := h.count h'
        push_cast
        omega
      · simp only [Handles.dup, Handles.setRefCount, Function.update_of_ne hh, Ne.symm hh,
          if_false, add_zero]
        exact h.count h'
    · by_cases hh : h' = handle
      · subst hh
        cases h' <;> exact hlive
      · simp only [Handles.dup, Handles.setRefCount, Function.update_of_ne hh] at hpos
        have := h.live h' hpos
        cases h' <;> exact this

end Fluke
