import Fluke.User.Descriptor.Clone

/-!
# A descriptor table is a map

Seen from outside, a descriptor table is a partial map from the numbers below 72 to objects with
a flag. The operations on the table are the obvious operations on this map.
-/

namespace Fluke

open Outcome

/-- The map that a table stands for -/
def DescriptorTable.toMap (t : DescriptorTable) (fd : ℤ) : Descriptor := (slotOf fd).bind t.read

/-- Every number a table has room for is used. -/
def DescriptorTable.Full (t : DescriptorTable) : Prop :=
  ∀ fd : ℤ, 0 ≤ fd → fd < 72 → t.toMap fd ≠ none

section

variable {t t' : DescriptorTable} {fd : ℤ} {slot : Slot}

lemma DescriptorTable.toMap_of_slot (h : slotOf fd = some slot) : t.toMap fd = t.read slot := by
  rw [DescriptorTable.toMap, h]
  rfl

lemma DescriptorTable.toMap_of_none (h : slotOf fd = none) : t.toMap fd = none := by
  rw [DescriptorTable.toMap, h]
  rfl

lemma DescriptorTable.toMap_congr (h : t'.read = t.read) : t'.toMap = t.toMap := by
  funext fd
  rw [DescriptorTable.toMap, DescriptorTable.toMap, h]

/-- Changing a slot changes the map at the slot's number. -/
lemma DescriptorTable.toMap_update {desc : Descriptor} (hslot : slotOf fd = some slot)
    (h : t'.read = Function.update t.read slot desc) :
    t'.toMap = Function.update t.toMap fd desc := by
  funext fd'
  by_cases hfd : fd' = fd
  · subst hfd
    rw [Function.update_self, DescriptorTable.toMap_of_slot hslot, h, Function.update_self]
  · rw [Function.update_of_ne hfd]
    cases hslot' : slotOf fd' with
    | none => rw [DescriptorTable.toMap_of_none hslot', DescriptorTable.toMap_of_none hslot']
    | some slot' =>
      rw [DescriptorTable.toMap_of_slot hslot', DescriptorTable.toMap_of_slot hslot', h,
        Function.update_of_ne]
      rintro rfl
      rw [slotOf_eq_some] at hslot hslot'
      exact hfd (hslot'.symm.trans hslot)

/-- The numbers below 72 are those of the slots. -/
lemma slotOf_isSome (h0 : 0 ≤ fd) (h : fd < 72) : ∃ slot, slotOf fd = some slot := by
  unfold slotOf
  split_ifs with hneg hdirect hindirect
  · omega
  · exact ⟨_, rfl⟩
  · exact ⟨_, rfl⟩
  · omega

lemma DescriptorTable.full_iff : t.Full ↔ ∀ slot, t.read slot ≠ none := by
  constructor
  · intro h slot
    have hlt := slot.fd_lt
    have hfull := h slot.fd (by omega) (by omega)
    rwa [DescriptorTable.toMap_of_slot (slotOf_fd slot)] at hfull
  · intro h fd h0 hlt
    obtain ⟨slot, hslot⟩ := slotOf_isSome h0 hlt
    rw [DescriptorTable.toMap_of_slot hslot]
    exact h slot

end

/-- `assign` on the slot of `fd` adds `fd` to the map. -/
def AssignAdds (t : DescriptorTable) (fd : ℤ) (slot : Slot) (s : Handles) : Prop :=
  ∀ handle cloexec, ∃ desc s', (t.read slot).assign handle cloexec s = .ok (desc, s') ∧
    (t.write slot desc).toMap = Function.update t.toMap fd (some ⟨handle, cloexec⟩)

lemma assignAdds {t : DescriptorTable} {fd : ℤ} {slot : Slot} {s : Handles}
    (hslot : slotOf fd = some slot) (hhas : t.Has slot) (hread : t.read slot = none)
    (hs : ∀ h, 0 ≤ s.refCount h) : AssignAdds t fd slot s := by
  intro handle cloexec
  refine ⟨some ⟨handle, cloexec⟩, s.dup handle, ?_, ?_⟩
  · unfold Descriptor.assign
    rw [hread]
    simp only [assert, Descriptor.isOpen, Option.isSome_none, Bool.not_false, if_true, ok_bind,
      ge_iff_le, decide_eq_true (hs handle)]
  · exact DescriptorTable.toMap_update hslot (DescriptorTable.read_write hhas _)

/-- `alloc`, on the map: the least number that is not used. -/
structure AllocMap (t : DescriptorTable) (s : Handles)
    (r : Result (ℕ × Slot) × DescriptorTable × Handles) : Prop where
  map : r.2.1.toMap = t.toMap
  done : ∀ fd slot, r.1 = .ok (fd, slot) → slotOf fd = some slot ∧ t.toMap fd = none ∧
    (∀ fd' : ℤ, 0 ≤ fd' → fd' < fd → t.toMap fd' ≠ none) ∧ AssignAdds r.2.1 fd slot r.2.2
  full : r.1 = .error .EMFILE ↔ t.Full
  failed : ∀ e, r.1 = .error e → e = .EMFILE ∨
    (e = .ENOMEM ∧ ∃ i heap, t.l1 i = none ∧ kalloc subTableSize s.heap = .ok (none, heap))

/-- `alloc_overwrite`, on the map: `fd` is removed. -/
structure AllocOverwriteMap (t : DescriptorTable) (fd : ℤ) (s : Handles)
    (r : Result Slot × DescriptorTable × Handles) : Prop where
  done : ∀ slot, r.1 = .ok slot → slotOf fd = some slot ∧
    r.2.1.toMap = Function.update t.toMap fd none ∧ AssignAdds r.2.1 fd slot r.2.2
  failed : ∀ e, r.1 = .error e → r.2.1.toMap = t.toMap ∧
    (e = .EBADF ∧ slotOf fd = none ∨
      e = .ENOMEM ∧ ∃ heap, kalloc subTableSize s.heap = .ok (none, heap))

/-- `close`, on the map -/
structure CloseMap (t : DescriptorTable) (fd : ℤ) (s : Handles)
    (r : Result Unit × DescriptorTable × Handles) : Prop where
  done : t.toMap fd ≠ none → r.1 = .ok () ∧ r.2.1.toMap = Function.update t.toMap fd none
  failed : t.toMap fd = none → r = (.error .EBADF, t, s)

/-- `clone` into an empty table, on the map -/
structure CloneMap (t : DescriptorTable) (r : Result Unit × DescriptorTable × Handles) : Prop where
  done : r.1 = .ok () → r.2.1.toMap = t.toMap
  failed : ∀ e, r.1 = .error e → SubTableFails t e r.2.2.heap

/-- `cloexec`, on the map: the numbers whose flag is set are removed. -/
def CloexecMap (t : DescriptorTable) (r : DescriptorTable × Handles) : Prop :=
  ∀ fd, r.1.toMap fd = if (t.toMap fd).isCloexec then none else t.toMap fd

lemma RefsOk.nonneg {t : DescriptorTable} {other : HandleId → ℕ} {s : Handles}
    (h : RefsOk t other s) (handle : HandleId) : 0 ≤ s.refCount handle := by
  rw [h.count]
  omega

lemma SlotAllocated.map {t : DescriptorTable} {other : HandleId → ℕ} {s : Handles}
    (hrefs : RefsOk t other s) {r : Result (ℕ × Slot) × DescriptorTable × Handles}
    (h : SlotAllocated t s r) : AllocMap t s r := by
  have hnonneg : ∀ handle, 0 ≤ r.2.2.refCount handle := by
    rw [h.same.refCount]
    exact hrefs.nonneg
  refine ⟨DescriptorTable.toMap_congr h.read, fun fd slot hok => ?_,
    ⟨fun he => ?_, fun hfull => ?_⟩, fun e he => ?_⟩
  · obtain ⟨hfd, hfree, hhas, hbelow⟩ := h.done fd slot hok
    have hslot : slotOf fd = some slot := slotOf_eq_some.mpr (by rw [hfd])
    refine ⟨hslot, (DescriptorTable.toMap_of_slot hslot).trans hfree, fun fd' h0 hlt => ?_,
      assignAdds hslot hhas (by rw [h.read]; exact hfree) hnonneg⟩
    have hlt72 := slot.fd_lt
    obtain ⟨slot', hslot'⟩ := slotOf_isSome h0 (by omega)
    rw [DescriptorTable.toMap_of_slot hslot']
    refine hbelow slot' ?_
    have := slotOf_eq_some.mp hslot'
    omega
  · rcases h.failed _ he with ⟨-, hfull⟩ | ⟨hne, -⟩
    · exact DescriptorTable.full_iff.mpr hfull
    · cases hne
  · rw [DescriptorTable.full_iff] at hfull
    cases hr : r.1 with
    | ok p => exact absurd (h.done p.1 p.2 hr).2.1 (hfull p.2)
    | error e =>
      rcases h.failed e hr with ⟨rfl, -⟩ | ⟨-, i, heap, hi, -⟩
      · rfl
      · refine absurd ?_ (hfull (.indirect i 0))
        rw [DescriptorTable.read_indirect, hi]
        rfl
  · rcases h.failed e he with ⟨rfl, -⟩ | hnomem
    · exact Or.inl rfl
    · exact Or.inr hnomem

lemma SlotCleared.map {t : DescriptorTable} {fd : ℤ} {other : HandleId → ℕ} {s : Handles}
    {r : Result Slot × DescriptorTable × Handles} (h : SlotCleared t fd other s r) :
    AllocOverwriteMap t fd s r := by
  refine ⟨fun slot hok => ?_, fun e he => ?_⟩
  · obtain ⟨hslot, hhas, s₁, -, hremoved⟩ := h.done slot hok
    refine ⟨hslot, DescriptorTable.toMap_update hslot hremoved.read,
      assignAdds hslot hhas ?_ hremoved.refs.nonneg⟩
    rw [hremoved.read, Function.update_self]
  · obtain ⟨ht, -, hwhy⟩ := h.failed e he
    refine ⟨by rw [ht], hwhy.imp_right fun hnomem => ⟨hnomem.1, hnomem.2.2⟩⟩

/-- A descriptor table is a partial map, and its operations are those of a map. -/
theorem DescriptorTable.refines_map {t : DescriptorTable} {other : HandleId → ℕ} {s : Handles}
    (hrefs : RefsOk t other s) (hc : s.heap.pmm.Counted) :
    (∀ fd, t.get fd = match slotOf fd with
      | some slot => if t.toMap fd = none then .error .EBADF else .ok slot
      | none => .error .EBADF) ∧
    Ensures (fun _ => False) (AllocMap t s) (t.alloc s) ∧
    (∀ fd, Ensures (fun _ => False) (AllocOverwriteMap t fd s) (t.allocOverwrite fd s)) ∧
    (∀ fd, Ensures (fun _ => False) (CloseMap t fd s) (t.close fd s)) ∧
    Ensures (fun _ => False) (CloneMap t) (t.clone .empty s) ∧
    Ensures (fun _ => False) (CloexecMap t) (t.cloexec s) := by
  refine ⟨fun fd => ?_, (t.alloc_spec hc).imp fun r h => h.map hrefs, fun fd => ?_, fun fd => ?_,
    (t.clone_spec hrefs.nonneg hc).imp fun r h => ?_, (DescriptorTable.cloexec_spec hrefs).imp ?_⟩
  · rw [DescriptorTable.get_eq]
    cases hslot : slotOf fd with
    | none => rfl
    | some slot =>
      rw [DescriptorTable.toMap_of_slot hslot]
      cases hread : t.read slot <;> simp [Descriptor.isOpen, hread]
  · exact (DescriptorTable.allocOverwrite_spec hrefs hc).imp fun r h => h.map
  · refine (DescriptorTable.close_spec hrefs hc).imp fun r h => ⟨fun hused => ?_, fun hfree => ?_⟩
    · cases hslot : slotOf fd with
      | none => exact absurd (DescriptorTable.toMap_of_none hslot) hused
      | some slot =>
        rw [DescriptorTable.toMap_of_slot hslot] at hused
        obtain ⟨tagged, htagged⟩ := Option.ne_none_iff_exists'.mp hused
        obtain ⟨hok, hremoved⟩ := h.1 slot tagged hslot htagged
        exact ⟨hok, DescriptorTable.toMap_update hslot hremoved.read⟩
    · refine h.2 fun slot hslot => ?_
      rwa [DescriptorTable.toMap_of_slot hslot] at hfree
  · exact ⟨fun hok => DescriptorTable.toMap_congr (h.done hok), h.failed⟩
  · rintro r h fd
    cases hslot : slotOf fd with
    | none =>
      rw [DescriptorTable.toMap_of_none hslot, DescriptorTable.toMap_of_none hslot]
      rfl
    | some slot =>
      rw [DescriptorTable.toMap_of_slot hslot, DescriptorTable.toMap_of_slot hslot, h.read]
      simp [cloexecRead, mem_descriptorSlots]

/-- Two interrupts, of which the second has two descriptors, one of them in a sub-table. The
descriptor of the first interrupt and the one in the sub-table are marked. -/
def fewDescriptors : DescriptorTable where
  l0 i :=
    if i.val = 0 then some ⟨.irq ⟨3, by decide⟩, true⟩
    else if i.val = 2 then some ⟨.irq ⟨5, by decide⟩, false⟩
    else none
  l1 i :=
    if i.val = 0 then
      some ⟨⟨Frame.offset 0x90000 0, 0⟩, fun j =>
        if j.val = 12 then some ⟨.irq ⟨5, by decide⟩, true⟩ else none⟩
    else none

/-- The interrupts are claimed, and there are two pages. -/
def twoInterrupts : Handles where
  heap := ⟨⟨fun _ _ => 0, [Frame.offset 0x91000 0, Frame.offset 0x92000 0], 2, 2⟩, fun _ => [],
    fun _ => ⟨0, 0⟩⟩
  refCount h :=
    if h = .irq ⟨3, by decide⟩ then 1 else if h = .irq ⟨5, by decide⟩ then 2 else 0
  isClaimed n := n.val = 3 ∨ n.val = 5
  ipcs := fun _ => none
  modules := fun _ => none
  closes := []

lemma fewDescriptors_read {slot : Slot} {tagged : TaggedHandle}
    (h : fewDescriptors.read slot = some tagged) : ∃ n, tagged.handle = .irq n := by
  cases slot with
  | direct i =>
    change fewDescriptors.l0 i = some tagged at h
    unfold fewDescriptors at h
    dsimp only at h
    split_ifs at h <;> cases h <;> exact ⟨_, rfl⟩
  | indirect i j =>
    rw [DescriptorTable.read_indirect, fewDescriptors] at h
    dsimp only at h
    split_ifs at h
    · rw [Option.map_some, Option.elim_some] at h
      dsimp only at h
      split_ifs at h
      cases h
      exact ⟨_, rfl⟩
    · cases h

lemma fewDescriptors_refsOk : RefsOk fewDescriptors (fun _ => 0) twoInterrupts := by
  have hother : ∀ h, (∀ n, h ≠ .irq n) → fewDescriptors.uses h = 0 := by
    intro h hirq
    refine List.countP_eq_zero.mpr fun slot _ => ?_
    cases hread : fewDescriptors.read slot with
    | none => simp
    | some tagged =>
      obtain ⟨n, hn⟩ := fewDescriptors_read hread
      simp [hn, Ne.symm (hirq n)]
  refine ⟨fun h => ?_, fun h hpos => ?_, fun n ipc h => (by cases h)⟩
  · cases h with
    | irq n =>
      revert n
      decide +kernel
    | ipc n =>
      rw [hother _ fun _ => by simp]
      simp [twoInterrupts]
    | module n =>
      rw [hother _ fun _ => by simp]
      simp [twoInterrupts]
  · cases h with
    | irq n => trivial
    | ipc n => simp [twoInterrupts] at hpos
    | module n => simp [twoInterrupts] at hpos

/-- The operations on this table. The least number that is free is 1, and there is memory for a
copy. -/
theorem DescriptorTable.refines_map_few :
    ((fewDescriptors.alloc twoInterrupts).toOption.map fun r => r.1.toOption.map Prod.fst) =
      some (some 1) ∧
    ((fewDescriptors.clone .empty twoInterrupts).toOption.map fun r => r.1.toOption) =
      some (some ()) ∧
    (∀ fd, fewDescriptors.get fd = match slotOf fd with
      | some slot => if fewDescriptors.toMap fd = none then .error .EBADF else .ok slot
      | none => .error .EBADF) ∧
    Ensures (fun _ => False) (AllocMap fewDescriptors twoInterrupts)
      (fewDescriptors.alloc twoInterrupts) ∧
    (∀ fd, Ensures (fun _ => False) (AllocOverwriteMap fewDescriptors fd twoInterrupts)
      (fewDescriptors.allocOverwrite fd twoInterrupts)) ∧
    (∀ fd, Ensures (fun _ => False) (CloseMap fewDescriptors fd twoInterrupts)
      (fewDescriptors.close fd twoInterrupts)) ∧
    Ensures (fun _ => False) (CloneMap fewDescriptors)
      (fewDescriptors.clone .empty twoInterrupts) ∧
    Ensures (fun _ => False) (CloexecMap fewDescriptors)
      (fewDescriptors.cloexec twoInterrupts) :=
  ⟨by decide +kernel, by decide +kernel, DescriptorTable.refines_map fewDescriptors_refsOk rfl⟩

end Fluke
