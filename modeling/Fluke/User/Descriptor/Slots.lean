import Fluke.User.Descriptor

/-!
# The slots of a descriptor table

The 72 slots stand for the numbers from 0 on. Three pieces of arithmetic find the slot of a
number; `slotOf` is what they have in common. The references of a table to an object are counted
over its slots.
-/

namespace Fluke

open Outcome

/-- The number of a slot -/
def Slot.fd : Slot → ℕ
  | .direct i => i.val
  | .indirect i j => 8 + 16 * i.val + j.val

lemma indirect_table_lt {fd : ℤ} (h : fd.toNat - 8 < 64) : (fd.toNat - 8) / 16 < 4 := by omega

lemma indirect_index_lt (fd : ℤ) : (fd.toNat - 8) % 16 < 16 := by omega

/-- The slot of a number -/
def slotOf (fd : ℤ) : Option Slot :=
  if fd < 0 then none
  else if h : fd.toNat < 8 then some (.direct ⟨fd.toNat, h⟩)
  else if h' : fd.toNat - 8 < 64 then
    some (.indirect ⟨(fd.toNat - 8) / 16, indirect_table_lt h'⟩
      ⟨(fd.toNat - 8) % 16, indirect_index_lt fd⟩)
  else none

lemma slotOf_eq_some {fd : ℤ} {slot : Slot} : slotOf fd = some slot ↔ (slot.fd : ℤ) = fd := by
  unfold slotOf
  cases slot with
  | direct i =>
    simp only [Slot.fd]
    split_ifs with hneg hdirect hindirect
    · simp only [false_iff]
      omega
    · simp only [Option.some.injEq, Slot.direct.injEq, Fin.ext_iff]
      omega
    · simp only [Option.some.injEq, reduceCtorEq, false_iff]
      omega
    · simp only [false_iff]
      omega
  | indirect i j =>
    simp only [Slot.fd]
    split_ifs with hneg hdirect hindirect
    · simp only [false_iff]
      omega
    · simp only [Option.some.injEq, reduceCtorEq, false_iff]
      omega
    · simp only [Option.some.injEq, Slot.indirect.injEq, Fin.ext_iff]
      omega
    · simp only [false_iff]
      omega

lemma slotOf_fd (slot : Slot) : slotOf slot.fd = some slot := slotOf_eq_some.mpr rfl

lemma Slot.fd_lt (slot : Slot) : slot.fd < 72 := by
  cases slot with
  | direct i => exact lt_trans i.isLt (by decide)
  | indirect i j =>
    simp only [Slot.fd]
    omega

lemma mem_descriptorSlots (slot : Slot) : slot ∈ descriptorSlots := by
  unfold descriptorSlots
  cases slot with
  | direct i => simp
  | indirect i j => simp

lemma nodup_descriptorSlots : descriptorSlots.Nodup := by decide

/-- The sub-table of the slot is there. -/
def DescriptorTable.Has (t : DescriptorTable) : Slot → Prop
  | .direct _ => True
  | .indirect i _ => (t.l1 i).isSome

section

variable {t : DescriptorTable} {slot : Slot} {i : Fin 4}

lemma DescriptorTable.read_write (h : t.Has slot) (desc : Descriptor) :
    (t.write slot desc).read = Function.update t.read slot desc := by
  funext slot'
  cases slot with
  | direct i =>
    cases slot' with
    | direct i' =>
      by_cases hi : i' = i
      · subst hi
        simp [DescriptorTable.write, DescriptorTable.read]
      · simp [DescriptorTable.write, DescriptorTable.read, hi]
    | indirect i' j' => simp [DescriptorTable.write, DescriptorTable.read]
  | indirect i j =>
    obtain ⟨sub, hsub⟩ := Option.isSome_iff_exists.mp h
    cases slot' with
    | direct i' => simp [DescriptorTable.write, DescriptorTable.read, hsub, DescriptorTable.setSub]
    | indirect i' j' =>
      by_cases hi : i' = i
      · subst hi
        by_cases hj : j' = j
        · subst hj
          simp [DescriptorTable.write, DescriptorTable.read, hsub, DescriptorTable.setSub]
        · simp [DescriptorTable.write, DescriptorTable.read, hsub, DescriptorTable.setSub, hj]
      · simp [DescriptorTable.write, DescriptorTable.read, hsub, DescriptorTable.setSub, hi]

lemma DescriptorTable.has_of_read {tagged : TaggedHandle} (h : t.read slot = some tagged) :
    t.Has slot := by
  cases slot with
  | direct i => trivial
  | indirect i j =>
    unfold DescriptorTable.read at h
    cases hsub : t.l1 i with
    | none => simp [hsub] at h
    | some sub => simp [DescriptorTable.Has, hsub]

/-- A new sub-table without descriptors changes nothing that can be read. -/
lemma DescriptorTable.read_setSub (h : t.l1 i = none) {sub : SubTable}
    (hsub : sub.entries = fun _ => none) : (t.setSub i (some sub)).read = t.read := by
  funext slot
  cases slot with
  | direct i' => rfl
  | indirect i' j =>
    by_cases hi : i' = i
    · subst hi
      simp [DescriptorTable.read, DescriptorTable.setSub, h, hsub]
    · simp [DescriptorTable.read, DescriptorTable.setSub, hi]

lemma DescriptorTable.has_setSub (sub : SubTable) (j : Fin 16) :
    (t.setSub i (some sub)).Has (.indirect i j) := by
  simp [DescriptorTable.Has, DescriptorTable.setSub]

end

/-! ### References -/

/-- Change one value of a function: how many elements of a list have a property then. -/
lemma countP_update {α β : Type} [DecidableEq α] (f : α → β) (p : β → Bool) (a : α) (b : β)
    {l : List α} (hl : l.Nodup) (ha : a ∈ l) :
    l.countP (fun x => p (Function.update f a b x)) + (if p (f a) then 1 else 0) =
      l.countP (fun x => p (f x)) + if p b then 1 else 0 := by
  have hsame : ∀ l : List α, a ∉ l →
      l.countP (fun x => p (Function.update f a b x)) = l.countP fun x => p (f x) := by
    intro l hl
    refine List.countP_congr fun x hx => ?_
    rw [Function.update_of_ne (ne_of_mem_of_not_mem hx hl)]
  induction l with
  | nil => cases ha
  | cons x l ih =>
    rw [List.nodup_cons] at hl
    rw [List.countP_cons, List.countP_cons]
    rcases List.mem_cons.mp ha with rfl | hmem
    · rw [Function.update_self, hsame l hl.1]
      omega
    · have hne : x ≠ a := fun heq => hl.1 (heq ▸ hmem)
      rw [Function.update_of_ne hne]
      have := ih hl.2 hmem
      omega

/-- The descriptor refers to the object. -/
def Descriptor.refersTo (desc : Descriptor) (h : HandleId) : Bool :=
  match desc with
  | none => false
  | some tagged => tagged.handle = h

@[simp] lemma Descriptor.refersTo_none (h : HandleId) : Descriptor.refersTo none h = false := rfl

@[simp] lemma Descriptor.refersTo_some (tagged : TaggedHandle) (h : HandleId) :
    Descriptor.refersTo (some tagged) h = decide (tagged.handle = h) := rfl

/-- How many descriptors of a table refer to the object -/
def DescriptorTable.uses (t : DescriptorTable) (h : HandleId) : ℕ :=
  descriptorSlots.countP fun slot => (t.read slot).refersTo h

lemma DescriptorTable.uses_congr {t t' : DescriptorTable} (h : t'.read = t.read) :
    t'.uses = t.uses := by
  funext handle
  rw [DescriptorTable.uses, DescriptorTable.uses, h]

lemma DescriptorTable.uses_write {t : DescriptorTable} {slot : Slot} (h : t.Has slot)
    (desc : Descriptor) (handle : HandleId) :
    (t.write slot desc).uses handle + (if (t.read slot).refersTo handle then 1 else 0) =
      t.uses handle + if desc.refersTo handle then 1 else 0 := by
  rw [DescriptorTable.uses, DescriptorTable.uses, DescriptorTable.read_write h]
  exact countP_update t.read (fun d => d.refersTo handle) slot desc nodup_descriptorSlots
    (mem_descriptorSlots slot)

/-- The reference counts are those of the descriptors of `t` and `other` further ones, and an
object that is referred to is live. -/
structure RefsOk (t : DescriptorTable) (other : HandleId → ℕ) (s : Handles) : Prop where
  count : ∀ h, s.refCount h = t.uses h + other h
  live : ∀ h, 0 < s.refCount h → s.Live h
  sized : s.Sized

/-- What `release` does: the count goes down, and the last reference closes the object. -/
structure Released (h : HandleId) (s s' : Handles) : Prop where
  refCount : s'.refCount = Function.update s.refCount h (s.refCount h - 1)
  closes : s'.closes = if s.refCount h = 1 then h :: s.closes else s.closes
  live : ∀ h', (h' ≠ h ∨ s.refCount h ≠ 1) → (s'.Live h' ↔ s.Live h')
  claimed : ∀ n, s'.isClaimed n =
    if h = .irq n ∧ s.refCount h = 1 then false else s.isClaimed n
  pmm : s'.heap.pmm = s.heap.pmm
  sized : s'.Sized

lemma Handles.release_spec {s : Handles} {h : HandleId} (hpos : 0 < s.refCount h)
    (hlive : s.Live h) (hsized : s.Sized) :
    Ensures (fun _ => False) (Released h s) (s.release h) := by
  unfold Handles.release
  have hassert : assert (s.refCount h > 0) .refCountPositive = .ok () :=
    assert_eq_ok.mpr (decide_eq_true hpos)
  rw [hassert, ok_bind]
  have hcount : (s.setRefCount h (s.refCount h - 1)).refCount h = s.refCount h - 1 := by
    simp [Handles.setRefCount]
  dsimp only
  rw [hcount]
  split_ifs with hlast
  · have hone : s.refCount h = 1 := by omega
    have hlive' : (s.setRefCount h (s.refCount h - 1)).Live h := by cases h <;> exact hlive
    refine (Handles.close_spec hlive' hsized).imp ?_
    rintro s' ⟨hclosed, hsized'⟩
    refine ⟨hclosed.refCount, by rw [hclosed.closes, if_pos hone]; rfl, fun h' hh' => ?_,
      fun n => ?_, hclosed.pmm, hsized'⟩
    · rw [hclosed.live h' (hh'.resolve_right fun hne => hne hone)]
      cases h' <;> exact Iff.rfl
    · rw [hclosed.claimed n]
      simp only [hone, and_true]
      rfl
  · have hone : s.refCount h ≠ 1 := by omega
    refine ⟨rfl, by rw [if_neg hone]; rfl, fun h' _ => by cases h' <;> exact Iff.rfl, fun n => ?_,
      rfl, hsized⟩
    rw [if_neg fun hand => hone hand.2]
    rfl

/-- Closing a descriptor gives its reference back. -/
lemma closeSlot_spec {t : DescriptorTable} {slot : Slot} {other : HandleId → ℕ} {s : Handles}
    {tagged : TaggedHandle} (h : RefsOk t other s) (hread : t.read slot = some tagged) :
    Ensures (fun _ => False)
      (fun r => r.1 = none ∧ Released tagged.handle s r.2 ∧ RefsOk (t.write slot none) other r.2)
      ((t.read slot).close s) := by
  have hhas := DescriptorTable.has_of_read hread
  have huses := DescriptorTable.uses_write hhas none
  rw [hread] at huses ⊢
  have hone := huses tagged.handle
  simp only [Descriptor.refersTo_some, decide_true, if_true, Descriptor.refersTo_none,
    Bool.false_eq_true, if_false] at hone
  have hcount := h.count tagged.handle
  have hpos : 0 < s.refCount tagged.handle := by omega
  unfold Descriptor.close
  refine (Handles.release_spec hpos (h.live _ hpos) h.sized).bind fun s' hs' => ?_
  refine ⟨rfl, hs', fun handle => ?_, fun handle hlt => ?_, hs'.sized⟩
  · rw [hs'.refCount]
    by_cases hh : handle = tagged.handle
    · subst hh
      rw [Function.update_self]
      omega
    · have := huses handle
      simp only [Descriptor.refersTo_some, Ne.symm hh, decide_false, Descriptor.refersTo_none,
        Bool.false_eq_true, if_false] at this
      rw [Function.update_of_ne hh, h.count handle]
      omega
  · rw [hs'.refCount] at hlt
    by_cases hh : handle = tagged.handle
    · subst hh
      rw [Function.update_self] at hlt
      rw [hs'.live _ (Or.inr (by omega))]
      exact h.live _ hpos
    · rw [Function.update_of_ne hh] at hlt
      rw [hs'.live _ (Or.inl hh)]
      exact h.live _ hlt

end Fluke
