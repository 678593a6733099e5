import Fluke.Mem.HeapSpent
import Fluke.User.Descriptor.Map

/-!
# References that go

A reference that is given up may close its object. Closing descriptors, `cloexec` and the
destruction of a whole table give up several, and close the objects whose last one was among them.
-/

namespace Fluke

open Outcome

section

variable {s s' s'' : Handles} {h : HandleId}

/-- References have gone, and objects with them. -/
structure Dropped (s s' : Handles) : Prop where
  le : ∀ h, s'.refCount h ≤ s.refCount h
  nonneg : ∀ h, 0 ≤ s'.refCount h
  closes : ∃ closed, s'.closes = closed ++ s.closes ∧ closed.Nodup ∧
    ∀ h, h ∈ closed ↔ 0 < s.refCount h ∧ s'.refCount h = 0
  claimed : ∀ n, s'.isClaimed n =
    if 0 < s.refCount (.irq n) ∧ s'.refCount (.irq n) = 0 then false else s.isClaimed n
  modules : ∀ n, (s'.modules n).isSome ↔ (s.modules n).isSome ∧
    ¬ (0 < s.refCount (.module n) ∧ s'.refCount (.module n) = 0)
  ipcs : ∀ n, s.ipcs n = none → s'.ipcs n = none
  pmm : s'.heap.pmm = s.heap.pmm
  kept : (∀ h, 0 < s.refCount h → 0 < s'.refCount h) →
    s' = { s with heap := s'.heap, refCount := s'.refCount }

lemma Dropped.refl (hnonneg : ∀ h, 0 ≤ s.refCount h) : Dropped s s where
  le _ := le_rfl
  nonneg := hnonneg
  closes := ⟨[], rfl, List.nodup_nil, fun h => by simp; omega⟩
  claimed n := by rw [if_neg (by omega)]
  modules n := by
    have : ¬ (0 < s.refCount (.module n) ∧ s.refCount (.module n) = 0) := by omega
    simp [this]
  ipcs _ hn := hn
  pmm := rfl
  kept _ := rfl

lemma Dropped.trans (h : Dropped s s') (h' : Dropped s' s'') : Dropped s s'' where
  le g := (h'.le g).trans (h.le g)
  nonneg := h'.nonneg
  closes := by
    obtain ⟨closed, heq, hnodup, hmem⟩ := h.closes
    obtain ⟨closed', heq', hnodup', hmem'⟩ := h'.closes
    refine ⟨closed' ++ closed, by rw [heq', heq, List.append_assoc], ?_, fun g => ?_⟩
    · refine List.nodup_append.mpr ⟨hnodup', hnodup, ?_⟩
      rintro a ha b hb rfl
      have := (hmem' a).mp ha
      have := (hmem a).mp hb
      omega
    · rw [List.mem_append, hmem', hmem]
      have := h.le g
      have := h.nonneg g
      have := h'.le g
      have := h'.nonneg g
      omega
  claimed n := by
    have := h.le (.irq n)
    have := h.nonneg (.irq n)
    have := h'.le (.irq n)
    have := h'.nonneg (.irq n)
    rw [h'.claimed, h.claimed]
    split_ifs <;> first | rfl | omega
  modules n := by
    have := h.le (.module n)
    have := h.nonneg (.module n)
    have := h'.le (.module n)
    have := h'.nonneg (.module n)
    rw [h'.modules, h.modules, and_assoc]
    refine and_congr_right fun _ => ?_
    omega
  ipcs n hn := h'.ipcs n (h.ipcs n hn)
  pmm := h'.pmm.trans h.pmm
  kept hpos := by
    have heq := h.kept fun g hg => (hpos g hg).trans_le (h'.le g)
    have heq' := h'.kept fun g hg => hpos g (hg.trans_le (h.le g))
    rw [heq] at heq'
    exact heq'

lemma Handles.release_kept (hs : s.release h = .ok s') :
    (∀ n, s'.modules n = if h = .module n ∧ s.refCount h = 1 then none else s.modules n) ∧
      (∀ n, s.ipcs n = none → s'.ipcs n = none) ∧
      (s.refCount h ≠ 1 → s' = s.setRefCount h (s.refCount h - 1)) := by
  unfold Handles.release at hs
  obtain ⟨_, -, hs⟩ := bind_eq_ok.mp hs
  dsimp only at hs
  have hcount : (s.setRefCount h (s.refCount h - 1)).refCount h = s.refCount h - 1 := by
    simp [Handles.setRefCount]
  rw [hcount] at hs
  split_ifs at hs with hlast
  · have hone : s.refCount h = 1 := by omega
    rw [hone]
    unfold Handles.close Handles.closeObject at hs
    cases h with
    | irq m =>
      cases hs
      exact ⟨fun n => by simp [Handles.setRefCount], fun n hn => hn, fun hne => absurd rfl hne⟩
    | ipc m =>
      dsimp only at hs
      cases hm : (s.setRefCount (.ipc m) (s.refCount (.ipc m) - 1)).ipcs m with
      | none =>
        rw [hm] at hs
        cases hs
      | some ipc =>
        have hne : ∀ n, s.ipcs n = none → n ≠ m := by
          rintro n hn rfl
          have : s.ipcs n = some ipc := hm
          rw [hn] at this
          cases this
        rw [hm] at hs
        dsimp only at hs
        split_ifs at hs
        · obtain ⟨heap, -, hs⟩ := bind_eq_ok.mp hs
          cases hs
          refine ⟨fun n => by simp [Handles.setRefCount], fun n hn => ?_, fun hne => absurd rfl hne⟩
          change Function.update s.ipcs m none n = none
          rw [Function.update_of_ne (hne n hn), hn]
        · cases hs
          refine ⟨fun n => by simp [Handles.setRefCount], fun n hn => ?_, fun hne => absurd rfl hne⟩
          change Function.update s.ipcs m _ n = none
          rw [Function.update_of_ne (hne n hn), hn]
    | module m =>
      dsimp only at hs
      cases hm : (s.setRefCount (.module m) (s.refCount (.module m) - 1)).modules m with
      | none =>
        rw [hm] at hs
        cases hs
      | some block =>
        rw [hm] at hs
        obtain ⟨heap, -, hs⟩ := bind_eq_ok.mp hs
        cases hs
        refine ⟨fun n => ?_, fun n hn => hn, fun hne => absurd rfl hne⟩
        by_cases hn : m = n
        · simp [hn]
        · simp [hn, Ne.symm hn, Handles.setRefCount]
  · cases hs
    have hone : s.refCount h ≠ 1 := by omega
    exact ⟨fun n => by simp [Handles.setRefCount, hone], fun n hn => hn, fun _ => rfl⟩

/-- The block of a sub-table goes back. -/
lemma Dropped.setHeap (h : Dropped s s') {heap : Heap} (hpmm : heap.pmm = s'.heap.pmm) :
    Dropped s { s' with heap := heap } := by
  refine ⟨h.le, h.nonneg, h.closes, h.claimed, h.modules, h.ipcs, hpmm.trans h.pmm, fun hpos => ?_⟩
  have heq := h.kept hpos
  exact congrArg (fun s : Handles => { s with heap := heap }) heq

/-- A reference has gone. -/
lemma Released.dropped (hreleased : Released h s s') (hs : s.release h = .ok s')
    (hpos : 0 < s.refCount h) (hnonneg : ∀ h, 0 ≤ s.refCount h) : Dropped s s' := by
  obtain ⟨hmodules, hipcs, hsame⟩ := Handles.release_kept hs
  have hcount : ∀ g, s'.refCount g = if g = h then s.refCount h - 1 else s.refCount g := by
    intro g
    rw [hreleased.refCount, Function.update_apply]
  have hlast : ∀ g, 0 < s.refCount g ∧ s'.refCount g = 0 ↔ h = g ∧ s.refCount h = 1 := by
    intro g
    rw [hcount]
    by_cases hg : g = h
    · subst hg
      simp only [if_true, true_and]
      omega
    · rw [if_neg hg]
      simp only [Ne.symm hg, false_and, iff_false]
      omega
  refine ⟨fun g => ?_, fun g => ?_, ?_, fun n => ?_, fun n => ?_, hipcs, hreleased.pmm,
    fun hkept => ?_⟩
  · rw [hcount]
    split_ifs with hg
    · rw [hg]
      omega
    · exact le_rfl
  · rw [hcount]
    split_ifs
    · omega
    · exact hnonneg g
  · by_cases hone : s.refCount h = 1
    · refine ⟨[h], by rw [hreleased.closes, if_pos hone]; rfl, List.nodup_singleton h, fun g => ?_⟩
      rw [hlast, List.mem_singleton]
      simp [hone, eq_comm]
    · refine ⟨[], by rw [hreleased.closes, if_neg hone]; rfl, List.nodup_nil, fun g => ?_⟩
      rw [hlast]
      simp [hone]
  · rw [hreleased.claimed, if_congr (hlast _) rfl rfl]
  · rw [hmodules, hlast]
    split_ifs with hn
    · exact iff_of_false (by simp) fun hand => hand.2 hn
    · rw [and_iff_left hn]
  · have hne : s.refCount h ≠ 1 := by
      intro hone
      have := hkept h hpos
      rw [hcount, if_pos rfl] at this
      omega
    rw [hsame hne]
    rfl

end


/-! ### Closing descriptors -/

section

variable {t : DescriptorTable} {slot : Slot} {other : HandleId → ℕ} {s : Handles}

lemma closeSlot_dropped {tagged : TaggedHandle} (h : RefsOk t other s)
    (hread : t.read slot = some tagged) :
    Ensures (fun _ => False) (fun r => r.1 = none ∧ Dropped s r.2 ∧
      RefsOk (t.write slot none) other r.2) ((t.read slot).close s) := by
  refine ((closeSlot_spec h hread).with_eq.mono (fun _ he => he.1) fun r hr => ?_)
  obtain ⟨⟨hnone, hreleased, hrefs⟩, heq⟩ := hr
  refine ⟨hnone, ?_, hrefs⟩
  rw [hread] at heq
  obtain ⟨s', hs', hr⟩ := bind_eq_ok.mp heq
  cases hr
  refine hreleased.dropped hs' ?_ h.nonneg
  have huses := DescriptorTable.uses_write (DescriptorTable.has_of_read hread) none tagged.handle
  rw [hread] at huses
  simp only [Descriptor.refersTo_some, decide_true, if_true, Descriptor.refersTo_none,
    Bool.false_eq_true, if_false] at huses
  rw [h.count]
  omega

lemma DescriptorTable.cloexec_dropped (h : RefsOk t other s) :
    Ensures (fun _ => False) (fun r => Dropped s r.2 ∧ RefsOk r.1 other r.2) (t.cloexec s) := by
  unfold DescriptorTable.cloexec
  refine ensures_forEach (fun _ r => Dropped s r.2 ∧ RefsOk r.1 other r.2) descriptorSlots [] (t, s)
    ?_ ⟨.refl h.nonneg, h⟩
  rintro slot done ⟨t', s'⟩ - ⟨hdropped, hrefs⟩
  dsimp only at hdropped hrefs ⊢
  split_ifs with hcloexec
  · cases hread : t'.read slot with
    | none =>
      rw [hread] at hcloexec
      cases hcloexec
    | some tagged =>
      have hclose := closeSlot_dropped hrefs hread
      rw [hread] at hclose
      refine hclose.bind ?_
      rintro ⟨desc, s''⟩ ⟨rfl, hdropped', hrefs'⟩
      exact ⟨hdropped.trans hdropped', hrefs'⟩
  · exact ⟨hdropped, hrefs⟩

lemma DescriptorTable.closeIfOpen_dropped (h : RefsOk t other s) (slot : Slot) :
    Ensures (fun _ => False) (fun r => Dropped s r.2 ∧ RefsOk r.1 other r.2)
      (t.closeIfOpen slot s) := by
  unfold DescriptorTable.closeIfOpen
  split_ifs with hopen
  · obtain ⟨tagged, hread⟩ := Option.isSome_iff_exists.mp hopen
    refine (closeSlot_dropped h hread).bind ?_
    rintro ⟨desc, s'⟩ ⟨rfl, hdropped, hrefs⟩
    exact ⟨hdropped, hrefs⟩
  · exact ⟨.refl h.nonneg, h⟩

lemma DescriptorTable.close_dropped (h : RefsOk t other s) (fd : ℤ) :
    Ensures (fun _ => False) (fun r => Dropped s r.2.2 ∧ RefsOk r.2.1 other r.2.2)
      (t.close fd s) := by
  unfold DescriptorTable.close
  rw [DescriptorTable.get_eq]
  cases slotOf fd with
  | none => exact ⟨.refl h.nonneg, h⟩
  | some slot =>
    dsimp only
    split_ifs with hopen
    · obtain ⟨tagged, hread⟩ := Option.isSome_iff_exists.mp hopen
      refine (closeSlot_dropped h hread).bind ?_
      rintro ⟨desc, s'⟩ ⟨rfl, hdropped, hrefs⟩
      exact ⟨hdropped, hrefs⟩
    · exact ⟨.refl h.nonneg, h⟩

/-- A sub-table may be made before the descriptor is closed. -/
lemma DescriptorTable.allocOverwrite_dropped (h : RefsOk t other s) (hc : s.heap.pmm.Counted)
    (fd : ℤ) :
    Ensures (fun _ => False) (fun r => ∃ s₁, SameObjects s s₁ ∧ Dropped s₁ r.2.2 ∧
      RefsOk r.2.1 other r.2.2) (t.allocOverwrite fd s) := by
  have hsame : ∃ s₁, SameObjects s s₁ ∧ Dropped s₁ s ∧ RefsOk t other s :=
    ⟨s, .refl hc, .refl h.nonneg, h⟩
  unfold DescriptorTable.allocOverwrite
  dsimp only
  split_ifs with hneg hdirect hindirect
  · exact hsame
  · refine (DescriptorTable.closeIfOpen_dropped h _).bind ?_
    rintro ⟨t', s'⟩ hdropped
    exact ⟨s, .refl hc, hdropped⟩
  · cases hsub : t.l1 ⟨(fd.toNat - 8) / 16, by omega⟩ with
    | some sub =>
      refine (DescriptorTable.closeIfOpen_dropped h _).bind ?_
      rintro ⟨t', s'⟩ hdropped
      exact ⟨s, .refl hc, hdropped⟩
    | none =>
      refine (makeSubTable_spec hc).bind ?_
      rintro ⟨_ | sub, s₁⟩ ⟨hs₁, hempty, -⟩
      · have hrefs := h.of_same rfl hs₁
        exact ⟨s₁, hs₁, .refl hrefs.nonneg, hrefs⟩
      · have hrefs := h.of_same (DescriptorTable.read_setSub hsub (hempty sub rfl)) hs₁
        refine (DescriptorTable.closeIfOpen_dropped hrefs _).bind ?_
        rintro ⟨t', s'⟩ hdropped
        exact ⟨s₁, hs₁, hdropped⟩
  · exact hsame

end

/-! ### Destroying a table -/

/-- `~Descriptor`, which uses the pointer as it is stored: with the flag it is not that of an
object. -/
def Descriptor.destroy (desc : Descriptor) (s : Handles) : Except Panic Handles :=
  match desc with
  | none => .ok s
  | some tagged => if tagged.cloexec then .error .invalidPointer else s.release tagged.handle

/-- The descriptors of an array, from the last one on -/
def destroyArray {N : ℕ} (a : DescriptorArray N) (s : Handles) : Except Panic Handles :=
  forEach Descriptor.destroy ((List.finRange N).map a).reverse s

/-- `~owned` of a sub-table -/
def destroyOwned (sub : Option SubTable) (s : Handles) : Except Panic Handles :=
  match sub with
  | none => .ok s
  | some sub => do
    let s ← destroyArray sub.entries s
    let heap ← kfree sub.block subTableSize s.heap
    .ok { s with heap := heap }

/-- `~Descriptor_table`: members and elements of arrays are destroyed in reverse order. -/
def DescriptorTable.destroy (t : DescriptorTable) (s : Handles) : Except Panic Handles := do
  let s ← forEach destroyOwned ((List.finRange 4).map t.l1).reverse s
  destroyArray t.l0 s

lemma subTableClass_lt : 4 < 10 := by decide

/-- The size class of sub-tables -/
def subTableClass : Fin 10 := ⟨4, subTableClass_lt⟩

lemma allocCalcSizeClass_subTable : allocCalcSizeClass subTableSize = subTableClass := by decide

/-- The block of a sub-table, if it is there -/
def subBlock (sub : Option SubTable) : Multiset Block :=
  match sub with
  | none => 0
  | some sub => {sub.block}

/-- The blocks of the sub-tables -/
def DescriptorTable.blocks (t : DescriptorTable) : Multiset Block := ∑ i, subBlock (t.l1 i)

/-- So many references are there to be given up. -/
structure Referenced (uses : HandleId → ℕ) (s : Handles) : Prop where
  le : ∀ h, uses h ≤ s.refCount h
  live : ∀ h, 0 < s.refCount h → s.Live h
  sized : s.Sized

/-- So many references have been given up, and the blocks of sub-tables with them. -/
structure GivenUp (uses : HandleId → ℕ) (blocks : Multiset Block) (s s' : Handles) : Prop where
  dropped : Dropped s s'
  refCount : ∀ h, s'.refCount h = s.refCount h - uses h
  live : ∀ h, 0 < s'.refCount h → s'.Live h
  sized : s'.Sized
  back : (∀ h, 0 < s.refCount h → 0 < s'.refCount h) →
    GivenBack (Pi.single subTableClass blocks) 0 s.heap s'.heap

/-- What a destructor does: it gives the references up, or it finds a descriptor that is marked. -/
def Destroys (marked : Prop) (uses : HandleId → ℕ) (blocks : Multiset Block) (s : Handles)
    (x : Except Panic Handles) : Prop :=
  Ensures (fun e => e = .invalidPointer ∧ marked)
    (fun s' => ¬ marked ∧ GivenUp uses blocks s s') x

section

variable {uses uses' : HandleId → ℕ} {blocks blocks' : Multiset Block} {s s' s'' : Handles}
  {marked marked' : Prop}

lemma Referenced.nonneg (h : Referenced uses s) (g : HandleId) : 0 ≤ s.refCount g := by
  have := h.le g
  omega

lemma GivenUp.refl (h : Referenced uses s) : GivenUp (fun _ => 0) 0 s s := by
  refine ⟨.refl h.nonneg, fun _ => by simp, h.live, h.sized, fun _ => ?_⟩
  rw [Pi.single_zero]
  exact .refl s.heap

lemma GivenUp.trans (h : GivenUp uses blocks s s') (h' : GivenUp uses' blocks' s' s'') :
    GivenUp (fun g => uses g + uses' g) (blocks + blocks') s s'' := by
  refine ⟨h.dropped.trans h'.dropped, fun g => ?_, h'.live, h'.sized, fun hpos => ?_⟩
  · rw [h'.refCount, h.refCount]
    push_cast
    omega
  · have hback := h.back fun g hg => (hpos g hg).trans_le (h'.dropped.le g)
    have hback' := h'.back fun g hg => hpos g (hg.trans_le (h.dropped.le g))
    rw [Pi.single_add]
    exact hback.trans hback'

/-- What is left to be given up -/
lemma GivenUp.referenced (h : GivenUp uses blocks s s')
    (hs : ∀ g, uses g + uses' g ≤ s.refCount g) :
    Referenced uses' s' := by
  refine ⟨fun g => ?_, h.live, h.sized⟩
  rw [h.refCount]
  have := hs g
  omega

lemma Destroys.bind {x : Except Panic Handles} {f : Handles → Except Panic Handles}
    (hx : Destroys marked uses blocks s x)
    (hf : ∀ s', GivenUp uses blocks s s' → Destroys marked' uses' blocks' s' (f s')) :
    Destroys (marked ∨ marked') (fun g => uses g + uses' g) (blocks + blocks') s (x >>= f) := by
  refine Ensures.bind (hx.mono (fun e he => ⟨he.1, Or.inl he.2⟩) fun _ h => h) fun s' h => ?_
  refine (hf s' h.2).mono (fun e he => ⟨he.1, Or.inr he.2⟩) fun s'' h' => ?_
  exact ⟨fun hmarked => hmarked.elim h.1 h'.1, h.2.trans h'.2⟩

lemma Destroys.congr {x : Except Panic Handles} (h : Destroys marked uses blocks s x)
    (hmarked : marked ↔ marked') (huses : ∀ g, uses g = uses' g) (hblocks : blocks = blocks') :
    Destroys marked' uses' blocks' s x := by
  obtain rfl : marked = marked' := propext hmarked
  obtain rfl : uses = uses' := funext huses
  rw [← hblocks]
  exact h

lemma Descriptor.destroy_spec {desc : Descriptor}
    (h : Referenced (fun g => if desc.refersTo g then 1 else 0) s) :
    Destroys (desc.isCloexec = true) (fun g => if desc.refersTo g then 1 else 0) 0 s
      (desc.destroy s) := by
  cases desc with
  | none => exact ⟨by simp [Descriptor.isCloexec], by simpa using GivenUp.refl h⟩
  | some tagged =>
    unfold Descriptor.destroy
    dsimp only
    split_ifs with hcloexec
    · exact ⟨rfl, hcloexec⟩
    · have hle := h.le tagged.handle
      simp only [Descriptor.refersTo_some, decide_true, if_true, Nat.cast_one] at hle
      have hpos : 0 < s.refCount tagged.handle := by omega
      refine (Handles.release_spec hpos (h.live _ hpos) h.sized).with_eq.mono
        (fun _ he => he.1.elim) fun s' hs' => ?_
      obtain ⟨hreleased, heq⟩ := hs'
      refine ⟨hcloexec, hreleased.dropped heq hpos h.nonneg, fun g => ?_, fun g hg => ?_,
        hreleased.sized, fun hkept => ?_⟩
      · rw [hreleased.refCount, Function.update_apply]
        by_cases hg : g = tagged.handle
        · simp [hg]
        · simp [hg, Ne.symm hg]
      · rw [hreleased.refCount, Function.update_apply] at hg
        split_ifs at hg with heq
        · subst heq
          exact (hreleased.live _ (Or.inr (by omega))).mpr (h.live _ hpos)
        · exact (hreleased.live _ (Or.inl heq)).mpr (h.live _ hg)
      · have hlast : s.refCount tagged.handle ≠ 1 := by
          intro hone
          have := hkept tagged.handle hpos
          rw [hreleased.refCount, Function.update_self] at this
          omega
        rw [(Handles.release_kept heq).2.2 hlast, Pi.single_zero]
        exact .refl s.heap

lemma destroyList_spec (ds : List Descriptor) :
    ∀ {s : Handles}, Referenced (fun g => ds.countP fun desc => desc.refersTo g) s →
      Destroys (∃ desc ∈ ds, desc.isCloexec = true)
        (fun g => ds.countP fun desc => desc.refersTo g) 0 s (forEach Descriptor.destroy ds s) := by
  induction ds with
  | nil =>
    intro s h
    exact ⟨by simp, by simpa using GivenUp.refl h⟩
  | cons desc ds ih =>
    intro s h
    have hcount : ∀ g, (desc :: ds).countP (fun desc => Descriptor.refersTo desc g) =
        (if desc.refersTo g then 1 else 0) + ds.countP fun desc => Descriptor.refersTo desc g := by
      intro g
      rw [List.countP_cons, add_comm]
    have hle : ∀ g, ((if desc.refersTo g then 1 else 0 : ℕ) : ℤ) +
        (ds.countP fun desc => Descriptor.refersTo desc g : ℕ) ≤ s.refCount g := by
      intro g
      have := h.le g
      rw [hcount] at this
      exact_mod_cast this
    rw [forEach_cons]
    refine Destroys.congr (Destroys.bind (@Descriptor.destroy_spec _ desc
      ⟨fun g => ?_, h.live, h.sized⟩) fun s' hs' => ih (hs'.referenced hle)) (by simp)
      (fun g => (hcount g).symm) (add_zero 0)
    have := hle g
    omega

lemma destroyArray_spec {N : ℕ} (a : DescriptorArray N) (h : Referenced (arrayUses a) s) :
    Destroys (∃ i, (a i).isCloexec = true) (arrayUses a) 0 s (destroyArray a s) := by
  have huses : ∀ g, ((List.finRange N).map a).reverse.countP
      (fun desc => Descriptor.refersTo desc g) = arrayUses a g := by
    intro g
    rw [List.countP_reverse, List.countP_map]
    rfl
  refine Destroys.congr (destroyList_spec _ ⟨fun g => ?_, h.live, h.sized⟩) ?_ huses rfl
  · rw [huses]
    exact h.le g
  · simp

lemma destroyOwned_spec {sub : Option SubTable} (h : Referenced (subUses sub) s) :
    Destroys (∃ table, sub = some table ∧ ∃ j, (table.entries j).isCloexec = true) (subUses sub)
      (subBlock sub) s (destroyOwned sub s) := by
  cases sub with
  | none => exact ⟨by simp, GivenUp.refl h⟩
  | some table =>
    refine Ensures.bind ((destroyArray_spec table.entries h).mono
      (fun e he => ⟨he.1, table, rfl, he.2⟩) fun _ h => h) fun s' hs' => ?_
    refine Ensures.bind ((kfree_givenBack allocCalcSizeClass_subTable table.block s'.heap).mono
      (fun _ he => he.elim) fun _ h => h) fun heap hheap => ?_
    obtain ⟨hpmm, hback⟩ := hheap
    obtain ⟨hmarked, hgiven⟩ := hs'
    refine ⟨by simpa using hmarked, ⟨?_, hgiven.refCount, fun g hg => ?_, hgiven.sized,
      fun hpos => ?_⟩⟩
    · exact hgiven.dropped.setHeap hpmm
    · have hlive := hgiven.live g hg
      cases g <;> exact hlive
    · have hnothing := hgiven.back hpos
      rw [Pi.single_zero] at hnothing
      have hboth := hnothing.trans hback
      rw [zero_add, zero_add] at hboth
      exact hboth

lemma destroyOwnedList_spec (subs : List (Option SubTable)) :
    ∀ {s : Handles}, Referenced (fun g => (subs.map fun sub => subUses sub g).sum) s →
      Destroys (∃ table, some table ∈ subs ∧ ∃ j, (table.entries j).isCloexec = true)
        (fun g => (subs.map fun sub => subUses sub g).sum) (subs.map subBlock).sum s
        (forEach destroyOwned subs s) := by
  induction subs with
  | nil =>
    intro s h
    exact ⟨by simp, by simpa using GivenUp.refl h⟩
  | cons sub subs ih =>
    intro s h
    have hle : ∀ g, (subUses sub g : ℤ) + ((subs.map fun sub => subUses sub g).sum : ℕ) ≤
        s.refCount g := by
      intro g
      have := h.le g
      rw [List.map_cons, List.sum_cons] at this
      exact_mod_cast this
    rw [forEach_cons]
    refine Destroys.congr (Destroys.bind (@destroyOwned_spec _ sub
      ⟨fun g => ?_, h.live, h.sized⟩) fun s' hs' => ih (hs'.referenced hle)) ?_ (fun g => by simp)
      (by simp)
    · have := hle g
      omega
    · simp only [List.mem_cons]
      constructor
      · rintro (⟨table, rfl, hj⟩ | ⟨table, hmem, hj⟩)
        · exact ⟨table, Or.inl rfl, hj⟩
        · exact ⟨table, Or.inr hmem, hj⟩
      · rintro ⟨table, rfl | hmem, hj⟩
        · exact Or.inl ⟨table, rfl, hj⟩
        · exact Or.inr ⟨table, hmem, hj⟩

/-- Destroying a table gives up one reference for each descriptor, unless one of them is marked. -/
lemma DescriptorTable.destroy_spec (t : DescriptorTable) (h : Referenced t.uses s) :
    Destroys (∃ slot, (t.read slot).isCloexec = true) t.uses t.blocks s (t.destroy s) := by
  have hsubs : ∀ g, (((List.finRange 4).map t.l1).reverse.map fun sub => subUses sub g).sum =
      ∑ i, subUses (t.l1 i) g := by
    intro g
    rw [← List.map_reverse, List.map_map, List.map_reverse, List.sum_reverse, Fin.sum_univ_def]
    rfl
  have huses : ∀ g, (((List.finRange 4).map t.l1).reverse.map fun sub => subUses sub g).sum +
      arrayUses t.l0 g = t.uses g := by
    intro g
    rw [hsubs, DescriptorTable.uses_eq, add_comm]
  have hle : ∀ g, ((((List.finRange 4).map t.l1).reverse.map fun sub => subUses sub g).sum : ℤ) +
      (arrayUses t.l0 g : ℕ) ≤ s.refCount g := by
    intro g
    have := h.le g
    rw [← huses] at this
    exact_mod_cast this
  refine Destroys.congr (Destroys.bind (destroyOwnedList_spec _ ⟨fun g => ?_, h.live, h.sized⟩)
    fun s' hs' => destroyArray_spec t.l0 (hs'.referenced hle)) ?_ huses ?_
  · have := hle g
    omega
  · constructor
    · rintro (⟨table, hmem, j, hj⟩ | ⟨i, hi⟩)
      · simp only [List.mem_reverse, List.mem_map] at hmem
        obtain ⟨i, -, hi⟩ := hmem
        refine ⟨.indirect i j, ?_⟩
        rw [DescriptorTable.read, hi]
        exact hj
      · exact ⟨.direct i, hi⟩
    · rintro ⟨slot, hslot⟩
      cases slot with
      | direct i => exact Or.inr ⟨i, hslot⟩
      | indirect i j =>
        cases hi : t.l1 i with
        | none => simp [DescriptorTable.read, hi, Descriptor.isCloexec] at hslot
        | some table =>
          refine Or.inl ⟨table, ?_, j, ?_⟩
          · simp only [List.mem_reverse, List.mem_map]
            exact ⟨i, List.mem_finRange i, hi⟩
          · simpa [DescriptorTable.read, hi] using hslot
  · rw [add_zero, ← List.map_reverse, List.map_map, List.map_reverse, List.sum_reverse,
      DescriptorTable.blocks, Fin.sum_univ_def]
    rfl

end

end Fluke
