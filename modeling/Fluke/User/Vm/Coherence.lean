import Fluke.User.Vm.Runs

/-!
# Areas and page tables

The list of areas and the page tables describe one address space twice. They agree when a page is
mapped just if an area with access covers it, with the permissions of that area. Each operation
that returns keeps this, and none of them asks `mmu_assign` to map a page twice.
-/

namespace Fluke

open Outcome

/-- The pages that are mapped are those of the areas with access, and have their permissions. -/
structure PagesMatch (areas : List VmArea) (memory : Frame → Page) (pm : Frame) : Prop where
  mapped : ∀ va < memLowHalfMax, ∀ mode, Covers areas va mode → mode &&& MmuMode.user ≠ 0 →
    EntryFor mode (userLookup memory pm va)
  covered : ∀ va < memLowHalfMax, userLookup memory pm va ≠ none →
    ∃ mode, Covers areas va mode ∧ mode &&& MmuMode.user ≠ 0

/-- A virtual memory whose areas are well formed and match the page tables. -/
structure Coherent (vm : Vm) (heap : Heap) : Prop where
  areas : WellFormed vm.first
  space : SpaceOk vm.pageMap heap.pmm
  pages : PagesMatch vm.first heap.pmm.memory vm.pageMap

lemma Coherent.not_strayPage {vm : Vm} {heap : Heap} (h : Coherent vm heap) :
    ¬ StrayPage vm heap := by
  rintro ⟨va, hva, hnone, hmapped⟩
  obtain ⟨mode, hcovers, -⟩ := h.pages.covered va hva hmapped
  exact hnone mode hcovers

lemma protToMode_user (flags : BitVec 32) :
    protToMode flags &&& MmuMode.user ≠ 0 ↔ flags ≠ 0 := by
  by_cases h : flags = 0
  · subst h
    decide
  · refine iff_of_true ?_ h
    unfold protToMode
    split_ifs <;> decide

lemma EntryFor.ne_none {mode : MmuMode} {entry : Option Word} (h : EntryFor mode entry) :
    entry ≠ none := by
  obtain ⟨page, rfl⟩ := h
  exact Option.some_ne_none _

section

variable {vm : Vm} {address len : ℕ} {flags : BitVec 32} {heap heap' : Heap}
  {areas : List VmArea}

/-- After `VM::free`. -/
lemma PagesMatch.cleared (h : PagesMatch vm.first heap.pmm.memory vm.pageMap)
    (hpages : PagesStep vm.pageMap (ClearedIn address (address + len)) heap.pmm heap'.pmm)
    (hareas : ∀ va mode, Covers areas va mode ↔
      Covers vm.first va mode ∧ ¬ (address ≤ va ∧ va < address + len)) :
    PagesMatch areas heap'.pmm.memory vm.pageMap := by
  refine ⟨fun va hva mode hcovers huser => ?_, fun va hva hmapped => ?_⟩
  · obtain ⟨hold, hout⟩ := (hareas va mode).mp hcovers
    rw [hpages.lookup va hva, if_neg hout]
    exact h.mapped va hva mode hold huser
  · rw [hpages.lookup va hva] at hmapped
    split_ifs at hmapped with hin
    · exact absurd rfl hmapped
    · obtain ⟨mode, hcovers, huser⟩ := h.covered va hva hmapped
      exact ⟨mode, (hareas va mode).mpr ⟨hcovers, hin⟩, huser⟩

/-- After `VM::alloc_fixed_noreplace` or `VM::alloc_movable`. -/
lemma PagesMatch.mapsIn (h : PagesMatch vm.first heap.pmm.memory vm.pageMap)
    (hpages : PagesStep vm.pageMap (MapsIn address (address + len) flags) heap.pmm heap'.pmm)
    (hareas : ∀ va mode, Covers areas va mode ↔
      (address ≤ va ∧ va < address + len ∧ protToMode flags = mode) ∨ Covers vm.first va mode) :
    PagesMatch areas heap'.pmm.memory vm.pageMap := by
  refine ⟨fun va hva mode hcovers huser => ?_, fun va hva hmapped => ?_⟩
  · have hpage := hpages.lookup va hva
    unfold MapsIn at hpage
    rcases (hareas va mode).mp hcovers with ⟨hlo, hhi, rfl⟩ | hold
    · rw [if_pos ⟨(protToMode_user flags).mp huser, hlo, hhi⟩] at hpage
      exact hpage.2
    · have hentry := h.mapped va hva mode hold huser
      split_ifs at hpage with hin
      · exact absurd hpage.1 hentry.ne_none
      · rw [hpage]
        exact hentry
  · have hpage := hpages.lookup va hva
    unfold MapsIn at hpage
    split_ifs at hpage with hin
    · obtain ⟨hflags, hlo, hhi⟩ := hin
      exact ⟨protToMode flags, (hareas va _).mpr (Or.inl ⟨hlo, hhi, rfl⟩),
        (protToMode_user flags).mpr hflags⟩
    · rw [hpage] at hmapped
      obtain ⟨mode, hcovers, huser⟩ := h.covered va hva hmapped
      exact ⟨mode, (hareas va mode).mpr (Or.inr hcovers), huser⟩

/-- After `VM::alloc_fixed_overwrite`. -/
lemma PagesMatch.replaced (h : PagesMatch vm.first heap.pmm.memory vm.pageMap)
    (hpages : PagesStep vm.pageMap (ReplacedIn address (address + len) flags) heap.pmm heap'.pmm)
    (hareas : ∀ va mode, Covers areas va mode ↔
      (address ≤ va ∧ va < address + len ∧ protToMode flags = mode) ∨
        Covers vm.first va mode ∧ ¬ (address ≤ va ∧ va < address + len)) :
    PagesMatch areas heap'.pmm.memory vm.pageMap := by
  refine ⟨fun va hva mode hcovers huser => ?_, fun va hva hmapped => ?_⟩
  · have hpage := hpages.lookup va hva
    unfold ReplacedIn at hpage
    rcases (hareas va mode).mp hcovers with ⟨hlo, hhi, rfl⟩ | ⟨hold, hout⟩
    · rw [if_pos ⟨hlo, hhi⟩, if_neg ((protToMode_user flags).mp huser)] at hpage
      exact hpage
    · rw [if_neg hout] at hpage
      rw [hpage]
      exact h.mapped va hva mode hold huser
  · have hpage := hpages.lookup va hva
    unfold ReplacedIn at hpage
    split_ifs at hpage with hin hflags
    · exact absurd hpage hmapped
    · exact ⟨protToMode flags, (hareas va _).mpr (Or.inl ⟨hin.1, hin.2, rfl⟩),
        (protToMode_user flags).mpr hflags⟩
    · rw [hpage] at hmapped
      obtain ⟨mode, hcovers, huser⟩ := h.covered va hva hmapped
      exact ⟨mode, (hareas va mode).mpr (Or.inr ⟨hcovers, hin⟩), huser⟩

end

/-! ### `VM::clone` -/

/-- What an area says, whatever block it is stored in. -/
def VmArea.extent (area : VmArea) : ℕ × ℕ × MmuMode := (area.begin, area.end_, area.flags)

lemma covers_of_extents {areas areas' : List VmArea}
    (h : areas'.map VmArea.extent = areas.map VmArea.extent) (va : ℕ) (mode : MmuMode) :
    Covers areas' va mode ↔ Covers areas va mode := by
  have hiff : ∀ list : List VmArea, Covers list va mode ↔
      ∃ e ∈ list.map VmArea.extent, e.1 ≤ va ∧ va < e.2.1 ∧ e.2.2 = mode := by
    intro list
    simp only [Covers, List.mem_map, exists_exists_and_eq_and, VmArea.extent]
  rw [hiff, hiff, h]

lemma wellFormed_of_extents {areas areas' : List VmArea}
    (h : areas'.map VmArea.extent = areas.map VmArea.extent) (hwf : WellFormed areas) :
    WellFormed areas' := by
  refine ⟨fun a ha => ?_, ?_⟩
  · have hmem : a.extent ∈ areas.map VmArea.extent := h ▸ List.mem_map_of_mem ha
    obtain ⟨b, hb, heq⟩ := List.mem_map.mp hmem
    simp only [VmArea.extent, Prod.mk.injEq] at heq
    obtain ⟨hbegin, hend, -⟩ := heq
    have hok := hwf.ok b hb
    exact ⟨hbegin ▸ hend ▸ hok.lt, hbegin ▸ hok.begin_aligned, hend ▸ hok.end_aligned,
      hbegin ▸ hok.lower, hend ▸ hok.upper⟩
  · have hsorted : (areas.map VmArea.extent).Pairwise fun e e' => e.2.1 ≤ e'.1 :=
      List.pairwise_map.mpr hwf.sorted
    rw [← h] at hsorted
    exact List.pairwise_map.mp hsorted

lemma cloneAreas_spec {pm : Frame} (areas : List VmArea) {heap : Heap} (hs : SpaceOk pm heap.pmm) :
    Ensures (fun _ => False) (fun out => PagesStep pm Kept heap.pmm out.2.2.pmm ∧
      (out.1 = .ok () → out.2.1.map VmArea.extent = areas.map VmArea.extent))
      (cloneAreas areas heap) := by
  induction areas generalizing heap with
  | nil => exact ⟨.kept hs, fun _ => rfl⟩
  | cons area next ih =>
    unfold cloneAreas
    refine (makeArea_spec hs.counted).bind ?_
    rintro ⟨_ | block, heap₁⟩ hstep
    · exact ⟨hstep.pagesKept hs, fun h => (by cases h)⟩
    have hkept := hstep.pagesKept hs
    refine (ih hkept.ok).bind ?_
    rintro ⟨res, areas', heap₂⟩ ⟨hpages, hareas⟩
    refine ⟨hkept.kept_trans hpages, fun h => ?_⟩
    rw [List.map_cons, List.map_cons, hareas h]
    rfl

lemma entry_eq (entry : Word) :
    entry = entryAddressBits (entryTarget entry) ||| entryPermissions entry := by
  rw [entryAddressBits_eq]
  simp only [entryTarget, entryPermissions]
  ext i hi
  simp only [BitVec.getElem_or, BitVec.getElem_and, BitVec.getElem_not]
  cases entry[i] <;> cases tableEntryAddressMask[i] <;> rfl

/-- The copies of the mapped pages have the permissions of the originals. -/
lemma PagesMatch.cloned {areas : List VmArea} {pm copy : Frame} {s s' : Pmm} (hs : SpaceOk pm s)
    (hs' : SpaceOk copy s') (h : PagesMatch areas s.memory pm) (hcloned : Cloned pm copy s s') :
    PagesMatch areas s'.memory copy := by
  refine ⟨fun va hva mode hcovers huser => ?_, fun va hva hmapped => ?_⟩
  · obtain ⟨page, hentry⟩ := h.mapped va hva mode hcovers huser
    have hleaf : leafEntry s.memory pm va =
        some (0, entryAddressBits page ||| entryFlags MmuCache.default mode) := by
      rw [leafEntry_user hs hva, hentry]
      rfl
    obtain ⟨entry', hleaf', hperm, -⟩ := hcloned.page va hva _ hleaf
    rw [leafEntry_user hs' hva] at hleaf'
    simp only [Option.map_eq_some_iff, Prod.mk.injEq, true_and, exists_eq_right] at hleaf'
    rw [entryPermissions_or (flagBits_entryFlags _ _)] at hperm
    refine ⟨entryTarget entry', ?_⟩
    rw [hleaf', ← hperm]
    exact congrArg some (entry_eq entry')
  · refine h.covered va hva fun hnone => hmapped ?_
    rw [← leafEntry_user_eq_none hs' hva, hcloned.present va hva, leafEntry_user_eq_none hs hva]
    exact hnone

lemma Vm.clone_spec {vm : Vm} {heap : Heap} (h : Coherent vm heap) :
    Ensures (· = .outOfMemory) (fun r => r.1 = .ok () → Coherent r.2.1 r.2.2 ∧
      r.2.1.first.map VmArea.extent = vm.first.map VmArea.extent) (vm.clone .null heap) := by
  unfold Vm.clone
  refine ((mmuCloneAddressSpace_spec rfl h.space).mono (fun _ he => he.1) fun _ hr => hr).bind ?_
  rintro ⟨page, s'⟩ ⟨hnew, hcopy⟩
  have hmatch := h.pages.cloned h.space hnew.ok (hnew.cloned h.space hcopy)
  refine Ensures.bind ((@cloneAreas_spec page vm.first { heap with pmm := s' } hnew.ok).mono
    (fun _ h => h.elim) fun _ h => h) ?_
  rintro ⟨res, areas, heap₁⟩ ⟨hpages, hareas⟩
  intro hres
  have hextents := hareas hres
  refine ⟨⟨wellFormed_of_extents hextents h.areas, hpages.ok, ?_⟩, hextents⟩
  refine ⟨fun va hva mode hcovers huser => ?_, fun va hva hmapped => ?_⟩
  · rw [hpages.lookup va hva]
    exact hmatch.mapped va hva mode ((covers_of_extents hextents va mode).mp hcovers) huser
  · rw [hpages.lookup va hva] at hmapped
    obtain ⟨mode, hcovers, huser⟩ := hmatch.covered va hva hmapped
    exact ⟨mode, (covers_of_extents hextents va mode).mpr hcovers, huser⟩

/-! ### All operations -/

/-- The operations on the areas keep them in agreement with the page tables, and a clone has the
areas of the original and agrees with its own page tables. Only the lack of a free frame stops
them. -/
theorem Coherent.operations {vm : Vm} {heap : Heap} (h : Coherent vm heap) {address len : ℕ}
    (hargs : VmArgs address len) (flags : BitVec 32) :
    Ensures (fun _ => False) (fun out => out.1 = .ok () →
      PagesMatch out.2.1 out.2.2.pmm.memory vm.pageMap) (vm.free address len heap) ∧
    Ensures (· = .outOfMemory) (fun out => out.1 = .ok () →
      PagesMatch out.2.1 out.2.2.pmm.memory vm.pageMap)
      (vm.allocFixedNoreplace address len flags heap) ∧
    Ensures (· = .outOfMemory) (fun out => out.1 = .ok () →
      PagesMatch out.2.1 out.2.2.pmm.memory vm.pageMap)
      (vm.allocFixedOverwrite address len flags heap) ∧
    Ensures (· = .outOfMemory) (fun r => r.1 = .ok () → Coherent r.2.1 r.2.2 ∧
      r.2.1.first.map VmArea.extent = vm.first.map VmArea.extent) (vm.clone .null heap) := by
  refine ⟨?_, ?_, ?_, Vm.clone_spec h⟩
  · refine (Vm.free_spec hargs h.space).mono (fun _ hwf => hwf h.areas) fun out hout hok => ?_
    exact h.pages.cleared (hout.done hok) (hout.areas hok h.areas).2
  · refine (Vm.allocFixedNoreplace_spec hargs h.space).mono ?_ fun out hout hok => ?_
    · rintro e (hwf | hstop)
      · exact absurd h.areas hwf
      · exact hstop.outOfMemory h.not_strayPage
    · obtain ⟨hmapped, -⟩ := hout.1 hok
      exact h.pages.mapsIn hmapped.pages (hmapped.covers h.areas)
  · refine (Vm.allocFixedOverwrite_spec hargs h.space).mono ?_ fun out hout hok => ?_
    · rintro e (hwf | hstop)
      · exact absurd h.areas hwf
      · exact hstop
    · exact h.pages.replaced (hout.done hok) (hout.covers hok h.areas)

/-- The call returns, and without an error code. -/
def succeeds {α : Type} (x : Except Panic (Result Unit × α)) : Bool :=
  match x with
  | .ok (.ok (), _) => true
  | _ => false

lemma succeeds_iff {α : Type} {x : Except Panic (Result Unit × α)} :
    succeeds x ↔ ∃ a, x = .ok (.ok (), a) := by
  unfold succeeds
  split
  · exact iff_of_true rfl ⟨_, rfl⟩
  · next hno => exact iff_of_false Bool.false_ne_true fun ⟨a, ha⟩ => hno a ha

/-- The call returns this error code. -/
def failsWith {α β : Type} (e : ErrorCode) (x : Except Panic (Result α × β)) : Bool :=
  match x with
  | .ok (.error e', _) => e' = e
  | _ => false

lemma failsWith_iff {α β : Type} {e : ErrorCode} {x : Except Panic (Result α × β)} :
    failsWith e x ↔ ∃ b, x = .ok (.error e, b) := by
  unfold failsWith
  split
  · next e' b =>
    rw [decide_eq_true_iff]
    refine ⟨fun he => ⟨b, by rw [he]⟩, ?_⟩
    rintro ⟨b', hb'⟩
    exact Except.error.inj (congrArg Prod.fst (Except.ok.inj hb'))
  · next hno => exact iff_of_false Bool.false_ne_true fun ⟨b, hb⟩ => hno e b hb

lemma exists_of_succeeds {α : Type} {x : Except Panic (Result Unit × α)} {E : Panic → Prop}
    {Q : α → Prop} (h : Ensures E (fun out => out.1 = .ok () → Q out.2) x) (hx : succeeds x) :
    ∃ out, x = .ok (.ok (), out) ∧ Q out := by
  obtain ⟨out, hout⟩ := succeeds_iff.mp hx
  exact ⟨out, hout, h.of_eq_ok hout rfl⟩

lemma exists_of_failsWith {α β : Type} {e : ErrorCode} {x : Except Panic (Result α × β)}
    {E : Panic → Prop} {Q : Result α × β → Prop} (h : Ensures E Q x) (hx : failsWith e x) :
    ∃ out, x = .ok (.error e, out) ∧ Q (.error e, out) := by
  obtain ⟨out, hout⟩ := failsWith_iff.mp hx
  exact ⟨out, hout, h.of_eq_ok hout⟩

lemma userLookup_blank (free : List Frame) (pm : Frame) (va : ℕ) :
    userLookup (Pmm.blank free).memory pm va = none := by
  rw [userLookup, userTree, pathOf_PML4, Radix.lookup_table_cons, userSlots_blank]
  rfl

/-- The areas and the page tables agree, and no table is empty. -/
structure VmState.Neat (s : VmState) : Prop where
  coherent : Coherent s.vm s.heap
  noEmpty : NoEmptyTables s.heap.pmm.memory s.vm.pageMap

/-- A new area keeps everything in agreement. -/
lemma VmState.Neat.noreplace {s : VmState} {address len : ℕ} {flags : BitVec 32} (hs : s.Neat)
    (hargs : VmArgs address len)
    (hdone : succeeds (s.vm.allocFixedNoreplace address len flags s.heap)) :
    (s.next (.allocFixedNoreplace address len flags)).Neat := by
  have h := hs.coherent
  obtain ⟨⟨areas, heap⟩, hrun⟩ := succeeds_iff.mp hdone
  obtain ⟨hmapped, hareas⟩ := ((Vm.allocFixedNoreplace_spec hargs h.space).of_eq_ok hrun).1 rfl
  have hnext : s.next (.allocFixedNoreplace address len flags) =
      ⟨{ s.vm with first := areas }, heap⟩ := by
    rw [VmState.next, VmState.step, hrun]
    rfl
  rw [hnext]
  exact ⟨⟨hareas h.areas, hmapped.pages.ok, h.pages.mapsIn hmapped.pages (hmapped.covers h.areas)⟩,
    hmapped.pages.noEmpty hs.noEmpty⟩

lemma VmState.noEmptyTables_blank (free : List Frame) (pm : Frame) :
    NoEmptyTables (Pmm.blank free).memory pm := by
  intro i
  rw [userSlots_blank]
  exact Radix.noEmpty_absent

lemma VmState.settled_neat : settled.Neat := by
  have hroomy : roomy.Neat := ⟨⟨wellFormed_nil, roomy_initial.space,
    fun _ _ _ hcovers => absurd hcovers covers_nil,
    fun va _ hmapped => absurd (userLookup_blank _ _ va) hmapped⟩, noEmptyTables_blank _ _⟩
  refine (hroomy.noreplace ?_ (by decide +kernel)).noreplace ?_ (by decide +kernel)
  · exact ⟨by decide, by decide, by decide, by decide⟩
  · exact ⟨by decide, by decide, by decide, by decide⟩

/-- Two areas, one of them without access: their insides are freed or overwritten, the gap between
them is filled, and both are cloned. -/
theorem Coherent.operations_settled :
    (∃ out, VmState.settled.vm.free 0x2000 0x4000 VmState.settled.heap = .ok (.ok (), out) ∧
      PagesMatch out.1 out.2.pmm.memory VmState.settled.vm.pageMap) ∧
    (∃ out, VmState.settled.vm.allocFixedNoreplace 0x3000 0x2000 protWrite VmState.settled.heap =
        .ok (.ok (), out) ∧
      PagesMatch out.1 out.2.pmm.memory VmState.settled.vm.pageMap) ∧
    (∃ out, VmState.settled.vm.allocFixedOverwrite 0x2000 0x4000 protExec VmState.settled.heap =
        .ok (.ok (), out) ∧
      PagesMatch out.1 out.2.pmm.memory VmState.settled.vm.pageMap) ∧
    ∃ r, VmState.settled.vm.clone .null VmState.settled.heap = .ok (.ok (), r) ∧
      Coherent r.1 r.2 ∧ r.1.first.map VmArea.extent = [(0x1000, 0x3000, protToMode protWrite),
        (0x5000, 0x8000, protToMode 0)] := by
  have hinside : VmArgs 0x2000 0x4000 := ⟨by decide, by decide, by decide, by decide⟩
  have hgap : VmArgs 0x3000 0x2000 := ⟨by decide, by decide, by decide, by decide⟩
  obtain ⟨hfree, -, hoverwrite, hclone⟩ :=
    Coherent.operations VmState.settled_neat.coherent hinside protExec
  obtain ⟨-, hnoreplace, -⟩ := Coherent.operations VmState.settled_neat.coherent hgap protWrite
  have hcloned : succeeds (VmState.settled.vm.clone .null VmState.settled.heap) := by
    decide +kernel
  obtain ⟨out, hout⟩ := succeeds_iff.mp hcloned
  obtain ⟨hcoherent, hareas⟩ := hclone.of_eq_ok hout rfl
  rw [VmState.settled_first] at hareas
  exact ⟨exists_of_succeeds hfree (by decide +kernel),
    exists_of_succeeds hnoreplace (by decide +kernel),
    exists_of_succeeds hoverwrite (by decide +kernel), out, hout, hcoherent, hareas⟩

end Fluke
