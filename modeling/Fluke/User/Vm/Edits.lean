import Fluke.User.Vm.Atomicity

/-!
# The operations as edits of a map

Read as a map, a list of areas takes an address to the flags of the area that covers it. On this
map `VM::free` removes a range, `VM::alloc_fixed_noreplace` adds one that was not there, and
`VM::alloc_fixed_overwrite` sets one.
-/

namespace Fluke

open Outcome

/-- The flags of the area that covers an address. -/
def flagsAt (areas : List VmArea) (va : ℕ) : Option MmuMode :=
  (areas.find? fun area => area.begin ≤ va ∧ va < area.end_).map VmArea.flags

/-- The map without a range. -/
def removeRange (map : ℕ → Option MmuMode) (address end_ va : ℕ) : Option MmuMode :=
  if address ≤ va ∧ va < end_ then none else map va

/-- The map with a range set to `mode`. -/
def setRange (map : ℕ → Option MmuMode) (address end_ : ℕ) (mode : MmuMode) (va : ℕ) :
    Option MmuMode :=
  if address ≤ va ∧ va < end_ then some mode else map va

section

variable {areas areas' : List VmArea} {va address end_ : ℕ} {flags flags' mode : MmuMode}

lemma covers_of_flagsAt (h : flagsAt areas va = some flags) : Covers areas va flags := by
  obtain ⟨area, harea, rfl⟩ := Option.map_eq_some_iff.mp h
  have hin := List.find?_some harea
  rw [decide_eq_true_iff] at hin
  exact ⟨area, List.mem_of_find?_eq_some harea, hin.1, hin.2, rfl⟩

lemma flagsAt_eq_none_iff : flagsAt areas va = none ↔ ∀ flags, ¬ Covers areas va flags := by
  constructor
  · rintro h flags ⟨area, harea, hlo, hhi, -⟩
    have hnone := List.find?_eq_none.mp (Option.map_eq_none_iff.mp h) area harea
    exact hnone (decide_eq_true ⟨hlo, hhi⟩)
  · intro h
    cases hflags : flagsAt areas va with
    | none => rfl
    | some flags => exact absurd (covers_of_flagsAt hflags) (h flags)

/-- A list that covers an address as a map says is read as that map. -/
lemma flagsAt_eq_of_covers {value : Option MmuMode}
    (h : ∀ flags, Covers areas va flags ↔ value = some flags) : flagsAt areas va = value := by
  cases hflags : flagsAt areas va with
  | none =>
    have hnone := flagsAt_eq_none_iff.mp hflags
    cases value with
    | none => rfl
    | some flags => exact absurd ((h flags).mpr rfl) (hnone flags)
  | some flags => exact ((h flags).mp (covers_of_flagsAt hflags)).symm

/-- An address is covered by one area of a well-formed list at most. -/
lemma WellFormed.unique (h : WellFormed areas) (hc : Covers areas va flags)
    (hc' : Covers areas va flags') : flags = flags' := by
  induction areas with
  | nil => exact absurd hc covers_nil
  | cons area areas ih =>
    obtain ⟨-, hafter, hrest⟩ := wellFormed_cons.mp h
    rcases covers_cons.mp hc with ⟨-, hhi, hflags⟩ | hc
    · rcases covers_cons.mp hc' with ⟨-, -, hflags'⟩ | hc'
      · exact hflags.symm.trans hflags'
      · have hlo := covers_lower hafter hc'
        omega
    · rcases covers_cons.mp hc' with ⟨-, hhi, -⟩ | hc'
      · have hlo := covers_lower hafter hc
        omega
      · exact ih hrest hc hc'

lemma WellFormed.covers_iff (h : WellFormed areas) :
    Covers areas va flags ↔ flagsAt areas va = some flags := by
  refine ⟨fun hc => ?_, covers_of_flagsAt⟩
  cases hflags : flagsAt areas va with
  | none => exact absurd hc (flagsAt_eq_none_iff.mp hflags flags)
  | some flags' => rw [h.unique hc (covers_of_flagsAt hflags)]

/-- Areas that cover what is left of a well-formed list. -/
lemma flagsAt_removed (hwf : WellFormed areas)
    (h : ∀ va flags, Covers areas' va flags ↔
      Covers areas va flags ∧ ¬ (address ≤ va ∧ va < end_)) :
    flagsAt areas' = removeRange (flagsAt areas) address end_ := by
  funext va
  apply flagsAt_eq_of_covers
  intro flags
  rw [h, hwf.covers_iff, removeRange]
  split_ifs with hin
  · simp [hin]
  · simp [hin]

/-- Areas that cover a range, and outside of it what a well-formed list covers. -/
lemma flagsAt_set (hwf : WellFormed areas)
    (h : ∀ va flags, Covers areas' va flags ↔ (address ≤ va ∧ va < end_ ∧ mode = flags) ∨
      Covers areas va flags ∧ ¬ (address ≤ va ∧ va < end_)) :
    flagsAt areas' = setRange (flagsAt areas) address end_ mode := by
  funext va
  apply flagsAt_eq_of_covers
  intro flags
  rw [h, hwf.covers_iff, setRange]
  split_ifs with hin
  · simp [hin]
  · rw [and_iff_left hin, or_iff_right fun hc => hin ⟨hc.1, hc.2.1⟩]

/-- A range of pages meets no area just when no address of it is covered. -/
lemma disjoint_iff_flagsAt (hwf : WellFormed areas) (hlt : address < end_) :
    Disjoint' areas address end_ ↔ ∀ va, address ≤ va → va < end_ → flagsAt areas va = none := by
  constructor
  · intro h va hlo hhi
    rw [flagsAt_eq_none_iff]
    rintro flags ⟨a, ha, hbegin, hend, -⟩
    rcases h a ha with hbefore | hbehind <;> omega
  · intro h a ha
    by_contra hmeets
    rw [not_or, not_le, not_le] at hmeets
    have halt := (hwf.ok a ha).lt
    have hnone := h (max address a.begin) (by omega) (by omega)
    exact flagsAt_eq_none_iff.mp hnone a.flags ⟨a, ha, by omega, by omega, rfl⟩

end

/-! ### When the operations succeed -/

/-- The result of an insertion: it succeeds just when the range meets no area. -/
def InsertResult (areas : List VmArea) (address end_ : ℕ) (result : Result Unit) : Prop :=
  (Disjoint' areas address end_ → result = .ok ()) ∧
    (¬ Disjoint' areas address end_ → result = .error .EEXIST)

/-- No block is left for an area. -/
def OutOfAreas (heap : Heap) : Prop := heap.pools vmAreaClass = [] ∧ heap.pmm.freeList = []

section

variable {vm : Vm} {areas : List VmArea} {address end_ len : ℕ} {flags : BitVec 32}
  {mode : MmuMode} {heap : Heap}

/-- `vm_insert_area` decides by one area whether the range meets any. -/
lemma vmInsertArea_result (hwf : WellFormed areas) (hlt : address < end_)
    (hcount : heap.pmm.Counted) :
    Ensures (fun _ => False) (fun out => out.1 = .error .ENOMEM ∧ OutOfAreas heap ∨
      InsertResult areas address end_ out.1)
      (vmInsertArea areas address end_ mode heap) := by
  unfold vmInsertArea
  rcases makeArea_cases hcount with ⟨hpool, hfree, hmake⟩ | ⟨block, heap₁, hmake, -⟩
  · rw [hmake]
    exact Or.inl ⟨rfl, hpool, hfree⟩
  rw [hmake, ok_bind]
  obtain ⟨happend, hpassed, hnext⟩ := insertLoop_spec address areas
  generalize insertLoop address areas = route at happend hpassed hnext
  obtain ⟨passed, _ | ⟨next, rest⟩⟩ := route
  · -- every area ends before the range
    have hdisj : Disjoint' areas address end_ := by
      intro a ha
      rw [happend, List.append_nil] at ha
      exact Or.inl (hpassed a ha)
    exact Or.inr ⟨fun _ => rfl, absurd hdisj⟩
  · have hnextEnd := hnext next rest rfl
    dsimp only
    split_ifs with hmeets
    · -- the candidate is met
      have hdisj : ¬ Disjoint' areas address end_ := by
        intro hdisj
        rw [Bool.or_eq_true, decide_eq_true_iff, decide_eq_true_iff] at hmeets
        rcases hdisj next (happend ▸ List.mem_append_right _ List.mem_cons_self) with h | h <;>
          omega
      refine Ensures.bind (freeArea_spec block heap₁) fun heap₂ _ => ?_
      exact Or.inr ⟨fun h => absurd h hdisj, fun _ => rfl⟩
    · -- the candidate begins behind the range, and with it the areas that follow
      have hbegin : end_ ≤ next.begin := by
        by_contra hgt
        exact hmeets (by simp [not_le.mp hgt])
      have hdisj : Disjoint' areas address end_ := by
        intro a ha
        rw [happend] at ha hwf
        rcases List.mem_append.mp ha with ha | ha
        · exact Or.inl (hpassed a ha)
        · have hsorted := (List.pairwise_append.mp hwf.sorted).2.1
          rcases List.mem_cons.mp ha with rfl | ha
          · exact Or.inr hbegin
          · have hnextLt := (hwf.ok next (by simp)).lt
            exact Or.inr ((hbegin.trans hnextLt.le).trans
              ((List.pairwise_cons.mp hsorted).1 a ha))
      exact Or.inr ⟨fun _ => rfl, absurd hdisj⟩

lemma AreaRange.vmArgs (hr : AreaRange address (address + len)) : VmArgs address len where
  aligned := hr.begin_aligned
  len_aligned := (Nat.dvd_add_right hr.begin_aligned).mp hr.end_aligned
  pos := by have := hr.lt; omega
  lt := by
    have hupper := hr.upper
    simp only [addrMax, memLowHalfMax] at hupper
    omega

/-- The result of `VM::alloc_fixed_noreplace` is that of the insertion. -/
lemma Vm.allocFixedNoreplace_result (hwf : WellFormed vm.first)
    (hr : AreaRange address (address + len)) (hlower : addrMin ≤ address)
    (hs : SpaceOk vm.pageMap heap.pmm) :
    Ensures (fun _ => True) (fun out => out.1 = .error .ENOMEM ∧ OutOfAreas heap ∨
      InsertResult vm.first address (address + len) out.1)
      (vm.allocFixedNoreplace address len flags heap) := by
  have hupper := hr.upper
  have hlt : address < addrMax := hr.lt.trans_le hupper
  unfold Vm.allocFixedNoreplace
  rw [hr.vmArgs.assertValid_eq, ok_bind, hr.vmArgs.uaddIsize_eq hlt, if_neg (by simp; omega)]
  refine Ensures.bind ((vmInsertArea_result hwf hr.lt hs.counted).mono (fun _ h => h.elim)
    fun _ h => h) ?_
  rintro ⟨e | ⟨⟩, areas, heap₁⟩ hresult
  · exact hresult
  · exact (ensures_trivial _).bind fun _ _ => hresult

/-- `vm_clear_for_insert` fails only for want of a block. -/
lemma vmClearForInsert_result (hwf : WellFormed areas) (hr : AreaRange address end_)
    (hcount : heap.pmm.Counted) :
    Ensures (fun _ => False) (fun r => (∃ route, r.1 = .ok route) ∨
      r.1 = .error .ENOMEM ∧ OutOfAreas heap) (vmClearForInsert areas address end_ heap) := by
  unfold vmClearForInsert
  rcases makeArea_cases hcount with ⟨hpool, hfree, hmake⟩ | ⟨block, heap₁, hmake, -⟩
  · rw [hmake]
    exact Or.inr ⟨rfl, hpool, hfree⟩
  rw [hmake, ok_bind]
  refine (clearLoop_spec hr block hwf heap₁).bind ?_
  rintro ⟨route, heap₂⟩ -
  dsimp only
  split_ifs
  · exact Or.inl ⟨route, rfl⟩
  · exact (freeArea_spec block heap₂).bind fun _ _ => Or.inl ⟨route, rfl⟩

lemma Vm.free_result (hwf : WellFormed vm.first) (hr : AreaRange address (address + len))
    (hs : SpaceOk vm.pageMap heap.pmm) :
    Ensures (fun _ => False) (fun out => out.1 = .ok () ∨
      out.1 = .error .ENOMEM ∧ OutOfAreas heap) (vm.free address len heap) := by
  have hupper := hr.upper
  have hlt : address < addrMax := hr.lt.trans_le hupper
  unfold Vm.free
  rw [hr.vmArgs.assertValid_eq, ok_bind, hr.vmArgs.uaddIsize_eq hlt, if_neg (by simp; omega)]
  have hclear := (vmClearForInsert_result hwf hr hs.counted).and
    ((@vmClearForInsert_spec vm.pageMap _ _ _ heap hr hs).mono (fun _ h => h hwf) fun _ h => h)
  refine hclear.bind ?_
  rintro ⟨e | route, heap₁⟩ ⟨hresult, hkept, -⟩
  · rcases hresult with ⟨route, h⟩ | h
    · cases h
    · exact Or.inr ⟨congrArg Except.error (Except.error.inj h.1), h.2⟩
  · exact (clearRange_spec (hr.vmArgs.userRange hupper) hkept.ok).bind fun _ _ => Or.inl rfl

lemma Vm.allocFixedOverwrite_result (hwf : WellFormed vm.first)
    (hr : AreaRange address (address + len)) (hlower : addrMin ≤ address)
    (hs : SpaceOk vm.pageMap heap.pmm) :
    Ensures (fun _ => True) (fun out => out.1 = .ok () ∨
      out.1 = .error .ENOMEM ∧ (OutOfAreas heap ∨ Starved vm address len heap))
      (vm.allocFixedOverwrite address len flags heap) := by
  have hupper := hr.upper
  have hlt : address < addrMax := hr.lt.trans_le hupper
  have hur := hr.vmArgs.userRange hupper
  unfold Vm.allocFixedOverwrite
  rw [hr.vmArgs.assertValid_eq, ok_bind, hr.vmArgs.uaddIsize_eq hlt, if_neg (by simp; omega)]
  refine Ensures.bind ((((vmClearForInsert_result hwf hr hs.counted).mono (fun _ h => h.elim)
    fun _ h => h).and (vmClearForInsert_last hr hwf hs.counted)).and
    ((vmClearForInsert_spec hr hs).mono (fun _ _ => trivial) fun _ h => h)) ?_
  rintro ⟨e | route, heap₁⟩ ⟨⟨hresult, hlast⟩, hkept, -⟩
  · rcases hresult with ⟨route, h⟩ | h
    · cases h
    · exact Or.inr ⟨congrArg Except.error (Except.error.inj h.1), Or.inl h.2⟩
  dsimp only
  unfold clearRange
  rw [bind_assoc]
  refine Ensures.bind ((mmuClear_spec hur hkept.ok).mono (fun _ h => h.elim) fun _ h => h)
    fun pmm hclear => ?_
  rw [ok_bind]
  rcases @makeArea_cases { heap₁ with pmm := pmm } hclear.ok.counted with
    ⟨hnil, hfree, hmake⟩ | ⟨block, heap₂, hmake, -⟩
  · rw [hmake, ok_bind]
    exact Or.inr ⟨rfl, Or.inr (starved_of_cleared hur (hlast route rfl hnil) hclear hfree)⟩
  · rw [hmake, ok_bind]
    exact (ensures_trivial _).bind fun _ _ => Or.inl rfl

/-- The three operations are the edits of the map they are for, on every well-formed list and every
range of pages of the address space. They fail for want of a block, or because the range is in use.
They stop the kernel only in `mmu_assign`: for want of a frame, or because a page is mapped that no
area covers. -/
theorem vm_edits (hwf : WellFormed vm.first) (hs : SpaceOk vm.pageMap heap.pmm)
    (hr : AreaRange address (address + len)) (flags : BitVec 32) :
    Ensures (fun _ => False) (fun out => out.1 = .error .ENOMEM ∧ OutOfAreas heap ∨
      out.1 = .ok () ∧ WellFormed out.2.1 ∧
        flagsAt out.2.1 = removeRange (flagsAt vm.first) address (address + len))
      (vm.free address len heap) ∧
    (addrMin ≤ address →
      Ensures (AssignStop (StrayPage vm heap)) (fun out =>
        out.1 = .error .ENOMEM ∧ OutOfAreas heap ∨
        (out.1 = .ok () ↔
          ∀ va, address ≤ va → va < address + len → flagsAt vm.first va = none) ∧
        (out.1 = .ok () → WellFormed out.2.1 ∧ flagsAt out.2.1 =
          setRange (flagsAt vm.first) address (address + len) (protToMode flags)) ∧
        (out.1 ≠ .ok () → out.1 = .error .EEXIST ∧ out.2.1 = vm.first))
        (vm.allocFixedNoreplace address len flags heap) ∧
      Ensures (fun e => e = .outOfMemory) (fun out =>
        out.1 = .error .ENOMEM ∧ (OutOfAreas heap ∨ Starved vm address len heap) ∨
        out.1 = .ok () ∧ flagsAt out.2.1 =
          setRange (flagsAt vm.first) address (address + len) (protToMode flags))
        (vm.allocFixedOverwrite address len flags heap)) := by
  have hargs := hr.vmArgs
  refine ⟨?_, fun hlower => ⟨?_, ?_⟩⟩
  · have hspec := (Vm.free_spec hargs hs).mono (fun _ h => h hwf) fun _ h => h
    refine ((Vm.free_result hwf hr hs).and hspec).imp ?_
    rintro out ⟨hok | hfailed, hfreed⟩
    · obtain ⟨hareas, hcovers⟩ := hfreed.areas hok hwf
      exact Or.inr ⟨hok, hareas, flagsAt_removed hwf hcovers⟩
    · exact Or.inl hfailed
  · have hspec := (@Vm.allocFixedNoreplace_spec vm address len flags heap hargs hs).mono
      (fun _ h => h.resolve_left (fun h => h hwf)) fun _ h => h
    have hresult :=
      (@Vm.allocFixedNoreplace_result vm address len flags heap hwf hr hlower hs).with_eq
    have hboth := hspec.with_eq
    rw [ensures_iff] at hresult hboth ⊢
    refine ⟨fun out hrun => ?_, fun e he => (hboth.2 e he).1⟩
    obtain ⟨⟨hdone, hfailed⟩, -⟩ := hboth.1 out hrun
    rcases (hresult.1 out hrun).1 with h | ⟨hfree, hmeets⟩
    · exact Or.inl h
    refine Or.inr ⟨?_, fun hok => ?_, fun hne => ?_⟩
    · rw [← disjoint_iff_flagsAt hwf hr.lt]
      refine ⟨fun hok => ?_, hfree⟩
      by_contra hdisj
      rw [hmeets hdisj] at hok
      cases hok
    · obtain ⟨hmapped, hwf'⟩ := hdone hok
      refine ⟨hwf' hwf, flagsAt_set hwf fun va flags' => ?_⟩
      rw [hmapped.covers hwf va flags']
      refine or_congr_right ⟨fun hc => ⟨hc, fun hin => ?_⟩, fun hc => hc.1⟩
      have hdisj : Disjoint' vm.first address (address + len) := by
        by_contra hdisj
        rw [hmeets hdisj] at hok
        cases hok
      have hnone := (disjoint_iff_flagsAt hwf hr.lt).mp hdisj va hin.1 hin.2
      exact flagsAt_eq_none_iff.mp hnone flags' hc
    · have hdisj : ¬ Disjoint' vm.first address (address + len) := fun h => hne (hfree h)
      exact ⟨hmeets hdisj, (hfailed _ (hmeets hdisj)).1⟩
  · have hspec := (@Vm.allocFixedOverwrite_spec vm address len flags heap hargs hs).mono
      (fun _ h => h.resolve_left (fun h => h hwf)) fun _ h => h
    have hresult :=
      (@Vm.allocFixedOverwrite_result vm address len flags heap hwf hr hlower hs).with_eq
    have hboth := hspec.with_eq
    rw [ensures_iff] at hresult hboth ⊢
    refine ⟨fun out hrun => ?_, fun e he => (hboth.2 e he).1⟩
    have hover := (hboth.1 out hrun).1
    rcases (hresult.1 out hrun).1 with hok | hfailed
    · exact Or.inr ⟨hok, flagsAt_set hwf (hover.covers hok hwf)⟩
    · exact Or.inl hfailed

end

/-- Of two areas with a gap between them: their insides are freed or overwritten, and only the gap
can be mapped. -/
theorem vm_edits_settled :
    (∃ out, VmState.settled.vm.free 0x2000 0x4000 VmState.settled.heap = .ok (.ok (), out) ∧
      flagsAt out.1 = removeRange (flagsAt VmState.settled.vm.first) 0x2000 0x6000) ∧
    (∃ out, VmState.settled.vm.allocFixedNoreplace 0x3000 0x2000 protWrite VmState.settled.heap =
        .ok (.ok (), out) ∧
      flagsAt out.1 = setRange (flagsAt VmState.settled.vm.first) 0x3000 0x5000
        (protToMode protWrite)) ∧
    (∃ out, VmState.settled.vm.allocFixedNoreplace 0x2000 0x4000 protExec VmState.settled.heap =
        .ok (.error .EEXIST, out) ∧ out.1 = VmState.settled.vm.first) ∧
    ∃ out, VmState.settled.vm.allocFixedOverwrite 0x2000 0x4000 protExec VmState.settled.heap =
        .ok (.ok (), out) ∧
      flagsAt out.1 = setRange (flagsAt VmState.settled.vm.first) 0x2000 0x6000
        (protToMode protExec) := by
  have hneat := VmState.settled_neat.coherent
  have hinside : AreaRange 0x2000 (0x2000 + 0x4000) := ⟨by decide, by decide, by decide, by decide⟩
  have hgap : AreaRange 0x3000 (0x3000 + 0x2000) := ⟨by decide, by decide, by decide, by decide⟩
  obtain ⟨hfree, hfixed⟩ := vm_edits hneat.areas hneat.space hinside protExec
  obtain ⟨hexists, hoverwrite⟩ := hfixed (by decide)
  have hnoreplace := ((vm_edits hneat.areas hneat.space hgap protWrite).2 (by decide)).1
  have hdone : (Except.ok () : Result Unit) ≠ .error .ENOMEM := fun h => (by cases h)
  have hfailed : (Except.error .EEXIST : Result Unit) ≠ .error .ENOMEM := by decide
  have hinUse : failsWith .EEXIST (VmState.settled.vm.allocFixedNoreplace 0x2000 0x4000 protExec
      VmState.settled.heap) := by decide +kernel
  refine ⟨exists_of_succeeds (hfree.imp fun out h hok => ?_) (by decide +kernel),
    exists_of_succeeds (hnoreplace.imp fun out h hok => ?_) (by decide +kernel), ?_,
    exists_of_succeeds (hoverwrite.imp fun out h hok => ?_) (by decide +kernel)⟩
  · rw [hok] at h
    exact (h.resolve_left fun hno => hdone hno.1).2.2
  · rw [hok] at h
    exact ((h.resolve_left fun hno => hdone hno.1).2.1 rfl).2
  · obtain ⟨out, hout, h⟩ := exists_of_failsWith hexists hinUse
    refine ⟨out, hout, ((h.resolve_left fun hno => hfailed hno.1).2.2 fun h => ?_).2⟩
    cases h
  · rw [hok] at h
    exact (h.resolve_left fun hno => hdone hno.1).2

end Fluke
