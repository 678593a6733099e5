import Fluke.User.Vm.Areas

/-!
# The operations on a virtual memory

Every operation changes the list of areas and the page tables. `PagesStep` says what becomes of
the page-table entry of each user address; the specifications below give it together with the
change of the list. What they say about the list needs the list to be well formed; what they say
about the page tables does not.
-/

namespace Fluke

open Outcome

/-- A relation of the old and the new page-table entry of an address. -/
abbrev PageRel := ℕ → Option Word → Option Word → Prop

/-- The page tables stay in order and the entries change as the relation says. -/
structure PagesStep (pm : Frame) (R : PageRel) (s s' : Pmm) : Prop where
  ok : SpaceOk pm s'
  noEmpty : NoEmptyTables s.memory pm → NoEmptyTables s'.memory pm
  lookup : ∀ va < memLowHalfMax, R va (userLookup s.memory pm va) (userLookup s'.memory pm va)

/-- Nothing changes. -/
def Kept : PageRel := fun _ old new => new = old

/-- The pages of the range are gone. -/
def ClearedIn (address end_ : ℕ) : PageRel := fun va old new =>
  new = if address ≤ va ∧ va < end_ then none else old

/-- An entry with the permissions of an area. -/
def EntryFor (mode : MmuMode) (entry : Option Word) : Prop :=
  ∃ page, entry = some (entryAddressBits page ||| entryFlags MmuCache.default mode)

/-- The pages of the range, not mapped before, are mapped unless no access is allowed. -/
def MapsIn (address end_ : ℕ) (flags : BitVec 32) : PageRel := fun va old new =>
  if flags ≠ 0 ∧ address ≤ va ∧ va < end_ then old = none ∧ EntryFor (protToMode flags) new
  else new = old

/-- The pages of the range are mapped anew, or only cleared if no access is allowed. -/
def ReplacedIn (address end_ : ℕ) (flags : BitVec 32) : PageRel := fun va old new =>
  if address ≤ va ∧ va < end_ then
    if flags = 0 then new = none else EntryFor (protToMode flags) new
  else new = old

section

variable {pm : Frame} {R R' R'' : PageRel} {s s' s'' : Pmm} {heap heap' : Heap}
  {address end_ : ℕ} {flags : BitVec 32}

lemma PagesStep.kept (hs : SpaceOk pm s) : PagesStep pm Kept s s := ⟨hs, id, fun _ _ => rfl⟩

lemma PagesStep.trans (h : PagesStep pm R s s') (h' : PagesStep pm R' s' s'')
    (hR : ∀ va old mid new, R va old mid → R' va mid new → R'' va old new) :
    PagesStep pm R'' s s'' :=
  ⟨h'.ok, fun hne => h'.noEmpty (h.noEmpty hne),
    fun va hva => hR va _ _ _ (h.lookup va hva) (h'.lookup va hva)⟩

lemma PagesStep.kept_trans (h : PagesStep pm Kept s s') (h' : PagesStep pm R s' s'') :
    PagesStep pm R s s'' := by
  refine h.trans h' ?_
  rintro va old mid new rfl hR
  exact hR

lemma PagesStep.trans_kept (h : PagesStep pm R s s') (h' : PagesStep pm Kept s' s'') :
    PagesStep pm R s s'' := by
  refine h.trans h' ?_
  rintro va old mid new hR rfl
  exact hR

/-- The entries depend on the frames of the space only. -/
lemma userLookup_congr {memory memory' : Frame → Page}
    (h : ∀ g ∈ spaceFrames memory pm, memory' g = memory g) (va : ℕ) :
    userLookup memory' pm va = userLookup memory pm va := by
  rw [userLookup, userLookup, userTree, userTree, userSlots_congr h]

/-- Taking a block from the heap may take a page from the free list, and nothing else. -/
lemma HeapStep.spaceOk (h : HeapStep heap heap') (hs : SpaceOk pm heap.pmm) :
    SpaceOk pm heap'.pmm ∧ ∀ g ∈ spaceFrames heap.pmm.memory pm,
      heap'.pmm.memory g = heap.pmm.memory g := by
  have hsame : ∀ g ∈ spaceFrames heap.pmm.memory pm,
      heap'.pmm.memory g = heap.pmm.memory g := fun g hg => h.memory g (hs.notMem_free hg)
  have hframes : slotFrames userHalf heap'.pmm.memory PDPT pm =
      slotFrames userHalf heap.pmm.memory PDPT pm := congrArg framesOfSlots (userSlots_congr hsame)
  refine ⟨⟨⟨?_⟩, h.counted, fun i => ?_⟩, hsame⟩
  · rw [hframes]
    refine Multiset.nodup_of_le ?_ hs.apart.nodup
    refine Multiset.cons_le_cons _ (add_le_add_right (Multiset.coe_le.mpr ?_) _)
    exact h.suffix.sublist.subperm
  · rw [userSlots_congr hsame]
    exact hs.tables i

lemma HeapStep.pagesKept (h : HeapStep heap heap') (hs : SpaceOk pm heap.pmm) :
    PagesStep pm Kept heap.pmm heap'.pmm := by
  obtain ⟨hok, hsame⟩ := h.spaceOk hs
  refine ⟨hok, fun hne i => ?_, fun va _ => userLookup_congr hsame va⟩
  rw [userSlots_congr hsame]
  exact hne i

lemma clearRange_spec {len : ℕ} (hr : UserRange address len) (hs : SpaceOk pm heap.pmm) :
    Ensures (fun _ => False)
      (fun heap' => PagesStep pm (ClearedIn address (address + len)) heap.pmm heap'.pmm)
      (clearRange pm address len heap) := by
  unfold clearRange
  refine (mmuClear_spec hr hs).bind fun s' h => ?_
  exact ⟨h.ok, h.noEmpty, fun va hva => h.lookup hr hva⟩

lemma assignArea_spec {len : ℕ} (hr : UserRange address len) (hs : SpaceOk pm heap.pmm) :
    Ensures (AssignStop (RangeMapped pm address len heap.pmm))
      (fun heap' => PagesStep pm (MapsIn address (address + len) flags) heap.pmm heap'.pmm)
      (assignArea pm address len flags heap) := by
  unfold assignArea
  split_ifs with hflags
  · refine (mmuAssign_spec hr hs).bind fun s' h => ?_
    refine ⟨h.ok, h.noEmpty, fun va hva => ?_⟩
    unfold MapsIn
    split_ifs with hin
    · obtain ⟨-, hlo, hhi⟩ := hin
      obtain ⟨page, -, hpage, -⟩ := h.inside va hlo hhi
      exact ⟨h.unmapped va hlo hhi, page, hpage⟩
    · exact h.outside va hva fun hrange => hin ⟨hflags, hrange⟩
  · refine ⟨hs, id, fun va _ => ?_⟩
    unfold MapsIn
    rw [if_neg fun hin => hflags hin.1]

end

/-! ### Arguments -/

/-- Page-aligned arguments of their C types, as `assert_valid` asks for them. -/
structure VmArgs (address len : ℕ) : Prop where
  aligned : 4096 ∣ address
  len_aligned : 4096 ∣ len
  pos : 0 < len
  lt : len < 2 ^ 63

namespace VmArgs

variable {address len : ℕ}

lemma assertValid_eq (h : VmArgs address len) : assertValid address len = .ok () := by
  have haligned : isPageAligned address = true :=
    isPageAligned_iff.mpr (Nat.mod_eq_zero_of_dvd h.aligned)
  have hlen : (len : ℤ) % pageSize = 0 := by
    have hmod := Nat.mod_eq_zero_of_dvd h.len_aligned
    simp only [pageSize]
    omega
  have hpos : (len : ℤ) > 0 := Int.natCast_pos.mpr h.pos
  rw [assertValid, assert_eq_ok, haligned]
  simp only [hlen, hpos, decide_true, Bool.and_self]

lemma uaddIsize_eq (h : VmArgs address len) (hlt : address < addrMax) :
    uaddIsize address len = address + len := by
  have hlen := h.lt
  simp only [addrMax, memLowHalfMax] at hlt
  rw [uaddIsize_of_nonneg (by omega) (by omega), Int.toNat_natCast]

lemma areaRange (h : VmArgs address len) (hle : address + len ≤ addrMax) :
    AreaRange address (address + len) where
  lt := Nat.lt_add_of_pos_right h.pos
  begin_aligned := h.aligned
  end_aligned := (Nat.dvd_add_right h.aligned).mpr h.len_aligned
  upper := hle

lemma userRange (h : VmArgs address len) (hle : address + len ≤ addrMax) :
    UserRange address len := ⟨h.aligned, h.len_aligned, h.pos, hle⟩

end VmArgs

/-! ### `VM::free` -/

lemma clearLoop_pmm (address end_ : ℕ) (spare : Block) (areas : List VmArea) (heap : Heap) :
    Ensures (fun _ => True) (fun r => r.2.pmm = heap.pmm)
      (clearLoop address end_ spare areas heap) := by
  have hassert : ∀ b a, Ensures (fun _ => True) (fun _ => True) (assert b a) := by
    intro b a
    cases b <;> trivial
  induction areas generalizing heap with
  | nil => exact rfl
  | cons area next ih =>
    unfold clearLoop
    cases area.findOverlap address end_ with
    | after => exact rfl
    | startsWith => exact (hassert _ _).bind fun _ _ => rfl
    | contains => exact rfl
    | whole =>
      refine Ensures.bind ((freeArea_spec area.block heap).mono (fun _ h => h.elim)
        fun _ h => h) fun heap₁ hpmm => ?_
      exact (ih heap₁).imp fun r hr => hr.trans hpmm
    | endsWith => exact (hassert _ _).bind fun _ _ => (ih heap).bind fun r hr => hr
    | before => exact (ih heap).bind fun r hr => hr

lemma vmClearForInsert_spec {pm : Frame} {areas : List VmArea} {address end_ : ℕ}
    {heap : Heap} (hr : AreaRange address end_) (hs : SpaceOk pm heap.pmm) :
    Ensures (fun _ => ¬ WellFormed areas) (fun r => PagesStep pm Kept heap.pmm r.2.pmm ∧
      ∀ route, r.1 = .ok route → WellFormed areas → AreasCleared address end_ areas route)
      (vmClearForInsert areas address end_ heap) := by
  unfold vmClearForInsert
  refine Ensures.bind ((makeArea_spec hs.counted).mono (fun _ h => h.elim) fun _ h => h) ?_
  rintro ⟨_ | spare, heap₁⟩ hstep
  · exact ⟨hstep.pagesKept hs, fun route h => by cases h⟩
  have hloop : Ensures (fun _ => ¬ WellFormed areas)
      (fun r => r.2.pmm = heap₁.pmm ∧ (WellFormed areas → AreasCleared address end_ areas r.1))
      (clearLoop address end_ spare areas heap₁) := by
    by_cases hwf : WellFormed areas
    · exact (clearLoop_spec hr spare hwf heap₁).mono (fun _ h => h.elim)
        fun r h => ⟨h.2, fun _ => h.1⟩
    · exact (clearLoop_pmm address end_ spare areas heap₁).mono (fun _ _ => hwf)
        fun r h => ⟨h, fun h => absurd h hwf⟩
  refine hloop.bind ?_
  rintro ⟨route, heap₂⟩ ⟨hpmm, hcleared⟩
  have hdone : ∀ heap₃ : Heap, heap₃.pmm = heap₂.pmm → PagesStep pm Kept heap.pmm heap₃.pmm ∧
      ∀ route', (Except.ok route : Result Route) = .ok route' → WellFormed areas →
        AreasCleared address end_ areas route' := by
    intro heap₃ hpmm'
    refine ⟨?_, fun route' h => ?_⟩
    · rw [hpmm'.trans hpmm]
      exact hstep.pagesKept hs
    · cases h
      exact hcleared
  dsimp only
  split_ifs
  · exact hdone heap₂ rfl
  · exact Ensures.bind ((freeArea_spec spare heap₂).mono (fun _ h => h.elim) fun _ h => h) hdone

/-- What `VM::free` leaves. -/
structure Freed (vm : Vm) (address len : ℕ) (heap : Heap) (out : VmOut Unit) : Prop where
  done : out.1 = .ok () → PagesStep vm.pageMap (ClearedIn address (address + len)) heap.pmm
    out.2.2.pmm
  failed : ∀ e, out.1 = .error e → out.2.1 = vm.first ∧
    PagesStep vm.pageMap Kept heap.pmm out.2.2.pmm
  areas : out.1 = .ok () → WellFormed vm.first → WellFormed out.2.1 ∧ ∀ va flags,
    Covers out.2.1 va flags ↔ Covers vm.first va flags ∧ ¬ (address ≤ va ∧ va < address + len)

lemma Freed.error {vm : Vm} {address len : ℕ} {heap heap' : Heap}
    (h : PagesStep vm.pageMap Kept heap.pmm heap'.pmm) (e : ErrorCode) :
    Freed vm address len heap (.error e, vm.first, heap') :=
  ⟨fun hok => (by cases hok), fun _ _ => ⟨rfl, h⟩, fun hok => (by cases hok)⟩

lemma Vm.free_spec {vm : Vm} {address len : ℕ} {heap : Heap} (hargs : VmArgs address len)
    (hs : SpaceOk vm.pageMap heap.pmm) :
    Ensures (fun _ => ¬ WellFormed vm.first) (Freed vm address len heap)
      (vm.free address len heap) := by
  unfold Vm.free
  rw [hargs.assertValid_eq, ok_bind]
  split_ifs with hrange
  · exact Freed.error (.kept hs) _
  have hlt : address < addrMax := by
    by_contra hge
    exact hrange (by simp [not_lt.mp hge])
  rw [hargs.uaddIsize_eq hlt] at hrange ⊢
  have hle : address + len ≤ addrMax := by
    by_contra hgt
    exact hrange (by simp [not_le.mp hgt])
  refine (vmClearForInsert_spec (hargs.areaRange hle) hs).bind ?_
  rintro ⟨e | route, heap₁⟩ ⟨hkept, hcleared⟩
  · exact Freed.error hkept e
  refine Ensures.bind ((clearRange_spec (hargs.userRange hle) hkept.ok).mono
    (fun _ h => h.elim) fun _ h => h) fun heap₂ hpages => ?_
  refine ⟨fun _ => hkept.kept_trans hpages, fun e h => (by cases h), fun _ hwf => ?_⟩
  have hareas := hcleared route rfl hwf
  exact ⟨hareas.wellFormed, hareas.covers⟩

/-! ### `VM::alloc_fixed_noreplace` -/

/-- A new area, in a list that has the areas that end before it in front of those that begin
behind it. -/
lemma covers_insert {passed rest : List VmArea} {area : VmArea} {va : ℕ} {flags : MmuMode} :
    Covers (passed ++ area :: rest) va flags ↔
      (area.begin ≤ va ∧ va < area.end_ ∧ area.flags = flags) ∨
        Covers (passed ++ rest) va flags := by
  rw [covers_append, covers_cons, covers_append]
  tauto

lemma vmInsertArea_spec {pm : Frame} {areas : List VmArea} {address end_ : ℕ}
    {flags : MmuMode} {heap : Heap} (hr : AreaRange address end_) (hlower : addrMin ≤ address)
    (hs : SpaceOk pm heap.pmm) :
    Ensures (fun _ => False) (fun out => PagesStep pm Kept heap.pmm out.2.2.pmm ∧
      (∀ e, out.1 = .error e → out.2.1 = areas) ∧
      (out.1 = .ok () → WellFormed areas → WellFormed out.2.1 ∧ Disjoint' areas address end_ ∧
        ∀ va flags', Covers out.2.1 va flags' ↔
          (address ≤ va ∧ va < end_ ∧ flags = flags') ∨ Covers areas va flags'))
      (vmInsertArea areas address end_ flags heap) := by
  unfold vmInsertArea
  refine (makeArea_spec hs.counted).bind ?_
  rintro ⟨_ | newArea, heap₁⟩ hstep
  · exact ⟨hstep.pagesKept hs, fun _ _ => rfl, fun h => (by cases h)⟩
  have hkept := hstep.pagesKept hs
  obtain ⟨happend, hpassed, hnext⟩ := insertLoop_spec address areas
  have hplaced : ∀ passed rest, areas = passed ++ rest → (∀ a ∈ passed, a.end_ ≤ address) →
      (WellFormed areas → ∀ a ∈ rest, end_ ≤ a.begin) → WellFormed areas →
      WellFormed (passed ++ ⟨address, end_, flags, newArea⟩ :: rest) ∧
        Disjoint' areas address end_ ∧ ∀ va flags',
          Covers (passed ++ ⟨address, end_, flags, newArea⟩ :: rest) va flags' ↔
            (address ≤ va ∧ va < end_ ∧ flags = flags') ∨ Covers areas va flags' := by
    rintro passed rest rfl hbefore hbehind hwf
    have hok : (⟨address, end_, flags, newArea⟩ : VmArea).Ok :=
      ⟨hr.lt, hr.begin_aligned, hr.end_aligned, hlower, hr.upper⟩
    refine ⟨wellFormed_insert hwf hok hbefore (hbehind hwf), fun a ha => ?_,
      fun va flags' => covers_insert⟩
    rcases List.mem_append.mp ha with ha | ha
    · exact Or.inl (hbefore a ha)
    · exact Or.inr (hbehind hwf a ha)
  generalize insertLoop address areas = route at happend hpassed hnext
  obtain ⟨passed, _ | ⟨next, rest⟩⟩ := route
  · exact ⟨hkept, fun _ h => (by cases h), fun _ =>
      hplaced passed [] happend hpassed fun _ a ha => (by cases ha)⟩
  · dsimp only
    split_ifs with hmeets
    · refine Ensures.bind (freeArea_spec newArea heap₁) fun heap₂ hpmm => ?_
      refine ⟨?_, fun _ _ => rfl, fun h => (by cases h)⟩
      dsimp only
      rw [hpmm]
      exact hkept
    · have hbegin : end_ ≤ next.begin := by
        by_contra hgt
        exact hmeets (by simp [not_le.mp hgt])
      refine ⟨hkept, fun _ h => (by cases h), fun _ =>
        hplaced passed (next :: rest) happend hpassed fun hwf a ha => ?_⟩
      rw [happend] at hwf
      have hsorted := (List.pairwise_append.mp hwf.sorted).2.1
      rcases List.mem_cons.mp ha with rfl | ha
      · exact hbegin
      · have hlt := (hwf.ok next (by simp)).lt
        exact (hbegin.trans hlt.le).trans ((List.pairwise_cons.mp hsorted).1 a ha)

/-- A page is mapped that no area covers. -/
def StrayPage (vm : Vm) (heap : Heap) : Prop :=
  ∃ va < memLowHalfMax, (∀ flags, ¬ Covers vm.first va flags) ∧
    userLookup heap.pmm.memory vm.pageMap va ≠ none

/-- Why an operation stops. -/
def VmStop (vm : Vm) (heap : Heap) (e : Panic) : Prop :=
  ¬ WellFormed vm.first ∨ AssignStop (StrayPage vm heap) e

/-- What an operation leaves that maps a range which was free. -/
structure Mapped (vm : Vm) (address len : ℕ) (flags : BitVec 32) (heap : Heap)
    (areas : List VmArea) (heap' : Heap) : Prop where
  pages : PagesStep vm.pageMap (MapsIn address (address + len) flags) heap.pmm heap'.pmm
  covers : WellFormed vm.first → ∀ va flags', Covers areas va flags' ↔
    (address ≤ va ∧ va < address + len ∧ protToMode flags = flags') ∨ Covers vm.first va flags'

/-- No page of a range that meets no area is mapped, unless a page is astray. -/
lemma strayPage_of_rangeMapped {vm : Vm} {address len : ℕ} {heap heap' : Heap}
    (hle : address + len ≤ addrMax) (hdisj : Disjoint' vm.first address (address + len))
    (hkept : PagesStep vm.pageMap Kept heap.pmm heap'.pmm)
    (h : RangeMapped vm.pageMap address len heap'.pmm) : StrayPage vm heap := by
  obtain ⟨va, hlo, hhi, hmapped⟩ := h
  have hva : va < memLowHalfMax := hhi.trans_le hle
  rw [hkept.lookup va hva] at hmapped
  refine ⟨va, hva, ?_, hmapped⟩
  rintro flags ⟨a, ha, hbegin, hend, -⟩
  rcases hdisj a ha with hbefore | hbehind
  · omega
  · omega

lemma Vm.allocFixedNoreplace_spec {vm : Vm} {address len : ℕ} {flags : BitVec 32}
    {heap : Heap} (hargs : VmArgs address len) (hs : SpaceOk vm.pageMap heap.pmm) :
    Ensures (VmStop vm heap) (fun out =>
      (out.1 = .ok () → Mapped vm address len flags heap out.2.1 out.2.2 ∧
        (WellFormed vm.first → WellFormed out.2.1)) ∧
      ∀ e, out.1 = .error e → out.2.1 = vm.first ∧
        PagesStep vm.pageMap Kept heap.pmm out.2.2.pmm)
      (vm.allocFixedNoreplace address len flags heap) := by
  unfold Vm.allocFixedNoreplace
  rw [hargs.assertValid_eq, ok_bind]
  split_ifs with hrange
  · exact ⟨fun h => (by cases h), fun _ _ => ⟨rfl, .kept hs⟩⟩
  have hlower : addrMin ≤ address := by
    by_contra hlt
    exact hrange (by simp [not_le.mp hlt])
  have hlt : address < addrMax := by
    by_contra hge
    exact hrange (by simp [not_lt.mp hge])
  rw [hargs.uaddIsize_eq hlt] at hrange ⊢
  have hle : address + len ≤ addrMax := by
    by_contra hgt
    exact hrange (by simp [not_le.mp hgt])
  refine Ensures.bind ((vmInsertArea_spec (hargs.areaRange hle) hlower hs).mono
    (fun _ h => h.elim) fun _ h => h) ?_
  rintro ⟨e | ⟨⟩, areas, heap₁⟩ ⟨hkept, hfailed, hdone⟩
  · exact ⟨fun h => (by cases h), fun _ _ => ⟨hfailed e rfl, hkept⟩⟩
  refine Ensures.bind ((assignArea_spec (hargs.userRange hle) hkept.ok).mono ?_ fun _ h => h)
    fun heap₂ hpages => ?_
  · intro e hstop
    by_cases hwf : WellFormed vm.first
    · refine Or.inr (hstop.imp_right fun h => ⟨h.1, ?_⟩)
      exact strayPage_of_rangeMapped hle (hdone rfl hwf).2.1 hkept h.2
    · exact Or.inl hwf
  · refine ⟨fun _ => ⟨⟨hkept.kept_trans hpages, fun hwf => (hdone rfl hwf).2.2⟩,
      fun hwf => (hdone rfl hwf).1⟩, fun _ h => (by cases h)⟩

/-! ### `VM::alloc_fixed_overwrite` -/

/-- What `VM::alloc_fixed_overwrite` leaves. When no block is left for the new area, the range
is cleared all the same. -/
structure Overwritten (vm : Vm) (address len : ℕ) (flags : BitVec 32) (heap : Heap)
    (out : VmOut Unit) : Prop where
  done : out.1 = .ok () → PagesStep vm.pageMap (ReplacedIn address (address + len) flags) heap.pmm
    out.2.2.pmm
  failed : ∀ e, out.1 = .error e →
    PagesStep vm.pageMap Kept heap.pmm out.2.2.pmm ∧ out.2.1 = vm.first ∨
      PagesStep vm.pageMap (ClearedIn address (address + len)) heap.pmm out.2.2.pmm
  covers : out.1 = .ok () → WellFormed vm.first → ∀ va flags', Covers out.2.1 va flags' ↔
    (address ≤ va ∧ va < address + len ∧ protToMode flags = flags') ∨
      Covers vm.first va flags' ∧ ¬ (address ≤ va ∧ va < address + len)
  wellFormed : WellFormed vm.first → (∀ e, out.1 = .error e → WellFormed out.2.1) ∧
    (¬ StrictlyInside vm.first address (address + len) → WellFormed out.2.1)

lemma Overwritten.error {vm : Vm} {address len : ℕ} {flags : BitVec 32} {heap heap' : Heap}
    (h : PagesStep vm.pageMap Kept heap.pmm heap'.pmm) (e : ErrorCode) :
    Overwritten vm address len flags heap (.error e, vm.first, heap') :=
  ⟨fun hok => (by cases hok), fun _ _ => Or.inl ⟨h, rfl⟩, fun hok => (by cases hok),
    fun hwf => ⟨fun _ _ => hwf, fun _ => hwf⟩⟩

lemma ClearedIn.mapsIn {address end_ : ℕ} {flags : BitVec 32} {va : ℕ} {old mid new : Option Word}
    (h : ClearedIn address end_ va old mid) (h' : MapsIn address end_ flags va mid new) :
    ReplacedIn address end_ flags va old new := by
  unfold ClearedIn at h
  unfold MapsIn at h'
  unfold ReplacedIn
  split_ifs at h h' ⊢ with hin hcond hflags
  all_goals first | tauto | simp_all

lemma Vm.allocFixedOverwrite_spec {vm : Vm} {address len : ℕ} {flags : BitVec 32}
    {heap : Heap} (hargs : VmArgs address len) (hs : SpaceOk vm.pageMap heap.pmm) :
    Ensures (fun e => ¬ WellFormed vm.first ∨ e = .outOfMemory)
      (Overwritten vm address len flags heap)
      (vm.allocFixedOverwrite address len flags heap) := by
  unfold Vm.allocFixedOverwrite
  rw [hargs.assertValid_eq, ok_bind]
  split_ifs with hrange
  · exact Overwritten.error (.kept hs) _
  have hlower : addrMin ≤ address := by
    by_contra hlt
    exact hrange (by simp [not_le.mp hlt])
  have hlt : address < addrMax := by
    by_contra hge
    exact hrange (by simp [not_lt.mp hge])
  rw [hargs.uaddIsize_eq hlt] at hrange ⊢
  have hle : address + len ≤ addrMax := by
    by_contra hgt
    exact hrange (by simp [not_le.mp hgt])
  have hur := hargs.userRange hle
  have har := hargs.areaRange hle
  refine Ensures.bind ((vmClearForInsert_spec har hs).mono (fun _ h => Or.inl h) fun _ h => h) ?_
  rintro ⟨e | route, heap₁⟩ ⟨hkept, hcleared⟩
  · exact Overwritten.error hkept e
  refine Ensures.bind ((clearRange_spec hur hkept.ok).mono (fun _ h => h.elim) fun _ h => h)
    fun heap₂ hclear => ?_
  have hclear' := hkept.kept_trans hclear
  refine Ensures.bind ((makeArea_spec hclear.ok.counted).mono (fun _ h => h.elim) fun _ h => h) ?_
  rintro ⟨_ | block, heap₃⟩ hstep
  · -- the range is cleared, but there is no new area
    refine ⟨fun h => (by cases h),
      fun _ _ => Or.inr (hclear'.trans_kept (hstep.pagesKept hclear.ok)),
      fun h => (by cases h), fun hwf => ?_⟩
    have hareas := (hcleared route rfl hwf).wellFormed
    exact ⟨fun _ _ => hareas, fun _ => hareas⟩
  have hkept' := hstep.pagesKept hclear.ok
  refine Ensures.bind ((assignArea_spec hur hkept'.ok).mono ?_ fun _ h => h) fun heap₄ hassign => ?_
  · intro e hstop
    refine Or.inr (hstop.outOfMemory ?_)
    rintro ⟨va, hlo, hhi, hmapped⟩
    have hva : va < memLowHalfMax := hhi.trans_le hle
    have hnone := (hclear'.trans_kept hkept').lookup va hva
    rw [ClearedIn, if_pos ⟨hlo, hhi⟩] at hnone
    exact hmapped hnone
  · refine ⟨fun _ => (hclear'.trans_kept hkept').trans hassign fun _ _ _ _ => ClearedIn.mapsIn,
      fun _ h => (by cases h), fun _ hwf va flags' => ?_, fun hwf => ⟨fun _ h => (by cases h),
        fun hinside => ?_⟩⟩
    · have hareas := hcleared route rfl hwf
      rw [covers_insert, hareas.covers]
    · have hareas := hcleared route rfl hwf
      have hspare : route.usedSpare = false := by
        by_contra hused
        exact hinside (hareas.inside (by simpa using hused))
      have hok : (⟨address, address + len, protToMode flags, block⟩ : VmArea).Ok :=
        ⟨har.lt, har.begin_aligned, har.end_aligned, hlower, hle⟩
      exact wellFormed_insert hareas.wellFormed hok hareas.passed (hareas.rest hspare)

end Fluke
